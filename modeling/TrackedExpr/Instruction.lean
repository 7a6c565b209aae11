import TrackedExpr.Value.Display

/-!
# Instructions

One constructor per kind of operation, with typed operands, and how many stack
slots each instruction takes and leaves.

**Definitions.**
* `Label`, `ArgSpec`, `CallForm`, `JumpKind`: the operands;
* `Instruction`, `Instruction.opname`;
* `Instruction.effect`: the slots popped and pushed, for a branch taken or not;
* `Instruction.line`: the listing line.
-/

namespace TrackedExpr

/-- A jump target, placed in a sequence by `Instruction.setLabel`. -/
structure Label where
  number : UInt32
deriving DecidableEq, Repr

def Label.chars (l : Label) : List Char := 'L' :: natChars l.number.toNat

/-- The two counts of a call operand.  A keyword argument takes two slots, name and value. -/
structure ArgSpec where
  positional : UInt8
  keyword : UInt8
deriving DecidableEq, Repr

namespace ArgSpec

/-- The low byte counts positional arguments, the high byte keyword arguments. -/
def decode (raw : UInt16) : ArgSpec where
  positional := raw.toUInt8
  keyword := (raw >>> 8).toUInt8

/-- The operand with the given counts. -/
def encode (spec : ArgSpec) : UInt16 :=
  spec.positional.toUInt16 ||| (spec.keyword.toUInt16 <<< 8)

/-- The slots between the callable and the top of the stack. -/
def slots (spec : ArgSpec) : Nat :=
  spec.positional.toNat + 2 * spec.keyword.toNat

end ArgSpec

inductive BinaryOp
  | add
  | subtract
  | multiply
  | trueDivide
  | modulo
deriving DecidableEq, Repr

def BinaryOp.opname : BinaryOp → String
  | .add => "BINARY_ADD"
  | .subtract => "BINARY_SUBTRACT"
  | .multiply => "BINARY_MULTIPLY"
  | .trueDivide => "BINARY_TRUE_DIVIDE"
  | .modulo => "BINARY_MODULO"

inductive CompareOp
  | lt
  | le
  | eq
  | ne
  | gt
  | ge
deriving DecidableEq, Repr

namespace CompareOp

def all : List CompareOp := [.lt, .le, .eq, .ne, .gt, .ge]

def mnemonic : CompareOp → String
  | .lt => "lt"
  | .le => "le"
  | .eq => "eq"
  | .ne => "ne"
  | .gt => "gt"
  | .ge => "ge"

def ofMnemonic? (word : String) : Option CompareOp :=
  all.find? fun op => op.mnemonic = word

end CompareOp

/-- What a call takes beside its counted arguments: nothing, a tuple of further positional
arguments, a tuple of further keyword pairs, or both (the keyword pairs on top). -/
inductive CallForm
  | plain
  | star
  | mapping
  | starMapping
deriving DecidableEq, Repr

namespace CallForm

def opname : CallForm → String
  | .plain => "CALL_FUNCTION"
  | .star => "CALL_FUNCTION_VAR"
  | .mapping => "CALL_FUNCTION_KW"
  | .starMapping => "CALL_FUNCTION_VAR_KW"

/-- The slots a call form takes above the counted arguments. -/
def extras : CallForm → Nat
  | .plain => 0
  | .star | .mapping => 1
  | .starMapping => 2

end CallForm

/-- When a jump is taken and what becomes of the tested value. -/
inductive JumpKind
  | always
  | popIfFalse
  | popIfTrue
  | ifFalseOrPop
  | ifTrueOrPop
deriving DecidableEq, Repr

def JumpKind.opname : JumpKind → String
  | .always => "JUMP_FORWARD"
  | .popIfFalse => "POP_JUMP_IF_FALSE"
  | .popIfTrue => "POP_JUMP_IF_TRUE"
  | .ifFalseOrPop => "JUMP_IF_FALSE_OR_POP"
  | .ifTrueOrPop => "JUMP_IF_TRUE_OR_POP"

/-- Slots popped, then pushed. -/
structure StackEffect where
  pops : Nat
  pushes : Nat
deriving DecidableEq, Repr

/-- The change in stack height as a machine word. -/
def StackEffect.net (e : StackEffect) : Int64 :=
  Int64.ofNat e.pushes - Int64.ofNat e.pops

/-- An instruction of the expression machine. -/
inductive Instruction
  /-- marks a jump target -/
  | setLabel (label : Label)
  | loadConst (value : Value)
  | loadName (name : String)
  | loadAttr (attr : String)
  | dupTop
  | rotTwo
  /-- moves the top to the third place -/
  | rotThree
  | popTop
  | buildTuple (count : UInt64)
  /-- pops a tuple and leaves its first item on top -/
  | unpackSequence (count : UInt64)
  | binary (op : BinaryOp)
  | compare (op : CompareOp)
  | unaryNot
  | unaryNegative
  | call (form : CallForm) (operand : UInt16)
  | jump (kind : JumpKind) (target : Label)
  | returnValue

namespace Instruction

def opname : Instruction → String
  | .setLabel _ => "SET_LABEL"
  | .loadConst _ => "LOAD_CONST"
  | .loadName _ => "LOAD_NAME"
  | .loadAttr _ => "LOAD_ATTR"
  | .dupTop => "DUP_TOP"
  | .rotTwo => "ROT_TWO"
  | .rotThree => "ROT_THREE"
  | .popTop => "POP_TOP"
  | .buildTuple _ => "BUILD_TUPLE"
  | .unpackSequence _ => "UNPACK_SEQUENCE"
  | .binary op => op.opname
  | .compare _ => "COMPARE_OP"
  | .unaryNot => "UNARY_NOT"
  | .unaryNegative => "UNARY_NEGATIVE"
  | .call form _ => form.opname
  | .jump kind _ => kind.opname
  | .returnValue => "RETURN_VALUE"

/-- The slots an instruction pops and pushes; `taken` selects the taken branch of a
conditional jump and matters to no other instruction. -/
def effect (taken : Bool) : Instruction → StackEffect
  | .setLabel _ => ⟨0, 0⟩
  | .loadConst _ | .loadName _ => ⟨0, 1⟩
  | .loadAttr _ | .unaryNot | .unaryNegative => ⟨1, 1⟩
  | .dupTop => ⟨1, 2⟩
  | .rotTwo => ⟨2, 2⟩
  | .rotThree => ⟨3, 3⟩
  | .popTop | .returnValue => ⟨1, 0⟩
  | .buildTuple n => ⟨n.toNat, 1⟩
  | .unpackSequence n => ⟨1, n.toNat⟩
  | .binary _ | .compare _ => ⟨2, 1⟩
  | .call form operand => ⟨(ArgSpec.decode operand).slots + form.extras + 1, 1⟩
  | .jump .always _ => ⟨0, 0⟩
  | .jump .popIfFalse _ | .jump .popIfTrue _ => ⟨1, 0⟩
  | .jump .ifFalseOrPop _ | .jump .ifTrueOrPop _ => ⟨1, if taken then 1 else 0⟩

/-- The label to which control may be transferred. -/
def target? : Instruction → Option Label
  | .jump _ l => some l
  | _ => none

/-- Whether control never goes on to the next instruction. -/
def isTerminal : Instruction → Bool
  | .jump .always _ | .returnValue => true
  | _ => false

/-- Whether this is a call of any form. -/
def isCall : Instruction → Bool
  | .call _ _ => true
  | _ => false

/-- Equality of instructions; constants are compared as expressions compare them. -/
def same : Instruction → Instruction → Bool
  | .setLabel a, .setLabel b => a == b
  | .loadConst a, .loadConst b => a.same b
  | .loadName a, .loadName b => a == b
  | .loadAttr a, .loadAttr b => a == b
  | .dupTop, .dupTop => true
  | .rotTwo, .rotTwo => true
  | .rotThree, .rotThree => true
  | .popTop, .popTop => true
  | .buildTuple a, .buildTuple b => a == b
  | .unpackSequence a, .unpackSequence b => a == b
  | .binary a, .binary b => a == b
  | .compare a, .compare b => a == b
  | .unaryNot, .unaryNot => true
  | .unaryNegative, .unaryNegative => true
  | .call f a, .call g b => f == g && a == b
  | .jump j a, .jump k b => j == k && a == b
  | .returnValue, .returnValue => true
  | _, _ => false

/-- A call operand in hexadecimal with at least four digits. -/
def operandChars (raw : UInt16) : List Char :=
  let ds := Nat.toDigits 16 raw.toNat
  '0' :: 'x' :: (List.replicate (4 - ds.length) '0' ++ ds)

/-- What follows the opcode on a listing line, if anything. -/
def operand? : Instruction → Option (List Char)
  | .loadConst v => some v.chars
  | .loadName n | .loadAttr n => some n.toList
  | .buildTuple n | .unpackSequence n => some (natChars n.toNat)
  | .compare op => some op.mnemonic.toList
  | .call _ raw => some (operandChars raw)
  | .jump _ l => some l.chars
  | _ => none

/-- The listing line of an instruction. -/
def line : Instruction → List Char
  | .setLabel l => l.chars ++ [':']
  | op =>
      match op.operand? with
      | some text => op.opname.toList ++ ' ' :: text
      | none => op.opname.toList

end Instruction
end TrackedExpr
