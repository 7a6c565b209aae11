import TrackedExpr.Assoc
import TrackedExpr.Builtin
import TrackedExpr.Code.Basic

/-!
# The expression machine

A frame is a value stack and a program counter.  One step executes one
instruction; a call of a native function is handed to the surroundings, which
answer with a value or an error.

**Definitions.**
* `Scope`: the names an expression sees;
* `Frame`, `Frame.step`, `Progress`;
* `callArguments`: the arguments a call passes on.
-/

namespace TrackedExpr

/-- Names bound to values; builtins are consulted after it. -/
abbrev Scope := List (String × Value)

namespace Scope

/-- The value of a name: the scope's own, else the builtin of that name. -/
def resolve? (scope : Scope) (name : String) : Option Value :=
  match Assoc.get? name scope with
  | some v => some v
  | none => (Builtin.ofName? name).map Value.builtin

end Scope

/-- Execution state; the head of `stack` is the top. -/
structure Frame where
  stack : List Value
  pc : Nat

/-- A call of a native function, and the values that stay on the caller's stack meanwhile. -/
structure NativeCall where
  function : NativeRef
  args : List Value
  kwargs : Kwargs
  waiting : List Value

/-- What one step leads to. -/
inductive Progress
  | running (frame : Frame)
  /-- the frame goes on once the call has answered -/
  | calling (call : NativeCall) (frame : Frame)
  | finished (value : Value)
  | failed (error : EvalError)

section Calls

/-- A keyword argument. -/
def keywordPair (name value : Value) : Except EvalError (String × Value) :=
  match name with
  | .str n => .ok (n, value)
  | other => .error (.type (.keywordNotText other.typeName))

/-- The keyword arguments in a run of name and value slots. -/
def keywordSlots : List Value → Except EvalError Kwargs
  | name :: value :: rest => do
      let pair ← keywordPair name value
      let more ← keywordSlots rest
      return pair :: more
  | _ => .ok []

/-- The keyword arguments in the items of a mapping tuple. -/
def mappingItems : List Value → Except EvalError Kwargs
  | [] => .ok []
  | .tuple [name, value] :: rest => do
      let pair ← keywordPair name value
      let more ← mappingItems rest
      return pair :: more
  | _ :: _ => .error (.type .mappingNotPairs)

/-- The further positional arguments of a star operand. -/
def starItems : Option Value → Except EvalError (List Value)
  | none => .ok []
  | some (.tuple items) => .ok items
  | some v => .error (.type (.starNotTuple v.typeName))

/-- The further keyword arguments of a mapping operand. -/
def mappingOperand : Option Value → Except EvalError Kwargs
  | none => .ok []
  | some (.tuple items) => mappingItems items
  | some v => .error (.type (.mappingNotTuple v.typeName))

/-- The arguments of a call: counted slots in push order, then the star operand, then the
mapping operand. -/
def callArguments (spec : ArgSpec) (slots : List Value) (star mapping : Option Value) :
    Except EvalError (List Value × Kwargs) := do
  let named ← keywordSlots (slots.drop spec.positional.toNat)
  let more ← starItems star
  let mapped ← mappingOperand mapping
  return (slots.take spec.positional.toNat ++ more, named ++ mapped)

/-- Takes the operands above the counted slots: star operand, mapping operand, rest. -/
def CallForm.operands (form : CallForm) (stack : List Value) :
    Option (Option Value × Option Value × List Value) :=
  match form, stack with
  | .plain, s => some (none, none, s)
  | .star, t :: s => some (some t, none, s)
  | .mapping, m :: s => some (none, some m, s)
  | .starMapping, m :: t :: s => some (some t, some m, s)
  | _, _ => none

end Calls

namespace Frame

/-- The frame in which an evaluation begins. -/
def start : Frame := ⟨[], 0⟩

/-- The stack height. -/
def depth (f : Frame) : Nat := f.stack.length

/-- The frame after a native call has answered. -/
def resume (f : Frame) (v : Value) : Frame := ⟨v :: f.stack, f.pc⟩

/-- Goes on to `pc` with the result of an operation on top of `stack`. -/
def push (pc : Nat) (stack : List Value) : Except EvalError Value → Progress
  | .ok v => .running ⟨v :: stack, pc⟩
  | .error e => .failed e

/-- Continues at a label. -/
def jumpTo (code : Code) (l : Label) (stack : List Value) : Progress :=
  match code.labelIndex? l with
  | some i => .running ⟨stack, i⟩
  | none => .failed (.undefinedLabel l)

/-- Calls a value.  Native functions are handed to the surroundings. -/
def invoke (read : AttributeReader) (pc : Nat) (below : List Value) (function : Value)
    (args : List Value) (kwargs : Kwargs) : Progress :=
  match function with
  | .builtin b => push pc below (b.call read args kwargs)
  | .native ref => .calling ⟨ref, args, kwargs, below⟩ ⟨below, pc⟩
  | v => .failed (.type (.notCallable v.typeName))

/-- Executes a call; nothing is answered for a stack that is too short. -/
def call? (read : AttributeReader) (pc : Nat) (form : CallForm) (operand : UInt16)
    (stack : List Value) : Option Progress :=
  let spec := ArgSpec.decode operand
  match form.operands stack with
  | none => none
  | some (star, mapping, rest) =>
      match rest.drop spec.slots with
      | [] => none
      | function :: below =>
          some <|
            match callArguments spec (rest.take spec.slots).reverse star mapping with
            | .ok (args, kwargs) => invoke read pc below function args kwargs
            | .error e => .failed e

/-- Unpacks a tuple of the given size. -/
def unpack (pc : Nat) (count : UInt64) (stack : List Value) : Value → Progress
  | .tuple items =>
      if items.length = count.toNat then .running ⟨items ++ stack, pc⟩
      else .failed (.unpack count items.length)
  | v => .failed (.type (.notASequence v.typeName))

/-- Executes an instruction, going on at `pc` unless it jumps; nothing is answered for a stack
that is too short. -/
def execute? (read : AttributeReader) (code : Code) (scope : Scope) (pc : Nat) :
    Instruction → List Value → Option Progress
  | .setLabel _, s => some (.running ⟨s, pc⟩)
  | .loadConst v, s => some (.running ⟨v :: s, pc⟩)
  | .loadName n, s =>
      some <|
        match scope.resolve? n with
        | some v => .running ⟨v :: s, pc⟩
        | none => .failed (.unknownName n)
  | .loadAttr a, v :: s => some (push pc s (loadAttr read v a))
  | .dupTop, v :: s => some (.running ⟨v :: v :: s, pc⟩)
  | .rotTwo, v :: w :: s => some (.running ⟨w :: v :: s, pc⟩)
  | .rotThree, v :: w :: x :: s => some (.running ⟨w :: x :: v :: s, pc⟩)
  | .popTop, _ :: s => some (.running ⟨s, pc⟩)
  | .buildTuple n, s =>
      if s.length < n.toNat then none
      else some (.running ⟨.tuple (s.take n.toNat).reverse :: s.drop n.toNat, pc⟩)
  | .unpackSequence n, v :: s => some (unpack pc n s v)
  | .binary op, r :: l :: s => some (push pc s (Value.binary op l r))
  | .compare op, r :: l :: s => some (push pc s ((Value.compare op l r).map Value.bool))
  | .unaryNot, v :: s => some (.running ⟨.bool (!v.isTruthy) :: s, pc⟩)
  | .unaryNegative, v :: s => some (push pc s v.negate)
  | .call form operand, s => call? read pc form operand s
  | .jump .always l, s => some (jumpTo code l s)
  | .jump .popIfFalse l, v :: s =>
      some (if v.isTruthy then .running ⟨s, pc⟩ else jumpTo code l s)
  | .jump .popIfTrue l, v :: s =>
      some (if v.isTruthy then jumpTo code l s else .running ⟨s, pc⟩)
  | .jump .ifFalseOrPop l, v :: s =>
      some (if v.isTruthy then .running ⟨s, pc⟩ else jumpTo code l (v :: s))
  | .jump .ifTrueOrPop l, v :: s =>
      some (if v.isTruthy then jumpTo code l (v :: s) else .running ⟨s, pc⟩)
  | .returnValue, v :: _ => some (.finished v)
  | _, _ => none

/-- One step: the instruction at the program counter runs if the stack holds what it pops. -/
def step (read : AttributeReader) (code : Code) (scope : Scope) (f : Frame) : Progress :=
  match code.instructions[f.pc]? with
  | none => .failed .missingReturn
  | some op =>
      if f.stack.length < (op.effect false).pops then
        .failed (.stackUnderflow f.pc op.opname)
      else
        match execute? read code scope (f.pc + 1) op f.stack with
        | some progress => progress
        | none => .failed (.stackUnderflow f.pc op.opname)

end Frame
end TrackedExpr
