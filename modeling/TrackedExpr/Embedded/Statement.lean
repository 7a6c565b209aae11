import TrackedExpr.Embedded.Expression
import TrackedExpr.Instruction

/-!
# Statements of an embedded listing

An embedded listing is written in the tokens of the host language.  A statement is
a label with a colon, or an opcode with its operand and a semicolon.

**Definitions.**
* `Statement`: an instruction whose label is still a name;
* `number?`, `inRange`: the integers that operands take;
* `statement`, `statements`: reading statements;
* `parse`: a whole listing.
-/

namespace TrackedExpr
namespace Embedded

inductive Statement
  | label (name : String)
  | op (instruction : Instruction)
  | jump (kind : JumpKind) (target : String)
  /-- a constant written in the host language, and whether it fills its braces -/
  | hostConst (tokens : Tokens) (complete : Bool)

section Numbers

/-- An integer with an optional sign: whether it has one, its magnitude, the tokens behind. -/
def number? : Tokens → Option (Bool × Nat × Tokens)
  | .literal _ (.numeral (.int n)) :: rest => some (false, n, rest)
  | .punct '-' _ :: .literal _ (.numeral (.int n)) :: rest => some (true, n, rest)
  | _ => none

/-- A fraction with an optional sign. -/
def fraction? : Tokens → Option (Float × Tokens)
  | .literal _ (.numeral (.float ds)) :: rest => some (floatOfDigits ds, rest)
  | .punct '-' _ :: .literal _ (.numeral (.float ds)) :: rest => some (-floatOfDigits ds, rest)
  | _ => none

/-- An unsigned integer below a bound. -/
def natural (bound : Nat) (ts : Tokens) : Except Fault (Nat × Tokens) :=
  match number? ts with
  | none => expected "integer literal" ts
  | some (true, _, _) => .error .invalidDigit
  | some (false, n, rest) => if n < bound then .ok (n, rest) else .error .tooLarge

/-- A signed integer of a machine word. -/
def inRange (negative : Bool) (n : Nat) : Except Fault Int64 :=
  if negative then
    if Int64.minValue.toInt ≤ -(n : Int) then .ok (Int64.ofInt (-(n : Int))) else .error .tooSmall
  else if (n : Int) ≤ Int64.maxValue.toInt then .ok (Int64.ofInt n)
  else .error .tooLarge

end Numbers

section Operands

def name : Tokens → Except Fault (String × Tokens)
  | .literal _ (.text value) :: rest => .ok (String.ofList value, rest)
  | ts => identifier ts

/-- The constant that a word stands for. -/
def wordConstant (word : String) : Except Fault Value :=
  match word with
  | "None" => .ok .none
  | "True" => .ok (.bool true)
  | "False" => .ok (.bool false)
  | _ => .error (.notConstant word)

/-- A number after an optional minus sign, which is itself put in front of a signed number. -/
def signedNumber (negative : Bool) (ts : Tokens) : Except Fault (Option (Value × Tokens)) :=
  match fraction? ts, number? ts with
  | some (x, rest), _ => .ok (some (.float (if negative then -x else x), rest))
  | none, some (minus, n, rest) =>
      (inRange minus n).map fun i => some (.int (if negative then -i else i), rest)
  | none, none => .ok none

/-- A constant in the words of the listing. -/
def plainConstant (ts : Tokens) : Except Fault (Value × Tokens) :=
  let (negative, body) := match ts with
    | .punct '-' _ :: rest => (true, rest)
    | ts => (false, ts)
  match signedNumber negative body with
  | .error e => .error e
  | .ok (some r) => .ok r
  | .ok none =>
      if negative then expected "a number after `-`" body
      else
        match identifier body with
        | .error e => .error e
        | .ok (word, rest) => (wordConstant word).map fun v => (v, rest)

/-- The operand of a constant load: an expression of the host language in braces, or a constant
in the words of the listing. -/
def constant (ts : Tokens) : Except Fault (Statement × Tokens) :=
  match ts with
  | .group .brace inner :: rest =>
      (expression inner).map fun after =>
        (.hostConst (inner.take (inner.length - after.length)) after.isEmpty, rest)
  | .literal _ (.text value) :: rest =>
      .ok (.op (.loadConst (.str (String.ofList value))), rest)
  | .word w :: rest =>
      if String.ofList w = "true" then .ok (.op (.loadConst (.bool true)), rest)
      else if String.ofList w = "false" then .ok (.op (.loadConst (.bool false)), rest)
      else (plainConstant ts).map fun e => (.op (.loadConst e.1), e.2)
  | ts => (plainConstant ts).map fun e => (.op (.loadConst e.1), e.2)

def comparison (ts : Tokens) : Except Fault (Statement × Tokens) :=
  match identifier ts with
  | .error e => .error e
  | .ok (word, rest) =>
      match CompareOp.ofMnemonic? word with
      | some op => .ok (.op (.compare op), rest)
      | none => .error (.unknownComparison word)

end Operands

section Statements

/-- The instructions without an operand. -/
def bareInstructions : List Instruction :=
  [ .dupTop, .rotTwo, .rotThree, .popTop, .unaryNot, .unaryNegative, .binary .add,
    .binary .subtract, .binary .multiply, .binary .trueDivide, .binary .modulo, .returnValue ]

def callForm? (opname : String) : Option CallForm :=
  [CallForm.plain, .star, .mapping, .starMapping].find? fun form => form.opname = opname

def jumpKind? (opname : String) : Option JumpKind :=
  [JumpKind.always, .popIfFalse, .popIfTrue, .ifFalseOrPop, .ifTrueOrPop].find? fun kind =>
    kind.opname = opname

/-- An opcode with its operand. -/
def operation (opname : String) (ts : Tokens) : Except Fault (Statement × Tokens) :=
  match bareInstructions.find? (fun op => op.opname = opname), callForm? opname,
    jumpKind? opname with
  | some op, _, _ => .ok (.op op, ts)
  | none, some form, _ =>
      (natural UInt16.size ts).map fun e => (.op (.call form (UInt16.ofNat e.1)), e.2)
  | none, none, some kind => (identifier ts).map fun e => (.jump kind e.1, e.2)
  | none, none, none =>
      match opname with
      | "LOAD_CONST" => constant ts
      | "LOAD_NAME" => (name ts).map fun e => (.op (.loadName e.1), e.2)
      | "LOAD_ATTR" => (name ts).map fun e => (.op (.loadAttr e.1), e.2)
      | "BUILD_TUPLE" =>
          (natural UInt64.size ts).map fun e => (.op (.buildTuple (UInt64.ofNat e.1)), e.2)
      | "UNPACK_SEQUENCE" =>
          (natural UInt64.size ts).map fun e => (.op (.unpackSequence (UInt64.ofNat e.1)), e.2)
      | "COMPARE_OP" => comparison ts
      | _ => .error (.unknownOpcode opname)

def statement (ts : Tokens) : Except Fault (Statement × Tokens) :=
  match identifier ts with
  | .error e => .error e
  | .ok (word, rest) =>
      match rest with
      | .punct ':' _ :: more => .ok (.label word, more)
      | _ =>
          match operation word rest with
          | .error e => .error e
          | .ok (s, .punct ';' _ :: more) => .ok (s, more)
          | .ok _ => .error (.expected "`;`" false)

def statements (ts : Tokens) : Except Fault (List Statement) :=
  match ts with
  | [] => .ok []
  | t :: more =>
      match statement (t :: more) with
      | .error e => .error e
      | .ok (s, rest) =>
          if rest.length ≤ more.length then (statements rest).map fun ss => s :: ss
          else .error (.expected "identifier" false)
termination_by ts.length

/-- Whether a statement leaves no tokens in its braces. -/
def Statement.isComplete : Statement → Bool
  | .hostConst _ complete => complete
  | _ => true

def parse (cs : List Char) : Except Fault (List Statement) :=
  match tokens? cs with
  | none => .error .noTokens
  | some ts =>
      match statements ts with
      | .error e => .error e
      | .ok ss =>
          if !ss.all Statement.isComplete then .error .leftover
          else if ss.isEmpty then .error .empty
          else .ok ss

end Statements

end Embedded
end TrackedExpr
