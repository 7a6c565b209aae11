import TrackedExpr.Instruction

/-!
# Failures of evaluation and of code analysis

Each failure is a cause; its wording is given by one function.

**Definitions.**
* `TypeFault`: the ways in which values do not fit an operation;
* `EvalError`: why an evaluation ends without a value;
* `StackError`: why code has no stack profile;
* `SpliceError`: why insertions do not fit a code.

**Results.**
* `bind_eq_ok`, `map_eq_ok`: what succeeds in two steps, and what succeeds with a function of a
  result.
-/

namespace TrackedExpr

/-- What succeeds in two steps succeeds in each of them. -/
theorem bind_eq_ok {ε α β : Type} {x : Except ε α} {f : α → Except ε β} {y : β}
    (h : x >>= f = .ok y) : ∃ a, x = .ok a ∧ f a = .ok y := by
  cases x with
  | error e => cases h
  | ok a => exact ⟨a, rfl, h⟩

theorem map_eq_ok {ε α β : Type} {f : α → β} {x : Except ε α} {y : β} (h : x.map f = .ok y) :
    ∃ a, x = .ok a ∧ y = f a := by
  cases x with
  | error e => cases h
  | ok a => exact ⟨a, rfl, (Except.ok.inj h).symm⟩

/-- The ways in which values do not fit an operation. -/
inductive TypeFault
  | keywordsRefused (function : String)
  | argumentCount (function : String) (expected given : Nat)
  | getattrCount (given : Nat)
  | attributeNameNotText
  | noLength (typeName : String)
  | noAbsolute (typeName : String)
  | noNegative (typeName : String)
  | operands (opname left right : String)
  | incomparable (mnemonic left right : String)
  | notASequence (typeName : String)
  | keywordNotText (typeName : String)
  | starNotTuple (typeName : String)
  | mappingNotTuple (typeName : String)
  | mappingNotPairs
  | notCallable (typeName : String)
  | sideCallCount (given : Nat)
  | sideCallNotTuple (typeName : String)
  /-- a fault that a native function words itself -/
  | reported (text : String)
deriving DecidableEq, Repr

def TypeFault.message : TypeFault → String
  | .keywordsRefused f => f ++ "() takes no keyword arguments"
  | .argumentCount f expected given =>
      f ++ "() takes exactly " ++ toString expected ++ " argument(s) (" ++ toString given
        ++ " given)"
  | .getattrCount given => "getattr expected 2 or 3 arguments, got " ++ toString given
  | .attributeNameNotText => "getattr(): attribute name must be string"
  | .noLength t => "object of type '" ++ t ++ "' has no len()"
  | .noAbsolute t => "bad operand type for abs(): '" ++ t ++ "'"
  | .noNegative t => "bad operand type for unary -: '" ++ t ++ "'"
  | .operands op l r =>
      "unsupported operand types for " ++ op ++ ": '" ++ l ++ "' and '" ++ r ++ "'"
  | .incomparable op l r =>
      "'" ++ op ++ "' not supported between '" ++ l ++ "' and '" ++ r ++ "'"
  | .notASequence t => "cannot unpack non-sequence " ++ t
  | .keywordNotText t => "keywords must be strings, not " ++ t
  | .starNotTuple t => "argument after * must be a tuple, not " ++ t
  | .mappingNotTuple t => "argument after ** must be a mapping, not " ++ t
  | .mappingNotPairs => "argument after ** must be a tuple of (name, value) pairs"
  | .notCallable t => "'" ++ t ++ "' object is not callable"
  | .sideCallCount given => "call_binder expected 3 arguments, got " ++ toString given
  | .sideCallNotTuple t => "call_binder expected a tuple, got " ++ t
  | .reported text => text

/-- Why an evaluation ends without a value. -/
inductive EvalError
  | unknownName (name : String)
  | noAttribute (typeName attr : String)
  | type (fault : TypeFault)
  | unpack (expected : UInt64) (found : Nat)
  | zeroDivision
  | overflow
  | stackUnderflow (index : Nat) (opname : String)
  | undefinedLabel (label : Label)
  | missingReturn
deriving DecidableEq, Repr

def Label.text (l : Label) : String := String.ofList l.chars

def EvalError.message : EvalError → String
  | .unknownName n => "name `" ++ n ++ "` is not defined"
  | .noAttribute t a => "'" ++ t ++ "' object has no attribute '" ++ a ++ "'"
  | .type fault => "type error: " ++ fault.message
  | .unpack expected found =>
      "expected " ++ toString expected.toNat ++ " values to unpack, got " ++ toString found
  | .zeroDivision => "division by zero"
  | .overflow => "integer overflow"
  | .stackUnderflow i op =>
      "stack underflow at instruction " ++ toString i ++ " (" ++ op ++ ")"
  | .undefinedLabel l => "jump to undefined label " ++ l.text
  | .missingReturn => "code ended without RETURN_VALUE"

/-- Why code has no stack profile. -/
inductive StackError
  | underflow (index : Nat) (opname : String) (depth needs : Nat)
  | inconsistent (index first second : Nat)
  | undefinedLabel (label : Label)
  | duplicateLabel (label : Label)
  | fallsOffEnd
deriving DecidableEq, Repr

def StackError.message : StackError → String
  | .underflow i op depth needs =>
      "stack underflow at instruction " ++ toString i ++ " (" ++ op ++ "): depth "
        ++ toString depth ++ ", needs " ++ toString needs
  | .inconsistent i first second =>
      "inconsistent stack depth at instruction " ++ toString i ++ ": " ++ toString first
        ++ " vs " ++ toString second
  | .undefinedLabel l => "jump to undefined label " ++ l.text
  | .duplicateLabel l => "label " ++ l.text ++ " defined more than once"
  | .fallsOffEnd => "execution falls off the end of the code"

/-- Why insertions do not fit a code. -/
inductive SpliceError
  | outOfRange (index len : Nat)
deriving DecidableEq, Repr

def SpliceError.message : SpliceError → String
  | .outOfRange i len =>
      "insertion index " ++ toString i ++ " is past the end of the code (len " ++ toString len
        ++ ")"

end TrackedExpr
