/-!
# Faults of an embedded listing

**Definitions.**
* `Fault`, `Fault.message`: why source text is no listing.
-/

namespace TrackedExpr
namespace Embedded

/-- Why source text is no listing. -/
inductive Fault
  /-- the text is not made of tokens -/
  | noTokens
  /-- something else was expected; whether the tokens were at an end -/
  | expected (what : String) (atEnd : Bool)
  | keyword (word : String)
  /-- tokens are left behind an expression in braces -/
  | leftover
  | unknownOpcode (name : String)
  | unknownComparison (name : String)
  | notConstant (name : String)
  | tooLarge
  | tooSmall
  | invalidDigit
  | labelTwice (name : String)
  | labelUndefined (name : String)
  | empty
deriving DecidableEq, Repr

/-- The wording of a fault. -/
def Fault.message : Fault → String
  | .noTokens => "cannot parse string into token stream"
  | .expected what false => "expected " ++ what
  | .expected what true => "unexpected end of input, expected " ++ what
  | .keyword word => "expected identifier, found keyword `" ++ word ++ "`"
  | .leftover => "unexpected token, expected `\x7d`"
  | .unknownOpcode name => "unknown opcode `" ++ name ++ "`"
  | .unknownComparison name => "unknown comparison `" ++ name ++ "`"
  | .notConstant name =>
      "expected a literal constant or `\x7b expr \x7d`, got `" ++ name ++ "`"
  | .tooLarge => "number too large to fit in target type"
  | .tooSmall => "number too small to fit in target type"
  | .invalidDigit => "invalid digit found in string"
  | .labelTwice name => "label `" ++ name ++ "` is defined twice"
  | .labelUndefined name => "label `" ++ name ++ "` is never defined"
  | .empty => "code! macro requires at least one instruction"

end Embedded
end TrackedExpr
