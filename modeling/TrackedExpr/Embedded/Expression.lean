import TrackedExpr.Embedded.Fault
import TrackedExpr.Embedded.Token

/-!
# Expressions of the host language

A constant of an embedded listing may be any expression of the host language.  It
is not looked into; what matters is where it ends.

**Definitions.**
* `keywords`, `identifier`: which words are identifiers;
* `takePunct?`: a run of punctuation;
* `expression`: the tokens behind an expression.
-/

namespace TrackedExpr
namespace Embedded

abbrev Tokens := List TokenTree

section Words

/-- Words that are no identifiers. -/
def keywords : List String :=
  [ "_", "abstract", "as", "async", "await", "become", "box", "break", "const", "continue",
    "crate", "do", "dyn", "else", "enum", "extern", "false", "final", "fn", "for", "if", "impl",
    "in", "let", "loop", "macro", "match", "mod", "move", "mut", "override", "priv", "pub", "ref",
    "return", "Self", "self", "static", "struct", "super", "trait", "true", "try", "type",
    "typeof", "unsafe", "unsized", "use", "virtual", "where", "while", "yield" ]

/-- The fault that something was expected where these tokens stand. -/
def expected {α : Type} (what : String) (ts : Tokens) : Except Fault α :=
  .error (.expected what ts.isEmpty)

def identifier : Tokens → Except Fault (String × Tokens)
  | .word w :: rest =>
      let name := String.ofList w
      if name ∈ keywords then .error (.keyword name) else .ok (name, rest)
  | ts => expected "identifier" ts

/-- The tokens behind a run of punctuation. -/
def takePunct? : List Char → Tokens → Option Tokens
  | [], ts => some ts
  | c :: cs, .punct d joint :: rest =>
      if c = d && (cs.isEmpty || joint) then takePunct? cs rest else none
  | _ :: _, _ => none

/-- The tokens behind the first of several runs of punctuation that stands at the beginning. -/
def takeOneOf? (runs : List String) (ts : Tokens) : Option Tokens :=
  runs.findSome? fun run => takePunct? run.toList ts

end Words

section Operators

/-- Operators between two operands, longer ones first. -/
def infixOperators : List String :=
  [ "<<=", ">>=", "+=", "-=", "*=", "/=", "%=", "^=", "&=", "|=", "&&", "||", "<<", ">>", "==",
    "<=", "!=", ">=", "+", "-", "*", "/", "%", "^", "&", "|", "<", ">" ]

/-- The tokens behind an operator between two operands. -/
def takeInfix? (ts : Tokens) : Option Tokens :=
  match takeOneOf? infixOperators ts with
  | some rest => some rest
  | none => if (takePunct? "=>".toList ts).isSome then none else takePunct? ['='] ts

/-- The tokens behind the dots of a range. -/
def takeRange? : Tokens → Option Tokens := takeOneOf? ["..=", ".."]

/-- Whether an expression cannot go on here. -/
def endsExpression : Tokens → Bool
  | [] => true
  | .punct c _ :: _ => c = ',' || c = ';' || c = '=' || c = '.' || c = '?'
  | .group .brace _ :: _ => true
  | _ => false

end Operators

section Parts

/-- Words that begin a path though they are keywords. -/
def pathWords : List String := ["self", "Self", "super", "crate"]

/-- Whether a word can be part of a path. -/
def isPathWord (w : List Char) : Bool :=
  let name := String.ofList w
  name ∉ keywords || name ∈ pathWords

/-- The tokens behind the bracket that closes `depth` angle brackets. -/
def afterAngles? (depth : Nat) : Tokens → Option Tokens
  | [] => none
  | .punct '<' _ :: rest => afterAngles? (depth + 1) rest
  | .punct '>' _ :: rest =>
      match depth with
      | 0 => none
      | 1 => some rest
      | depth + 2 => afterAngles? (depth + 1) rest
  | _ :: rest => afterAngles? depth rest

/-- The tokens behind the first group in braces. -/
def afterBraces : Tokens → Except Fault Tokens
  | [] => .error (.expected "curly braces" true)
  | .group .brace _ :: rest => .ok rest
  | _ :: rest => afterBraces rest

/-- The tokens behind the parameters of a closure, from behind their opening bar. -/
def afterParameters : Tokens → Except Fault Tokens
  | [] => .error (.expected "`|`" true)
  | .punct '|' _ :: rest => .ok rest
  | _ :: rest => afterParameters rest

/-- The tokens behind a pattern and its equals sign. -/
def afterPattern : Tokens → Except Fault Tokens
  | [] => .error (.expected "`=`" true)
  | .punct '=' _ :: rest => .ok rest
  | _ :: rest => afterPattern rest

/-- The tokens behind a word, if it stands at the beginning. -/
def dropWord (word : String) : Tokens → Tokens
  | .word w :: rest => if String.ofList w = word then rest else .word w :: rest
  | ts => ts

mutual

def weight : TokenTree → Nat
  | .group _ inner => 2 + totalWeight inner
  | _ => 1

def totalWeight : List TokenTree → Nat
  | [] => 0
  | t :: ts => weight t + totalWeight ts

end

end Parts

section Grammar

mutual

/-- The tokens behind an expression.  The bound is on the nesting of the grammar's rules. -/
def expressionWithin : Nat → Tokens → Except Fault Tokens
  | 0, ts => expected "an expression" ts
  | n + 1, ts =>
      match takeRange? ts with
      | some rest => if endsExpression rest then .ok rest else expressionWithin n rest
      | none =>
          match operandWithin n ts with
          | .error e => .error e
          | .ok rest => operatorsWithin n rest

/-- The tokens behind operators and further operands. -/
def operatorsWithin : Nat → Tokens → Except Fault Tokens
  | 0, ts => .ok ts
  | n + 1, ts =>
      match takeRange? ts with
      | some rest => if endsExpression rest then .ok rest else expressionWithin n rest
      | none =>
          match takeInfix? ts with
          | some rest =>
              match operandWithin n rest with
              | .error e => .error e
              | .ok rest => operatorsWithin n rest
          | none =>
              match ts with
              | .word w :: rest =>
                  if String.ofList w = "as" then
                    match pathWithin n rest with
                    | .error e => .error e
                    | .ok rest => operatorsWithin n rest
                  else .ok ts
              | _ => .ok ts

/-- The tokens behind signs, an atom and what is attached to it. -/
def operandWithin : Nat → Tokens → Except Fault Tokens
  | 0, ts => expected "an expression" ts
  | n + 1, ts =>
      match takePunct? ['&'] ts, takeOneOf? ["*", "!", "-"] ts with
      | some rest, _ => operandWithin n (dropWord "mut" rest)
      | none, some rest => operandWithin n rest
      | none, none =>
          match atomWithin n ts with
          | .error e => .error e
          | .ok rest => trailersWithin n rest

/-- The tokens behind calls, indices, fields, methods and question marks. -/
def trailersWithin : Nat → Tokens → Except Fault Tokens
  | 0, ts => .ok ts
  | n + 1, ts =>
      match ts with
      | .group .parenthesis inner :: rest =>
          match listWithin n inner with
          | .error e => .error e
          | .ok () => trailersWithin n rest
      | .group .bracket inner :: rest =>
          match listWithin n inner with
          | .error e => .error e
          | .ok () => trailersWithin n rest
      | .punct '?' _ :: rest => trailersWithin n rest
      | .punct '.' _ :: rest =>
          if (takeRange? ts).isSome then .ok ts
          else
            match rest with
            | .word _ :: more =>
                match takePunct? "::".toList more with
                | none => trailersWithin n more
                | some angles =>
                    match afterAngles? 0 angles with
                    | some after => trailersWithin n after
                    | none => expected "`<`" angles
            | .literal _ (.numeral _) :: more => trailersWithin n more
            | _ => expected "identifier or integer" rest
      | _ => .ok ts

/-- The tokens behind a path, a call of a macro or a structure. -/
def pathWithin : Nat → Tokens → Except Fault Tokens
  | 0, ts => .ok ts
  | n + 1, ts =>
      match (takePunct? "::".toList ts).getD ts with
      | .word w :: rest =>
          if isPathWord w then
            match takePunct? "::".toList rest with
            | some more =>
                match more with
                | .punct '<' _ :: _ =>
                    match afterAngles? 0 more with
                    | some after =>
                        if (takePunct? "::".toList after).isSome then pathWithin n after
                        else .ok after
                    | none => expected "`>`" []
                | _ => pathWithin n more
            | none =>
                match rest with
                | .punct '!' false :: .group _ _ :: after => .ok after
                | .group .brace _ :: after => .ok after
                | _ => .ok rest
          else .error (.keyword (String.ofList w))
      | rest => expected "identifier" rest

/-- The tokens behind an atom. -/
def atomWithin : Nat → Tokens → Except Fault Tokens
  | 0, ts => expected "an expression" ts
  | n + 1, ts =>
      match ts with
      | .literal _ _ :: rest => .ok rest
      | .group .brace _ :: rest => .ok rest
      | .group _ inner :: rest => (listWithin n inner).map fun _ => rest
      | .punct '|' _ :: rest =>
          match afterParameters rest with
          | .error e => .error e
          | .ok body => expressionWithin n body
      | .punct ':' true :: _ => pathWithin n ts
      | .word w :: rest =>
          let name := String.ofList w
          if isPathWord w then pathWithin n ts
          else if name = "true" || name = "false" || name = "_" then .ok rest
          else if name = "move" then expressionWithin n rest
          else if name = "return" || name = "break" then
            if endsExpression rest then .ok rest else expressionWithin n rest
          else if name = "continue" then .ok rest
          else if name = "let" then
            match afterPattern rest with
            | .error e => .error e
            | .ok value => operandWithin n value
          else if name ∈ ["if", "match", "while"] && rest.isEmpty then
            expected "an expression" rest
          else if name = "if" then
            match afterBraces rest with
            | .error e => .error e
            | .ok after =>
                match after with
                | .word e :: more =>
                    if String.ofList e = "else" then atomWithin n more else .ok after
                | _ => .ok after
          else if name ∈ ["match", "while", "for", "loop", "unsafe", "async", "const"] then
            afterBraces rest
          else expected "an expression" ts
      | _ => expected "an expression" ts

/-- Expressions separated by commas, of which one more may stand at the end; a semicolon may
stand in front of a count. -/
def listWithin : Nat → Tokens → Except Fault Unit
  | 0, ts => expected "an expression" ts
  | n + 1, ts =>
      if ts.isEmpty then .ok ()
      else
        match expressionWithin n ts with
        | .error e => .error e
        | .ok rest =>
            match rest with
            | [] => .ok ()
            | .punct ',' _ :: more => listWithin n more
            | .punct ';' _ :: more => listWithin n more
            | _ => .error (.expected "`,`" false)

end

/-- The tokens behind the expression at the beginning. -/
def expression (ts : Tokens) : Except Fault Tokens :=
  expressionWithin (8 * totalWeight ts + 8) ts

end Grammar

end Embedded
end TrackedExpr
