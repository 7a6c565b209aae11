/-!
# Tokens of a listing

A listing is a sequence of tokens.  Blanks, and comments from `#` to the end of
the line, separate tokens and mean nothing.  Where several classes match, the
longest match is the token.

**Definitions.**
* `TokenKind`, `Lexeme`;
* `Listing.matchLength`: the longest match of a class at the beginning of a text;
* `Listing.longest?`: the token at the beginning of a text;
* `Listing.scan`: the tokens of a text, up to the first place where none begins.
-/

namespace TrackedExpr

/-- The classes of tokens. -/
inductive TokenKind
  | hex
  | float
  | int
  | negInf
  | str
  | word
  | colon
deriving DecidableEq, Repr

namespace TokenKind

def all : List TokenKind := [.hex, .float, .int, .negInf, .str, .word, .colon]

def name : TokenKind → String
  | .hex => "Hex"
  | .float => "Float"
  | .int => "Int"
  | .negInf => "NegInf"
  | .str => "Str"
  | .word => "Word"
  | .colon => "Colon"

end TokenKind

/-- A token with its text and the byte at which it begins. -/
structure Lexeme where
  kind : TokenKind
  text : List Char
  start : Nat
deriving DecidableEq, Repr

/-- The length of a text in bytes. -/
def byteLength (cs : List Char) : Nat := cs.foldl (fun n c => n + c.utf8Size) 0

/-- The byte after a token. -/
def Lexeme.stop (t : Lexeme) : Nat := t.start + byteLength t.text

namespace Listing

section Classes

/-- Characters between tokens. -/
def isBlank (c : Char) : Bool :=
  c = ' ' || c = '\t' || c = '\r' || c = '\n' || c = '\x0c'

/-- Characters that begin a word. -/
def startsWord (c : Char) : Bool := c.isAlpha || c = '_'

/-- Characters that continue a word. -/
def continuesWord (c : Char) : Bool := c.isAlphanum || c = '_'

def isHexDigit (c : Char) : Bool :=
  c.isDigit || ('a' ≤ c && c ≤ 'f') || ('A' ≤ c && c ≤ 'F')

/-- The length of the longest run of digits. -/
def digitRun (cs : List Char) : Nat := (cs.takeWhile Char.isDigit).length

/-- The length of a minus sign, if there is one. -/
def signLength : List Char → Nat
  | '-' :: _ => 1
  | _ => 0

/-- The length of an exponent sign, if there is one. -/
def exponentSignLength : List Char → Nat
  | '-' :: _ => 1
  | '+' :: _ => 1
  | _ => 0

/-- The length of an exponent, zero if there is none. -/
def exponentLength : List Char → Nat
  | [] => 0
  | c :: rest =>
      if c = 'e' ∨ c = 'E' then
        let sign := exponentSignLength rest
        let digits := digitRun (rest.drop sign)
        if digits = 0 then 0 else 1 + sign + digits
      else 0

/-- The length of a fraction with its point, zero if there is none. -/
def fractionLength : List Char → Nat
  | '.' :: rest => if digitRun rest = 0 then 0 else 1 + digitRun rest
  | _ => 0

/-- The length of an integer, zero if there is none. -/
def intLength (cs : List Char) : Nat :=
  let sign := signLength cs
  let digits := digitRun (cs.drop sign)
  if digits = 0 then 0 else sign + digits

/-- The length of a float, zero if there is none: an integer with a fraction, an exponent or
both. -/
def floatLength (cs : List Char) : Nat :=
  let whole := intLength cs
  if whole = 0 then 0
  else
    let fraction := fractionLength (cs.drop whole)
    let exponent := exponentLength (cs.drop (whole + fraction))
    if fraction + exponent = 0 then 0 else whole + fraction + exponent

/-- The length of a hexadecimal number, zero if there is none. -/
def hexLength : List Char → Nat
  | '0' :: 'x' :: rest =>
      let digits := (rest.takeWhile isHexDigit).length
      if digits = 0 then 0 else 2 + digits
  | _ => 0

/-- The length of a quoted text after its opening quote, with the closing quote; zero if it is
not closed.  A backslash takes the next character with it, which must not end the line. -/
def quotedLength : List Char → Nat
  | [] => 0
  | '"' :: _ => 1
  | '\\' :: [] => 0
  | '\\' :: c :: rest =>
      if c = '\n' then 0
      else
        match quotedLength rest with
        | 0 => 0
        | n => n + 2
  | _ :: rest =>
      match quotedLength rest with
      | 0 => 0
      | n => n + 1

/-- The length of a quoted text, zero if there is none. -/
def strLength : List Char → Nat
  | '"' :: rest =>
      match quotedLength rest with
      | 0 => 0
      | n => n + 1
  | _ => 0

/-- The length of a word, zero if there is none. -/
def wordLength : List Char → Nat
  | c :: rest => if startsWord c then 1 + (rest.takeWhile continuesWord).length else 0
  | [] => 0

/-- The length of the longest match of a class, zero if there is none. -/
def matchLength (cs : List Char) : TokenKind → Nat
  | .hex => hexLength cs
  | .float => floatLength cs
  | .int => intLength cs
  | .negInf => if ['-', 'i', 'n', 'f'].isPrefixOf cs then 4 else 0
  | .str => strLength cs
  | .word => wordLength cs
  | .colon => if [':'].isPrefixOf cs then 1 else 0

end Classes

section Scanning

/-- The longer of two matches, the first of two equal ones. -/
def longer (a b : TokenKind × Nat) : TokenKind × Nat := if a.2 < b.2 then b else a

/-- The token at the beginning of a text: its class and length. -/
def longest? (cs : List Char) : Option (TokenKind × Nat) :=
  let best := (TokenKind.all.map fun k => (k, matchLength cs k)).foldl longer (.hex, 0)
  if best.2 = 0 then none else some best

/-- The tokens of a text that begins at the byte `start`, and the byte of the first place where
no token begins, if there is such a place. -/
def scan (start : Nat) : List Char → List Lexeme × Option Nat
  | [] => ([], none)
  | c :: rest =>
      if isBlank c then scan (start + c.utf8Size) rest
      else if c = '#' then
        scan (start + byteLength (c :: rest.takeWhile (· ≠ '\n'))) (rest.dropWhile (· ≠ '\n'))
      else
        match longest? (c :: rest) with
        | none => ([], some start)
        | some (kind, length) =>
            let text := c :: rest.take (length - 1)
            let (more, fault) := scan (start + byteLength text) (rest.drop (length - 1))
            (⟨kind, text, start⟩ :: more, fault)
termination_by cs => cs.length
decreasing_by
  all_goals
    have := (List.dropWhile_suffix (l := rest) (· ≠ '\n')).length_le
    simp only [List.length_cons, List.length_drop]
    omega

end Scanning

end Listing
end TrackedExpr
