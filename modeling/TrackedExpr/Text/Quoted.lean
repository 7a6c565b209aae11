import TrackedExpr.Text.Escaped

/-!
# Quoted text

A text is written between double quotes.  The quote and the backslash are
preceded by a backslash, four control characters have letters of their own, and
every other escaped character is written by its code point.

**Definitions.**
* `Text.quote`: the quoted form;
* `Text.unescape?`: reads what stands between the quotes.
-/

namespace TrackedExpr
namespace Text

section Writing

/-- A character by its code point in lower-case hexadecimal. -/
def codePoint (c : Char) : List Char :=
  '\\' :: 'u' :: '{' :: (Nat.toDigits 16 c.toNat ++ ['}'])

/-- The letter that names a character after a backslash, if it has one. -/
def escapeLetter? (c : Char) : Option Char :=
  if c = '\n' then some 'n'
  else if c = '\r' then some 'r'
  else if c = '\t' then some 't'
  else if c = '\x00' then some '0'
  else if c = '\\' then some '\\'
  else if c = '"' then some '"'
  else none

/-- One character of a quoted text. -/
def escape (c : Char) : List Char :=
  match escapeLetter? c with
  | some letter => ['\\', letter]
  | none => if isEscaped c then codePoint c else [c]

def quote (cs : List Char) : List Char :=
  '"' :: (cs.flatMap escape ++ ['"'])

end Writing

section Reading

def hexDigit? (c : Char) : Option Nat :=
  if '0' ≤ c ∧ c ≤ '9' then some (c.toNat - '0'.toNat)
  else if 'a' ≤ c ∧ c ≤ 'f' then some (c.toNat - 'a'.toNat + 10)
  else if 'A' ≤ c ∧ c ≤ 'F' then some (c.toNat - 'A'.toNat + 10)
  else none

/-- The value of a run of hexadecimal digits, continuing from `start`. -/
def hexDigits? : Nat → List Char → Option Nat
  | start, [] => some start
  | start, c :: rest =>
      match hexDigit? c with
      | some d => hexDigits? (16 * start + d) rest
      | none => none

/-- A hexadecimal number: at least one digit, after an optional plus sign. -/
def hexNumber? (cs : List Char) : Option Nat :=
  match cs with
  | [] => none
  | '+' :: [] => none
  | '+' :: ds => hexDigits? 0 ds
  | ds => hexDigits? 0 ds

/-- The character with a code point, if it is a scalar value. -/
def ofCodePoint? (n : Nat) : Option Char :=
  if n.isValidChar then some (Char.ofNat n) else none

/-- The character that a letter names after a backslash. -/
def ofEscapeLetter? (c : Char) : Option Char :=
  if c = 'n' then some '\n'
  else if c = 'r' then some '\r'
  else if c = 't' then some '\t'
  else if c = '0' then some '\x00'
  else if c = '\\' then some '\\'
  else if c = '"' then some '"'
  else if c = '\'' then some '\''
  else none

/-- Reads the inside of a quoted text.  The digits of a code point run up to the next closing
brace or to the end of the text. -/
def unescape? : List Char → Option (List Char)
  | [] => some []
  | '\\' :: [] => none
  | '\\' :: 'u' :: '{' :: rest =>
      match (hexNumber? (rest.takeWhile (· ≠ '}'))).bind ofCodePoint? with
      | some c => (unescape? ((rest.dropWhile (· ≠ '}')).drop 1)).map (c :: ·)
      | none => none
  | '\\' :: letter :: rest =>
      match ofEscapeLetter? letter with
      | some c => (unescape? rest).map (c :: ·)
      | none => none
  | c :: rest => (unescape? rest).map (c :: ·)
termination_by cs => cs.length
decreasing_by
  all_goals
    have := (List.dropWhile_suffix (l := rest) (· ≠ '}')).length_le
    simp only [List.length_cons, List.length_drop]
    omega

end Reading

end Text
end TrackedExpr
