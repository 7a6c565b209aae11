import TrackedExpr.Decimal
import TrackedExpr.Text.Identifier
import TrackedExpr.Text.Quoted

/-!
# Numerals of the host language

A numeral is an integer in one of four radixes or a decimal fraction, with
underscores between the digits and a name as its suffix.

**Definitions.**
* `afterName?`, `afterSuffix`, `wordBreak?`: names at the beginning of a text;
* `afterFloat?`, `afterInteger?`: the text behind a numeral;
* `Numeral`, `numeral?`: what a numeral means.
-/

namespace TrackedExpr
namespace Embedded

section Names

/-- The text behind the name at its beginning. -/
def afterName? : List Char → Option (List Char)
  | [] => none
  | c :: rest => if Text.startsName c then some (rest.dropWhile Text.continuesName) else none

/-- The text behind a suffix, if there is one. -/
def afterSuffix (cs : List Char) : List Char := (afterName? cs).getD cs

/-- Refuses a text that begins with a character of a name. -/
def wordBreak? : List Char → Option (List Char)
  | [] => some []
  | c :: rest => if Text.continuesName c then none else some (c :: rest)

/-- Whether a text is empty or a name. -/
def isSuffix : List Char → Bool
  | [] => true
  | c :: rest => Text.startsName c && rest.all Text.continuesName

end Names

section Extent

/-- The text behind digits, underscores and at most one point, and whether there was a point.
A point in front of a name or another point is none. -/
def afterMantissa? (point : Bool) : List Char → Option (Bool × List Char)
  | [] => some (point, [])
  | c :: rest =>
      if c.isDigit || c = '_' then afterMantissa? point rest
      else if c = '.' && !point then
        match rest with
        | [] => some (true, [])
        | d :: _ => if d = '.' || Text.startsName d then none else afterMantissa? true rest
      else some (point, c :: rest)

/-- The text behind the sign and digits of an exponent. -/
def afterExponent? (sign digits : Bool) : List Char → Option (List Char)
  | [] => if digits then some [] else none
  | c :: rest =>
      if (c = '+' || c = '-') && !digits then
        if sign then none else afterExponent? true digits rest
      else if c.isDigit then afterExponent? sign true rest
      else if c = '_' then afterExponent? sign digits rest
      else if digits then some (c :: rest)
      else none

/-- The text behind a fraction: digits with a point, an exponent or both. -/
def afterFraction? : List Char → Option (List Char)
  | [] => none
  | c :: rest =>
      if !c.isDigit then none
      else
        match afterMantissa? false rest with
        | none => none
        | some (point, []) => if point then some [] else none
        | some (point, e :: tail) =>
            if e = 'e' || e = 'E' then
              match afterExponent? false false tail with
              | some after => some after
              | none => if point then some (e :: tail) else none
            else if point then some (e :: tail)
            else none

/-- The text behind a fraction and its suffix. -/
def afterFloat? (cs : List Char) : Option (List Char) :=
  (afterFraction? cs).bind fun rest => wordBreak? (afterSuffix rest)

/-- The radix of an integer, and its digits. -/
def radix : List Char → Nat × List Char
  | '0' :: 'x' :: rest => (16, rest)
  | '0' :: 'o' :: rest => (8, rest)
  | '0' :: 'b' :: rest => (2, rest)
  | cs => (10, cs)

/-- The text behind digits and underscores; a decimal number begins with a digit. -/
def afterDigits? (base : Nat) (seen : Bool) : List Char → Option (List Char)
  | [] => if seen then some [] else none
  | c :: rest =>
      if c = '_' then
        if !seen && base = 10 then none else afterDigits? base seen rest
      else
        match Text.hexDigit? c with
        | some d =>
            if d < base then afterDigits? base true rest
            else if c.isDigit || !seen then none
            else some (c :: rest)
        | none => if seen then some (c :: rest) else none

/-- The text behind an integer and its suffix. -/
def afterInteger? (cs : List Char) : Option (List Char) :=
  let (base, digits) := radix cs
  (afterDigits? base false digits).bind fun rest => wordBreak? (afterSuffix rest)

end Extent

section Meaning

inductive Numeral
  | int (n : Nat)
  /-- the digits of a fraction, with point and exponent -/
  | float (digits : List Char)

/-- Whether what follows an `e` is an exponent rather than the rest of a suffix. -/
def isExponent (digits : Bool) : List Char → Bool
  | [] => digits
  | c :: rest =>
      if c = '_' then isExponent digits rest
      else if c = '-' || c = '+' then true
      else if c.isDigit then isExponent true rest
      else digits && isSuffix (c :: rest)

/-- The value of a digit; letters are digits beyond radix ten only. -/
def digitOf? (base : Nat) (c : Char) : Option Nat :=
  if c.isDigit || base > 10 then Text.hexDigit? c else none

/-- The value of the digits of an integer; nothing for a fraction. -/
def integer? (base : Nat) (seen : Bool) (n : Nat) : List Char → Option Nat
  | [] => if seen then some n else none
  | c :: rest =>
      if c = '_' then integer? base seen n rest
      else if base = 10 && c = '.' then none
      else if base = 10 && (c = 'e' || c = 'E') && isExponent false rest then none
      else
        match digitOf? base c with
        | some d => if d < base then integer? base true (base * n + d) rest else none
        | none => if seen && isSuffix (c :: rest) then some n else none

/-- Whether a text goes on with a sign or a digit, underscores aside. -/
def leadsExponent (cs : List Char) : Bool :=
  match cs.dropWhile (· = '_') with
  | c :: _ => c = '-' || c = '+' || c.isDigit
  | [] => false

/-- The digits of a fraction without underscores, plus signs and suffix.  The flags say what came
before: a point, an `e`, the sign of an exponent, its digits. -/
def fractionDigits? (point e sign power : Bool) : List Char → Option (List Char)
  | [] => if e && !power then none else some []
  | c :: rest =>
      if c = '_' then fractionDigits? point e sign power rest
      else if c.isDigit then (fractionDigits? point e sign (power || e) rest).map (c :: ·)
      else if c = '.' then
        if e || point then none else (fractionDigits? true e sign power rest).map (c :: ·)
      else if (c = 'e' || c = 'E') && leadsExponent rest && !(e && power) then
        if e then none else (fractionDigits? point true sign power rest).map ('e' :: ·)
      else if c = '-' || c = '+' then
        if sign || power || !e then none
        else
          let digits := fractionDigits? point e true power rest
          if c = '-' then digits.map (c :: ·) else digits
      else if (e && !power) || !isSuffix (c :: rest) then none
      else some []

def numeral? (cs : List Char) : Option Numeral :=
  let (base, digits) := radix cs
  match integer? base false 0 digits with
  | some n => some (.int n)
  | none => (fractionDigits? false false false false cs).map Numeral.float

def floatOfDigits (digits : List Char) : Float :=
  match Decimal.ofChars? digits with
  | some d => d.toFloat
  | none => 0

end Meaning

end Embedded
end TrackedExpr
