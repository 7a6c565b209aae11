/-!
# Decimal text of floating-point numbers

A finite non-zero float is `m * 2 ^ q` exactly.  This module selects the decimal
with the fewest digits that reads back to the float (of two such decimals the
nearer, and the upper one on an exact tie), and reads decimals.

**Definitions.**
* `Decimal.toFloat`: the float nearest to a decimal;
* `Decimal.shortest`: the digits written for a positive finite float;
* `Decimal.ofChars?`: the grammar of decimal text;
* `FloatText.Layout`: how selected digits are laid out, with the two layouts
  `FloatText.literal` (constants of a listing) and `FloatText.plain`.
-/

namespace TrackedExpr

/-- The number `digits * 10 ^ exponent`. -/
structure Decimal where
  digits : Nat
  exponent : Int
deriving DecidableEq, Repr

namespace Decimal

/-- The float nearest to a decimal, ties to even.  A decimal that is beyond every finite float, or
nearer to zero than any other float, is recognised by its magnitude. -/
def toFloat (d : Decimal) : Float :=
  let leading : Int := d.exponent + (Nat.toDigits 10 d.digits).length
  if d.digits = 0 ∨ leading < -400 then Float.ofBits 0
  else if 400 < leading then Float.ofBits 0x7FF0000000000000
  else Float.ofScientific d.digits (d.exponent < 0) d.exponent.natAbs

section Selection

/-- Mantissa and binary exponent of the bits of a finite float: its magnitude is `m * 2 ^ q`. -/
def binaryParts (bits : UInt64) : Nat × Int :=
  let biased := ((bits >>> 52) &&& 0x7FF).toNat
  let fraction := (bits &&& 0xFFFFFFFFFFFFF).toNat
  if biased = 0 then (fraction, -1074) else (0x10000000000000 + fraction, (biased : Int) - 1075)

/-- Numerator and denominator of `m * 2 ^ q`. -/
def ratio (m : Nat) (q : Int) : Nat × Nat :=
  (m <<< q.toNat, 1 <<< (-q).toNat)

/-- The least `k` with `num / den < 10 ^ k`, for a positive quotient of at least `10 ^ -400`. -/
def magnitude (num den : Nat) : Int :=
  if den ≤ num then ((Nat.toDigits 10 (num / den)).length : Int)
  else -(((List.range 400).takeWhile fun j => num * Nat.pow 10 (j + 1) < den).length : Int)

/-- Trailing zeros of the digits move into the exponent. -/
def stripZeros : Nat → Decimal → Decimal
  | 0, d => d
  | fuel + 1, d =>
      if d.digits ≠ 0 ∧ d.digits % 10 = 0 then
        stripZeros fuel ⟨d.digits / 10, d.exponent + 1⟩
      else d

/-- On the grid of multiples of `10 ^ g`, the neighbour of `num / den` that reads back
to `x`: the nearer one if both do, the upper one on a tie. -/
def onGrid? (x : Float) (num den : Nat) (g : Int) : Option Decimal :=
  let scaledNum := num * Nat.pow 10 (-g).toNat
  let scaledDen := den * Nat.pow 10 g.toNat
  let below : Decimal := ⟨scaledNum / scaledDen, g⟩
  let above : Decimal := ⟨scaledNum / scaledDen + 1, g⟩
  let nearer : Bool := 2 * scaledNum < (2 * (scaledNum / scaledDen) + 1) * scaledDen
  if below.toFloat = x then
    if above.toFloat = x ∧ ¬ nearer then some above else some below
  else if above.toFloat = x then some above
  else none

/-- The exact decimal value of `m * 2 ^ q`. -/
def exact (m : Nat) (q : Int) : Decimal :=
  if 0 ≤ q then ⟨m <<< q.toNat, 0⟩ else ⟨m * Nat.pow 5 (-q).toNat, q⟩

/-- The decimal with the fewest digits that reads back to the positive finite float `x`. -/
def shortest (x : Float) : Decimal :=
  let (m, q) := binaryParts x.toBits
  let (num, den) := ratio m q
  let k := magnitude num den
  let found := (List.range 17).findSome? fun (n : Nat) => onGrid? x num den (k - (n + 1))
  stripZeros 400 (found.getD (exact m q))

end Selection

section Reading

/-- Splits off the longest run of decimal digits. -/
def takeDigits (cs : List Char) : List Char × List Char :=
  (cs.takeWhile Char.isDigit, cs.dropWhile Char.isDigit)

/-- The exponent part of decimal text: nothing, or `e` with an optional sign and digits. -/
def exponent? : List Char → Option Int
  | [] => some 0
  | e :: rest =>
      if e = 'e' ∨ e = 'E' then
        let (negative, body) := match rest with
          | '-' :: r => (true, r)
          | '+' :: r => (false, r)
          | r => (false, r)
        let (ds, after) := takeDigits body
        if ds.isEmpty || !after.isEmpty then none
        else
          let n : Int := Nat.ofDigitChars 10 ds 0
          some (if negative then -n else n)
      else none

/-- Reads unsigned decimal text: digits with an optional point (at least one digit) and an
optional exponent. -/
def ofChars? (cs : List Char) : Option Decimal :=
  let (whole, rest) := takeDigits cs
  let (fraction, rest) := match rest with
    | '.' :: r => takeDigits r
    | r => ([], r)
  if whole.isEmpty && fraction.isEmpty then none
  else
    (exponent? rest).map fun e =>
      ⟨Nat.ofDigitChars 10 (whole ++ fraction) 0, e - fraction.length⟩

end Reading

end Decimal

namespace FloatText

def infinity : Float := Float.ofBits 0x7FF0000000000000

def notANumber : Float := Float.ofBits 0x7FF8000000000000

/-- Whether the sign of a float is negative (also that of `-0.0`). -/
def signBit (x : Float) : Bool := x.toBits >>> 63 = 1

def size (x : Float) : Float := Float.ofBits (x.toBits &&& 0x7FFFFFFFFFFFFFFF)

/-- How the digits of a float are laid out. -/
structure Layout where
  /-- exponents of the leading digit that are written positionally -/
  positional : Int → Bool
  /-- whether an integral value written positionally ends in `.0` -/
  pointZero : Bool

/-- Constants of a listing: positional from `1e-4` to below `1e16`, always with a point or an
exponent. -/
def literal : Layout where
  positional := fun e => -5 < e && e < 16
  pointZero := true

/-- Always positional, integral values without a point. -/
def plain : Layout where
  positional := fun _ => true
  pointZero := false

namespace Layout

/-- Lays out a positive decimal whose digits end in no zero. -/
def place (layout : Layout) (d : Decimal) : List Char :=
  let ds := Nat.toDigits 10 d.digits
  let leading : Int := d.exponent + ds.length - 1
  if layout.positional leading then
    if 0 ≤ d.exponent then
      ds ++ List.replicate d.exponent.toNat '0' ++ (if layout.pointZero then ['.', '0'] else [])
    else if 0 ≤ leading then
      ds.take (leading.toNat + 1) ++ '.' :: ds.drop (leading.toNat + 1)
    else
      '0' :: '.' :: (List.replicate (-leading - 1).toNat '0' ++ ds)
  else
    let point := match ds with
      | [] => []
      | [d] => [d]
      | d :: more => d :: '.' :: more
    let power := Nat.toDigits 10 leading.natAbs
    point ++ 'e' :: (if leading < 0 then '-' :: power else power)

def chars (layout : Layout) (x : Float) : List Char :=
  if x.isNaN then ['N', 'a', 'N']
  else
    let sign := if signBit x then ['-'] else []
    let x := size x
    if x = infinity then sign ++ ['i', 'n', 'f']
    else if x.toBits = 0 then
      sign ++ (if layout.pointZero then ['0', '.', '0'] else ['0'])
    else sign ++ layout.place (Decimal.shortest x)

end Layout

/-- Reads a float: an optional sign, then `inf`, `infinity` or `nan` in any case, or decimal
text. -/
def ofChars? (cs : List Char) : Option Float :=
  let (negative, body) := match cs with
    | '-' :: r => (true, r)
    | '+' :: r => (false, r)
    | r => (false, r)
  let word := String.ofList (body.map Char.toLower)
  let value : Option Float :=
    if word = "inf" ∨ word = "infinity" then some infinity
    else if word = "nan" then some notANumber
    else (Decimal.ofChars? body).map Decimal.toFloat
  value.map fun x => if negative then -x else x

end FloatText

end TrackedExpr
