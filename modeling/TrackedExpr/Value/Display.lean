import TrackedExpr.Value.Basic
import TrackedExpr.Text.Quoted

/-!
# Text of values

**Definitions.**
* `Value.chars`: the literal text of a value, as a listing and the `str` builtin write it;
* `Value.debugChars`: the text that names the kind of every part.
-/

namespace TrackedExpr

/-- Decimal text of a natural number. -/
def natChars (n : Nat) : List Char := Nat.toDigits 10 n

/-- Decimal text of an integer. -/
def intChars (i : Int) : List Char :=
  if i < 0 then '-' :: natChars i.natAbs else natChars i.natAbs

/-- Puts a separator between texts. -/
def joinChars (separator : List Char) : List (List Char) → List Char
  | [] => []
  | [t] => t
  | t :: ts => t ++ separator ++ joinChars separator ts

/-- The constant text of a float. -/
def floatChars (x : Float) : List Char := FloatText.literal.chars x

namespace Value

mutual

/-- The literal text of a value; a tuple of one item keeps its comma. -/
def chars : Value → List Char
  | .none => "None".toList
  | .bool true => "True".toList
  | .bool false => "False".toList
  | .int i => intChars i.toInt
  | .float x => floatChars x
  | .str s => Text.quote s.toList
  | .tuple [item] => '(' :: (chars item ++ [',', ')'])
  | .tuple items => '(' :: (joinChars [',', ' '] (itemChars items) ++ [')'])
  | .object ref => '<' :: (ref.typeName.toList ++ " object>".toList)
  | .builtin b => "<builtin ".toList ++ b.name.toList ++ ['>']
  | .native ref => "<native ".toList ++ ref.name.toList ++ ['>']

/-- The literal texts of the items of a tuple. -/
def itemChars : List Value → List (List Char)
  | [] => []
  | v :: vs => chars v :: itemChars vs

end

theorem chars_int (i : Int64) : (int i).chars = intChars i.toInt := rfl

theorem chars_float (x : Float) : (float x).chars = floatChars x := rfl

theorem chars_str (s : String) : (str s).chars = Text.quote s.toList := rfl

mutual

/-- The text of a value with the kind of every part. -/
def debugChars : Value → List Char
  | .none => "None".toList
  | .bool b => "Bool(".toList ++ (if b then "true" else "false").toList ++ [')']
  | .int i => "Int(".toList ++ intChars i.toInt ++ [')']
  | .float x => "Float(".toList ++ floatChars x ++ [')']
  | .str s => "Str(".toList ++ Text.quote s.toList ++ [')']
  | .tuple items =>
      "Tuple([".toList ++ joinChars [',', ' '] (debugItems items) ++ [']', ')']
  | .object ref => "Object(<".toList ++ ref.typeName.toList ++ ['>', ')']
  | .builtin b => "Builtin(".toList ++ b.name.toList ++ [')']
  | .native ref => "Native(".toList ++ ref.name.toList ++ [')']

/-- The texts of the items of a tuple, with their kinds. -/
def debugItems : List Value → List (List Char)
  | [] => []
  | v :: vs => debugChars v :: debugItems vs

end

/-- The literal text of a value. -/
def display (v : Value) : String := String.ofList v.chars

/-- The text of a value with the kind of every part. -/
def debug (v : Value) : String := String.ofList v.debugChars

end Value
end TrackedExpr
