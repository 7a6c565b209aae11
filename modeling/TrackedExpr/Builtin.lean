import TrackedExpr.Value.Arithmetic

/-!
# Builtin functions

`getattr`, `len`, `str` and `abs`.  Attributes are read through a function from
object and name, so that one definition serves every heap.

**Definitions.**
* `AttributeReader`, `loadAttr`: reading an attribute of a value;
* `getattrRequest`: what a call of `getattr` looks up;
* `Builtin.call`.
-/

namespace TrackedExpr

/-- How attributes of objects are read. -/
abbrev AttributeReader := ObjectRef → String → Option Value

/-- The attribute of a value.  Only objects have attributes. -/
def loadAttr (read : AttributeReader) (target : Value) (attr : String) :
    Except EvalError Value :=
  let found := match target with
    | .object ref => read ref attr
    | _ => none
  match found with
  | some v => .ok v
  | none => .error (.noAttribute target.typeName attr)

/-- What a call of `getattr` looks up: object, attribute name and default. -/
def getattrRequest : List Value → Except EvalError (Value × String × Option Value)
  | [target, .str name] => .ok (target, name, none)
  | [target, .str name, default] => .ok (target, name, some default)
  | [_, _] | [_, _, _] => .error (.type .attributeNameNotText)
  | args => .error (.type (.getattrCount args.length))

/-- Attribute lookup by name; a default stands in for a missing attribute. -/
def getattr (read : AttributeReader) (args : List Value) : Except EvalError Value :=
  match getattrRequest args with
  | .error e => .error e
  | .ok (target, name, default) =>
      match loadAttr read target name, default with
      | .error (.noAttribute _ _), some v => .ok v
      | result, _ => result

/-- The length of a string, in characters, or of a tuple. -/
def Value.length : Value → Except EvalError Value
  | .str s => .ok (.int (Int64.ofNat s.length))
  | .tuple items => .ok (.int (Int64.ofNat items.length))
  | v => .error (.type (.noLength v.typeName))

/-- The text of a value; a string is its own text. -/
def Value.text : Value → Value
  | .str s => .str s
  | v => .str v.display

/-- Calls a builtin.  Keywords are refused before anything else is looked at. -/
def Builtin.call (read : AttributeReader) (b : Builtin) (args : List Value) (kwargs : Kwargs) :
    Except EvalError Value :=
  if !kwargs.isEmpty then .error (.type (.keywordsRefused b.name))
  else
    match b, args with
    | .getattr, args => TrackedExpr.getattr read args
    | .len, [v] => v.length
    | .str, [v] => .ok v.text
    | .abs, [v] => v.absolute
    | b, args => .error (.type (.argumentCount b.name 1 args.length))

end TrackedExpr
