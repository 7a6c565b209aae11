import TrackedExpr.Decimal

/-!
# Values of expressions

Scalars and tuples are plain data.  Objects and native functions are references:
they are equal when they are the same thing, never because they look alike.

**Definitions.**
* `ObjectRef`, `NativeRef`: references, with what they show of the thing;
* `Builtin`: the functions that every expression can name;
* `Value`, `Kwargs`;
* `Value.same`: the equality that expressions observe.
-/

namespace TrackedExpr

/-- A reference to an object: its identity, its address (which another object may take over once
nothing refers to this one), the name it was made under, and its type. -/
structure ObjectRef where
  id : Nat
  address : Nat
  label : String
  typeName : String
deriving DecidableEq, Repr

/-- A reference to a native function: its identity and its display name. -/
structure NativeRef where
  id : Nat
  name : String
deriving DecidableEq, Repr

/-- The functions that an expression can name without binding them. -/
inductive Builtin
  | getattr
  | len
  | str
  | abs
deriving DecidableEq, Repr

/-- A value of the expression language. -/
inductive Value
  | none
  | bool (b : Bool)
  | int (i : Int64)
  | float (x : Float)
  | str (s : String)
  | tuple (items : List Value)
  | object (ref : ObjectRef)
  | builtin (b : Builtin)
  | native (ref : NativeRef)

instance : Inhabited Value := ⟨.none⟩

/-- Keyword arguments in call order, duplicates kept. -/
abbrev Kwargs := List (String × Value)

/-- The float nearest to an integer. -/
def floatOfInt (i : Int64) : Float := Float.ofInt i.toInt

namespace Builtin

/-- All builtins. -/
def all : List Builtin := [.getattr, .len, .str, .abs]

/-- The name of a builtin. -/
def name : Builtin → String
  | .getattr => "getattr"
  | .len => "len"
  | .str => "str"
  | .abs => "abs"

/-- The builtin with a given name. -/
def ofName? (name : String) : Option Builtin :=
  all.find? fun b => b.name = name

end Builtin

namespace Value

/-- The type name used in messages. -/
def typeName : Value → String
  | .none => "NoneType"
  | .bool _ => "bool"
  | .int _ => "int"
  | .float _ => "float"
  | .str _ => "str"
  | .tuple _ => "tuple"
  | .object ref => ref.typeName
  | .builtin _ => "builtin_function"
  | .native _ => "native_function"

/-- What a conditional jump and negation test. -/
def isTruthy : Value → Bool
  | .none => false
  | .bool b => b
  | .int i => i != 0
  | .float x => !(x == 0.0)
  | .str s => !s.isEmpty
  | .tuple items => !items.isEmpty
  | .object _ | .builtin _ | .native _ => true

/-- The text of a string. -/
def asStr? : Value → Option String
  | .str s => some s
  | _ => Option.none

/-- The items of a tuple. -/
def asTuple? : Value → Option (List Value)
  | .tuple items => some items
  | _ => Option.none

/-- The object of a reference. -/
def asObject? : Value → Option ObjectRef
  | .object ref => some ref
  | _ => Option.none

mutual

/-- The equality that expressions observe.  An integer equals the float nearest to it;
references are equal when they name the same thing. -/
def same : Value → Value → Bool
  | .none, .none => true
  | .bool a, .bool b => a == b
  | .int a, .int b => a == b
  | .float a, .float b => a == b
  | .int a, .float b => floatOfInt a == b
  | .float a, .int b => floatOfInt b == a
  | .str a, .str b => a == b
  | .tuple as, .tuple bs => sameItems as bs
  | .object a, .object b => a.id == b.id
  | .builtin a, .builtin b => a == b
  | .native a, .native b => a.id == b.id
  | _, _ => false

/-- Equality of tuples, item by item. -/
def sameItems : List Value → List Value → Bool
  | [], [] => true
  | a :: as, b :: bs => same a b && sameItems as bs
  | _, _ => false

end

mutual

/-- The objects that a value refers to. -/
def objects : Value → List ObjectRef
  | .object ref => [ref]
  | .tuple items => itemObjects items
  | _ => []

/-- The objects that the items of a tuple refer to. -/
def itemObjects : List Value → List ObjectRef
  | [] => []
  | v :: vs => objects v ++ itemObjects vs

end

end Value
end TrackedExpr
