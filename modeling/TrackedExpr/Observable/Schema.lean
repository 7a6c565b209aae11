import TrackedExpr.Assoc
import TrackedExpr.Value.Display

/-!
# Observable attributes

An object declares what it says about each of its attributes.  A schema declares
this for all models of one type.

**Definitions.**
* `AttrDescriptor`: what is declared about an attribute;
* `Schema`, `Schema.describe`, `Schema.accepts`;
* `Change`: one change of an attribute.
-/

namespace TrackedExpr

/-- What an object declares about one of its attributes. -/
inductive AttrDescriptor
  /-- declared, and changes are reported -/
  | observable
  /-- declared or reserved, but excluded from observation -/
  | notObservable
  /-- not declared at all -/
  | absent
deriving DecidableEq, Repr

def AttrDescriptor.name : AttrDescriptor → String
  | .observable => "Observable"
  | .notObservable => "NotObservable"
  | .absent => "Absent"

/-- Declarations shared by all models of a type: per attribute whether changes are reported, and
whether undeclared attributes are refused. -/
structure Schema where
  typeName : String
  declared : List (String × Bool)
  strict : Bool
deriving DecidableEq, Repr

namespace Schema

def empty (typeName : String) : Schema := ⟨typeName, [], false⟩

/-- Declares an attribute that reports changes. -/
def observable (s : Schema) (attr : String) : Schema :=
  { s with declared := Assoc.put attr true s.declared }

/-- Declares an attribute that never reports changes. -/
def unobservable (s : Schema) (attr : String) : Schema :=
  { s with declared := Assoc.put attr false s.declared }

def refuseUndeclared (s : Schema) : Schema := { s with strict := true }

/-- What a schema declares about an attribute. -/
def describe (s : Schema) (attr : String) : AttrDescriptor :=
  match Assoc.get? attr s.declared with
  | some true => .observable
  | some false => .notObservable
  | none => if s.strict then .notObservable else .absent

def accepts (s : Schema) (attr : String) : Bool :=
  !s.strict || (Assoc.get? attr s.declared).isSome

end Schema

/-- One change of an attribute, as observers see it. -/
structure Change where
  object : ObjectRef
  attr : String
  old : Value
  new : Value

namespace Change

def values (c : Change) : List Value := [.object c.object, c.old, c.new]

def debug (c : Change) : String :=
  "AttributeChange \x7b object: " ++ String.ofList (Text.quote c.object.typeName.toList)
    ++ ", name: " ++ String.ofList (Text.quote c.attr.toList) ++ ", old: " ++ c.old.debug
    ++ ", new: " ++ c.new.debug ++ " \x7d"

end Change

/-- Why an assignment is refused. -/
inductive ModelError
  | disallowed (typeName attr : String)
deriving DecidableEq, Repr

def ModelError.message : ModelError → String
  | .disallowed t a =>
      "'" ++ t ++ "' object has no attribute '" ++ a ++ "' and does not accept new ones"

end TrackedExpr
