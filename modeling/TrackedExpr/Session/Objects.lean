import TrackedExpr.Session.Notification
import TrackedExpr.Session.Reference

/-!
# Commands on objects, native functions and names

**Definitions.**
* `makeObject`, `makeNative`, `bindName`: making things;
* `setAttr`, `getAttr`, `describeAttr`, `emitChange`: working with objects;
* `livesOf`: which objects made under a name still exist;
* `debugText`: things as text;
* `behave`: what a native function answers.
-/

namespace TrackedExpr
namespace Session

section Making

/-- The type name and the kind of an object to be made. -/
def kindOf (w : Session) : ObjectForm Command → Except Fault (String × ObjectKind)
  | .model name => (named w.names.schemas name).map fun s => (s.typeName, .model s)
  | .record typeName => .ok (typeName, .record)
  | .source typeName described onObserve =>
      .ok (typeName, .source (Assoc.ofList described) onObserve)

/-- Makes an object and names it. -/
def makeObject (name : String) (draft : ObjectDraft Command) (w : Session) : Attempt := do
  let (typeName, kind) ← w.kindOf draft.form
  let attrs ← w.entries draft.attrs
  let (w, ref) := w.addObject name typeName kind (Assoc.ofList attrs)
  return (w.rename fun n => { n with objects := Assoc.put name ref n.objects }, .nothing)

/-- Makes a native function and names it. -/
def makeNative (name : String) (draft : NativeDraft Command) (w : Session) : Session × Reply :=
  let (w, ref) := w.addNative name (.host draft)
  (w.rename fun n => { n with natives := Assoc.put name ref n.natives }, .nothing)

def bindName (name : String) (value : Literal) (w : Session) : Attempt := do
  let v ← w.literal value
  return ({ w with scope := Assoc.put name v w.scope }, .nothing)

end Making

section Attributes

def setAttr (re : Reentry) (id attr : String) (value : Literal) (w : Session) : Attempt := do
  let o ← named w.names.objects id
  match w.schema? o with
  | none => .error (.badInput id)
  | some schema =>
      let v ← w.literal value
      match w.holding (pinValues [.object o, v]) (assign re o schema attr v) with
      | (w, .ok ()) => return (w, .nothing)
      | (_, .error e) => .error (.assignment e)

def getAttr (id attr : String) (w : Session) : Attempt := do
  let o ← named w.names.objects id
  return (w, .attribute (w.attribute? o attr))

/-- What an object and its schema declare of an attribute. -/
def describeAttr (id attr : String) (w : Session) : Attempt := do
  let o ← named w.names.objects id
  let schema := (w.schema? o).map fun s => (s.typeName, s.describe attr)
  return (w, .description o.typeName (w.declared? o attr) schema)

/-- The object with a name, if it is a source. -/
def sourceNamed (w : Session) (id : String) : Except Fault ObjectRef := do
  let o ← named w.names.objects id
  match w.object? o with
  | some ⟨_, .source _ _, _, _⟩ => .ok o
  | _ => .error (.noSuch id)

/-- Reports a change to the observers of a source. -/
def emitChange (re : Reentry) (id attr : String) (old new : Literal) (w : Session) : Attempt := do
  let o ← w.sourceNamed id
  let old ← w.literal old
  let new ← w.literal new
  return (w.dispatch re (.object o.id) ⟨o, attr, old, new⟩, .nothing)

/-- For each object ever made under a name, whether it exists. -/
def livesOf (id : String) (w : Session) : List Bool :=
  (w.objects.filter fun cell => cell.ref.label = id).map fun cell => w.objectAlive cell.ref

end Attributes

section Text

/-- Text in double quotes. -/
def quoted (s : String) : String := String.ofList (Text.quote s.toList)

def modelText (w : Session) (schema : Schema) (cell : ObjectCell) : String :=
  let values := cell.attrs.map fun e => (quoted e.1 ++ ": " ++ e.2.debug).toList
  "Model \x7b type_name: " ++ quoted schema.typeName ++ ", values: \x7b"
    ++ String.ofList (joinChars [',', ' '] values) ++ "\x7d, observers: "
    ++ Observers.debug (fun s => w.subscriptionHeld s) cell.observers ++ " \x7d"

def debugText (w : Session) : DebugDraft → Except Fault String
  | .model name => do
      let o ← named w.names.objects name
      match w.object? o with
      | some cell =>
          match cell.kind with
          | .model schema => .ok (w.modelText schema cell)
          | _ => .error (.noSuch name)
      | none => .error (.noSuch name)
  | .native name => do
      let f ← named w.names.natives name
      return "NativeFunction \x7b name: " ++ quoted f.name ++ ", .. \x7d"
  | .subscription name =>
      match Assoc.get? name w.names.subscriptions with
      | some _ => .ok "Some(Subscription \x7b .. \x7d)"
      | none => .ok "None"
  | .change draft => (w.changeOf draft).map Change.debug

end Text

section Behaviors

/-- A keyword argument as a pair. -/
def keywordTuple (e : String × Value) : Value := .tuple [.str e.1, e.2]

/-- What a value adds to a sum. -/
def summand : Value → Int64
  | .int i => i
  | .bool true => 1
  | _ => 0

/-- The sum of values in machine words. -/
def sumOf (vs : List Value) : Int64 := vs.foldl (fun s v => s + summand v) 0

/-- A type error in the words of a native function. -/
def refuse (text : String) : Outcome := .error (.type (.reported text))

/-- Sets an attribute of a model that has a name. -/
def setFromCall (re : Reentry) (o : ObjectRef) (attr : String) (value : Value) (w : Session) :
    Session × Outcome :=
  match w.schema? o with
  | none => (w, refuse "set: not a live model")
  | some schema =>
      if w.names.objects.any fun e => e.2.id = o.id then
        match w.assign re o schema attr value with
        | (w, .ok ()) => (w, .ok .none)
        | (w, .error e) => (w, refuse e.message)
      else (w, refuse "set: not a live model")

/-- What a native function answers. -/
def behave (re : Reentry) (behavior : Behavior) (args : List Value) (kwargs : Kwargs)
    (w : Session) : Session × Outcome :=
  match behavior with
  | .describe => (w, .ok (.tuple (args ++ kwargs.map keywordTuple)))
  | .sum => (w, .ok (.int (sumOf (args ++ kwargs.map Prod.snd))))
  | .first => (w, .ok (args.headD .none))
  | .const l =>
      match w.literal l with
      | .ok v => (w, .ok v)
      | .error f => (w, refuse f.message)
  | .set =>
      match args with
      | [.object o, .str attr, value] => w.setFromCall re o attr value
      | _ => (w, refuse "set: bad arguments")
  | .fail e => (w, .error e)

end Behaviors

end Session
end TrackedExpr
