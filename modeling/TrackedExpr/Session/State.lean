import TrackedExpr.Observable.Observers
import TrackedExpr.Session.Answer
import TrackedExpr.Tracking.Registry

/-!
# Sessions

A session holds every thing that was ever made, under its number, and the names by
which commands reach them.  Nothing is ever taken out of the numbered tables;
whether a thing still exists follows from what refers to it.

**Definitions.**
* `ObjectCell`, `NativeRole`, `Channel`, `Policy`, `Binding`, `Arena`, `Tracked`:
  the things;
* `Names`: what commands call them;
* `Pin`: what a running callback holds on to;
* `Session`, with lookups and updates of its tables.
-/

namespace TrackedExpr
namespace Session

/-- What an observer does with a change. -/
inductive Reaction
  /-- logs it under a name and runs a script -/
  | script (id : String) (actions : Script)
  /-- passes it on as an event of a listener, as long as the token is connected -/
  | forward (listener : Option SlotKey) (token : Token)

inductive ObjectKind
  | model (schema : Schema)
  | record
  | source (described : List (String × AttrDescriptor)) (onObserve : Script)

/-- What an object declares about an attribute; nothing if it cannot be observed. -/
def ObjectKind.describe? (kind : ObjectKind) (attr : String) : Option AttrDescriptor :=
  match kind with
  | .model schema => some (schema.describe attr)
  | .record => none
  | .source described _ => some ((Assoc.get? attr described).getD .absent)

def ObjectKind.isObservable : ObjectKind → Bool
  | .record => false
  | _ => true

/-- An object: its attributes and its observers. -/
structure ObjectCell where
  ref : ObjectRef
  kind : ObjectKind
  attrs : List (String × Value)
  observers : List (Observer Reaction)

/-- Who is told by a side-call of a monitor. -/
inductive Hook
  | log
  /-- a policy, as long as it exists -/
  | policy (policy : Nat)
  | none

inductive NativeRole
  | host (draft : NativeDraft Command)
  | attributeSite (hook : Hook)
  | callSite (hook : Hook)

/-- What receives the events of a channel. -/
inductive Sink
  | script (id : String) (actions : Script)
  | record (recorder : Nat)
  | binding (binding : Nat)

/-- A channel and the number of its resets. -/
structure Channel where
  generation : UInt64
  sink : Sink

/-- The registry of a channel's listeners, the listeners ever attached on request, and whether
a hookup is going on. -/
structure Policy where
  registry : Registry
  attached : List SlotKey
  busy : Bool

/-- What a binding does when a dependency has changed. -/
inductive Invalidation
  | script (id : String) (actions : Script)
  | record (recorder : Nat)
  /-- evaluates again and passes the result on -/
  | rerun (id : String) (actions : Script)

/-- A tracked expression. -/
structure Binding where
  /-- the code as it was given -/
  plain : Code
  instrumented : Option Code
  scope : Scope
  channel : Nat
  attributes : Option Nat
  getattr : Option Nat
  onInvalid : Invalidation
  last : Option Outcome
  dirty : Bool
  evaluating : Bool

def Binding.code (b : Binding) : Code := b.instrumented.getD b.plain

def Binding.policies (b : Binding) : List Nat := b.attributes.toList ++ b.getattr.toList

/-- An arena and the keys it has handed out, in order. -/
structure Arena where
  subjects : SubjectArena
  handed : List SlotKey

/-- Instrumented code, and the policies of its two monitors while they are kept. -/
structure Tracked where
  code : Code
  monitors : Option (Nat × Nat)

/-- What commands call things. -/
structure Names where
  schemas : List (String × Schema) := []
  objects : List (String × ObjectRef) := []
  natives : List (String × NativeRef) := []
  subscriptions : List (String × Nat) := []
  lists : List (String × Nat) := []
  recorders : List (String × Nat) := []
  channels : List (String × Nat) := []
  tokens : List (String × Token) := []
  policies : List (String × Nat) := []
  binders : List (String × BinderKind × Nat) := []
  handles : List (String × Nat) := []
  arenas : List (String × Nat) := []
  bindings : List (String × Nat) := []
  tracked : List (String × Tracked) := []

/-- What a running callback holds on to. -/
inductive Pin
  | value (v : Value)
  | channel (channel : Nat)
  | binding (binding : Nat)
  | policy (policy : Nat)
  | subscription (subscription : Nat)

/-- The numbers of the things pinned. -/
def Pin.channel? : Pin → Option Nat
  | .channel c => some c
  | _ => none

def Pin.binding? : Pin → Option Nat
  | .binding b => some b
  | _ => none

def Pin.policy? : Pin → Option Nat
  | .policy p => some p
  | _ => none

def Pin.subscription? : Pin → Option Nat
  | .subscription s => some s
  | _ => none

def Pin.value? : Pin → Option Value
  | .value v => some v
  | _ => none

end Session

open Session in
/-- Everything that a program holds while it works with tracked expressions. -/
structure Session where
  objects : List ObjectCell := []
  natives : List NativeRole := []
  channels : List Channel := []
  policies : List Policy := []
  bindings : List Binding := []
  recorders : List (List RecordedEvent) := []
  lists : List (List (Observer Reaction)) := []
  arenas : List Arena := []
  /-- how many subscriptions were made -/
  subscriptions : Nat := 0
  names : Names := {}
  scope : Scope := []
  /-- the policies made by name, with the name of their channel -/
  policyHistory : List (String × Nat) := []
  pins : List Pin := []
  /-- newest entry first -/
  log : List LogEntry := []
  /-- how many commands of scripts may still be carried out -/
  actionsLeft : Nat := 0
  /-- how many steps one evaluation may take -/
  patience : Nat
  /-- whether something was cut off because it went too deep or too far -/
  stalled : Bool := false

namespace Session

section Tables

def object? (w : Session) (o : ObjectRef) : Option ObjectCell := w.objects[o.id]?

def attribute? (w : Session) (o : ObjectRef) (attr : String) : Option Value :=
  (w.object? o).bind fun cell => Assoc.get? attr cell.attrs

def modifyObject (w : Session) (id : Nat) (f : ObjectCell → ObjectCell) : Session :=
  { w with objects := w.objects.modify id f }

def modifyChannel (w : Session) (id : Nat) (f : Channel → Channel) : Session :=
  { w with channels := w.channels.modify id f }

def modifyPolicy (w : Session) (id : Nat) (f : Policy → Policy) : Session :=
  { w with policies := w.policies.modify id f }

def setRegistry (w : Session) (id : Nat) (r : Registry) : Session :=
  w.modifyPolicy id fun p => { p with registry := r }

def modifyBinding (w : Session) (id : Nat) (f : Binding → Binding) : Session :=
  { w with bindings := w.bindings.modify id f }

def modifyArena (w : Session) (id : Nat) (f : Arena → Arena) : Session :=
  { w with arenas := w.arenas.modify id f }

def rename (w : Session) (f : Names → Names) : Session := { w with names := f w.names }

/-- Writes down an entry. -/
def note (w : Session) (e : LogEntry) : Session := { w with log := e :: w.log }

def addNative (w : Session) (name : String) (role : NativeRole) : Session × NativeRef :=
  ({ w with natives := w.natives ++ [role] }, ⟨w.natives.length, name⟩)

def addObject (w : Session) (label typeName : String) (kind : ObjectKind)
    (attrs : List (String × Value)) : Session × ObjectRef :=
  let id := w.objects.length
  let ref : ObjectRef := ⟨id, id, label, typeName⟩
  ({ w with objects := w.objects ++ [⟨ref, kind, attrs, []⟩] }, ref)

def addChannel (w : Session) (sink : Sink) : Session × Nat :=
  ({ w with channels := w.channels ++ [⟨0, sink⟩] }, w.channels.length)

def generation (w : Session) (channel : Nat) : UInt64 :=
  match w.channels[channel]? with
  | some c => c.generation
  | none => 0

/-- A token for the present generation of a channel. -/
def issue (w : Session) (channel : Nat) : Token := ⟨channel, w.generation channel⟩

/-- Ends the present generation of a channel. -/
def resetChannel (w : Session) (channel : Nat) : Session :=
  w.modifyChannel channel fun c => { c with generation := c.generation + 1 }

def addPolicy (w : Session) (channel : Nat) : Session × Nat :=
  ({ w with policies := w.policies ++ [⟨Registry.empty (w.issue channel), [], false⟩] },
    w.policies.length)

def addBinding (w : Session) (b : Binding) : Session × Nat :=
  ({ w with bindings := w.bindings ++ [b] }, w.bindings.length)

end Tables

section Observing

/-- Where observers are kept. -/
inductive Source
  | object (id : Nat)
  | list (id : Nat)

def observersAt (w : Session) : Source → List (Observer Reaction)
  | .object id =>
      match w.objects[id]? with
      | some cell => cell.observers
      | none => []
  | .list id => w.lists[id]?.getD []

def modifyObservers (w : Session) (f : List (Observer Reaction) → List (Observer Reaction)) :
    Source → Session
  | .object id => w.modifyObject id fun cell => { cell with observers := f cell.observers }
  | .list id => { w with lists := w.lists.modify id f }

/-- Registers an observer and answers the subscription that keeps it. -/
def subscribe (w : Session) (source : Source) (attr : String) (reaction : Reaction) :
    Session × Nat :=
  let s := w.subscriptions
  ({ w.modifyObservers (fun os => os ++ [⟨attr, s, reaction⟩]) source with
      subscriptions := s + 1 }, s)

end Observing

section Pins

/-- Does something while holding on to things. -/
def holding {α : Type} (pins : List Pin) (f : Session → Session × α) (w : Session) :
    Session × α :=
  let (after, a) := f { w with pins := pins ++ w.pins }
  ({ after with pins := w.pins }, a)

def pinValues (vs : List Value) : List Pin := vs.map Pin.value

end Pins

end Session
end TrackedExpr
