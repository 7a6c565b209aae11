import TrackedExpr.Session.Evaluation

/-!
# Notification

A change runs from the object over its observers to channels and bindings.

**Definitions.**
* `invalidate`: what a change does to a binding;
* `deliver`, `notify`: an event on a channel, sent directly or by a token;
* `dispatch`: a change at a list of observers;
* `assign`: sets an attribute of a model and reports the change.
-/

namespace TrackedExpr
namespace Session

/-- A change as a channel carries it, with the listener that saw it. -/
structure Event where
  emitter : Option SlotKey
  change : Change

/-- What a recorder keeps of a change. -/
def RecordedEvent.ofChange (c : Change) : RecordedEvent :=
  ⟨c.object.typeName, c.attr, c.old, c.new⟩

section Channels

def record (r : Nat) (change : Change) (w : Session) : Session :=
  { w with
    recorders := w.recorders.modify r fun events => events ++ [RecordedEvent.ofChange change] }

/-- Passes on a result of a reactive binding. -/
def passOn (re : Reentry) (id : String) (actions : Script) (r : Outcome) (w : Session) :
    Session :=
  let pins := match r with
    | .ok v => [Pin.value v]
    | .error _ => []
  (w.note (.sink id r)).keeping pins (runScript re actions)

/-- What a binding does when a dependency has changed outside of its evaluation. -/
def reactToInvalidation (re : Reentry) (b : Nat) (binding : Binding) (change : Change)
    (w : Session) : Session :=
  match binding.onInvalid with
  | .script id actions => runScript re actions (w.note (.invalid id binding.dirty change))
  | .record r => w.record r change
  | .rerun id actions =>
      let (w, r) := w.evaluateBinding re b
      w.passOn re id actions r

/-- Makes a binding dirty and, unless it is being evaluated, lets it react. -/
def invalidate (re : Reentry) (b : Nat) (change : Change) (w : Session) : Session :=
  let w := w.modifyBinding b fun c => { c with dirty := true }
  match w.bindings[b]? with
  | none => w
  | some binding =>
      if binding.evaluating then w else w.reactToInvalidation re b binding change

/-- The place of a listener among the listeners of the channel's policy, if the channel's name
was given to one policy ever and this exists. -/
def emitterOrdinal (w : Session) (channel : String) (emitter : Option SlotKey) : Option Nat :=
  match w.policyHistory.filter fun e => e.1 = channel with
  | [(_, p)] =>
      match w.policies[p]?, emitter with
      | some policy, some key => if w.policyAlive p then policy.attached.idxOf? key else none
      | _, _ => none
  | _ => none

/-- Hands an event to what receives the events of a channel. -/
def receive (re : Reentry) (event : Event) (w : Session) : Sink → Session
  | .script id actions =>
      let ordinal := w.emitterOrdinal id event.emitter
      runScript re actions (w.note (.event id ordinal event.change))
  | .record r => w.record r event.change
  | .binding b =>
      if w.bindingAlive b then w.keeping [.binding b] (invalidate re b event.change) else w

/-- Delivers an event on a channel. -/
def deliver (re : Reentry) (channel : Nat) (event : Event) (w : Session) : Session :=
  match w.channels[channel]? with
  | none => w
  | some c => w.keeping [.channel channel] fun w => w.receive re event c.sink

/-- Delivers an event if the token is connected, and answers whether it was. -/
def notify (re : Reentry) (token : Token) (event : Event) (w : Session) : Session × Bool :=
  if w.connected token then (w.deliver re token.channel event, true) else (w, false)

end Channels

section Observers

/-- What an observer does with a change. -/
def react (re : Reentry) (change : Change) (w : Session) : Reaction → Session
  | .script id actions => runScript re actions (w.note (.change id change))
  | .forward listener token => (w.notify re token ⟨listener, change⟩).1

/-- Lets observers react in turn, holding on to those whose turn is not over. -/
def reactAll (re : Reentry) (change : Change) : List (Observer Reaction) → Session → Session
  | [], w => w
  | o :: rest, w =>
      let pins := (o :: rest).map fun o => Pin.subscription o.subscription
      reactAll re change rest (w.keeping pins fun w => w.react re change o.action)

/-- Reports a change to the observers of its attribute that are live when it begins. -/
def dispatch (re : Reentry) (source : Source) (change : Change) (w : Session) : Session :=
  let held := w.heldSubscriptions
  let w := w.modifyObservers (Observers.prune fun s => s ∈ held) source
  let live := Observers.live (fun s => s ∈ held) change.attr (w.observersAt source)
  w.keeping (pinValues change.values) (reactAll re change live)

/-- Sets an attribute of a model.  A change of an observable attribute is reported; setting what
is equal already is no change. -/
def assign (re : Reentry) (o : ObjectRef) (schema : Schema) (attr : String) (value : Value)
    (w : Session) : Session × Except ModelError Unit :=
  if !schema.accepts attr then (w, .error (.disallowed schema.typeName attr))
  else
    let old := (w.attribute? o attr).getD .none
    let w := w.modifyObject o.id fun cell => { cell with attrs := Assoc.put attr value cell.attrs }
    if schema.describe attr = .observable && !old.same value then
      (w.dispatch re (.object o.id) ⟨o, attr, old, value⟩, .ok ())
    else (w, .ok ())

def schema? (w : Session) (o : ObjectRef) : Option Schema :=
  match w.object? o with
  | some ⟨_, .model schema, _, _⟩ => some schema
  | _ => none

end Observers

end Session
end TrackedExpr
