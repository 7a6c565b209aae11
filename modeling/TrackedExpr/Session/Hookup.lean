import TrackedExpr.Session.Lifetime

/-!
# Hookups

A policy listens to an attribute of an object at most once in a generation of its
channel.  While the object is asked for a subscription it may run a script; the
policy is busy until it has its answer.

**Definitions.**
* `Entry`, `Reentry`: what a session does in the middle of something else;
* `observe`: asks an object for a subscription;
* `hookUp`: asks a policy to listen to an attribute;
* `see`: the same, if the policy exists and is not busy.
-/

namespace TrackedExpr
namespace Session

/-- What a session may have to do in the middle of something else. -/
inductive Entry
  | script (actions : Script)
  | native (name : String) (draft : NativeDraft Command) (args : List Value) (kwargs : Kwargs)

/-- How a session does what it has to do in the middle of something else. -/
abbrev Reentry := Entry → Session → Session × Outcome

def runScript (re : Reentry) (actions : Script) (w : Session) : Session :=
  if actions.isEmpty then w else (re (.script actions) w).1

/-- Does something while holding on to things. -/
def keeping (pins : List Pin) (f : Session → Session) (w : Session) : Session :=
  { f { w with pins := pins ++ w.pins } with pins := w.pins }

/-- Asks an object for a subscription to an attribute. -/
def observe (re : Reentry) (o : ObjectRef) (attr : String) (reaction : Reaction) (w : Session) :
    Session × Nat :=
  let w := match w.object? o with
    | some ⟨_, .source _ onObserve, _, _⟩ => runScript re onObserve w
    | _ => w
  w.subscribe (.object o.id) attr reaction

/-- Attaches a listener under the next key of a registry. -/
def attachListener (re : Reentry) (p : Nat) (registry : Registry) (subject : SlotKey)
    (o : ObjectRef) (attr : String) (w : Session) : Session × Hookup SlotKey :=
  let key := registry.listeners.nextKey
  let w := w.modifyPolicy p fun policy => { policy with registry := registry, busy := true }
  let (w, s) := w.observe re o attr (.forward (some key) registry.token)
  let w := w.modifyPolicy p fun policy =>
    { policy with registry := policy.registry.attach ⟨subject, attr, s⟩, busy := false }
  (w, .attached key)

/-- Listens to an observable attribute. -/
def listen (re : Reentry) (p : Nat) (o : ObjectRef) (attr : String) (w : Session) :
    Session × Hookup SlotKey :=
  match w.policies[p]? with
  | none => (w, .detached)
  | some policy =>
      let token := policy.registry.token
      match policy.registry.resync (w.connected token) (w.renew? token) with
      | (registry, false) => (w.setRegistry p registry, .detached)
      | (registry, true) =>
          match registry.lookup w.objectAlive o attr with
          | (registry, _, some key) => (w.setRegistry p registry, .alreadyBound key)
          | (registry, subject, none) => w.attachListener re p registry subject o attr

/-- What an object declares about an attribute; nothing if it cannot be observed. -/
def declared? (w : Session) (o : ObjectRef) (attr : String) : Option AttrDescriptor :=
  (w.object? o).bind fun cell => cell.kind.describe? attr

/-- Asks a policy to listen to an attribute of a value. -/
def hookUp (re : Reentry) (p : Nat) (value : Value) (attr : String) (w : Session) :
    Session × Hookup SlotKey :=
  match value with
  | .object o =>
      match w.declared? o attr with
      | some .observable => w.listen re p o attr
      | some d => (w, .unobservable d)
      | none => (w, .notObservable)
  | _ => (w, .notAnObject)

def isBusy (w : Session) (p : Nat) : Bool :=
  match w.policies[p]? with
  | some policy => policy.busy
  | none => false

/-- Shows an access to a policy, which listens to the attribute unless it is gone or busy. -/
def see (re : Reentry) (p : Nat) (value : Value) (attr : String) (w : Session) : Session :=
  if w.policyAlive p && !w.isBusy p then
    w.keeping [.policy p] fun w => (w.hookUp re p value attr).1
  else w

/-- Drops the listeners of a policy whose objects are gone; a busy policy drops none. -/
def prunePolicy (p : Nat) (w : Session) : Session × Nat :=
  match w.policies[p]? with
  | some policy =>
      if policy.busy then (w, 0)
      else
        let (registry, n) := policy.registry.prune w.objectAlive
        (w.setRegistry p registry, n)
  | none => (w, 0)

end Session
end TrackedExpr
