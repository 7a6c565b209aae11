import TrackedExpr.Session.State

/-!
# Lifetimes

A thing exists as long as something holds it.  Names and running callbacks hold
whatever they refer to; beyond that a binding holds its channel, its policies and
its values, a policy holds the subscriptions of its listeners, and an object holds
the values of its attributes.  Observers, listeners, tokens and arenas hold nothing.

**Definitions.**
* `bindingAlive`, `channelAlive`, `policyAlive`, `subscriptionHeld`;
* `recorderAlive`, `rootValues`: what holds values;
* `liveObjects`, `objectAlive`: an object exists if it is held by a root or by an
  object that exists; objects that hold each other in a circle exist for ever;
* `Connection`: whether a token is connected.
-/

namespace TrackedExpr
namespace Session

section Holders

/-- Whether something holds a binding. -/
def bindingAlive (w : Session) (b : Nat) : Bool :=
  w.names.bindings.any (fun e => e.2 = b) || b ∈ w.pins.filterMap Pin.binding?

def liveBindings (w : Session) : List Binding :=
  (w.bindings.zipIdx.filter fun e => w.bindingAlive e.2).map Prod.fst

def channelAlive (w : Session) (c : Nat) : Bool :=
  w.names.channels.any (fun e => e.2 = c) || c ∈ w.pins.filterMap Pin.channel?
    || w.liveBindings.any (fun b => b.channel = c)

def Tracked.policies (t : Tracked) : List Nat :=
  match t.monitors with
  | some (attributes, getattr) => [attributes, getattr]
  | none => []

def policyAlive (w : Session) (p : Nat) : Bool :=
  w.names.policies.any (fun e => e.2 = p) || w.names.binders.any (fun e => e.2.2 = p)
    || w.names.tracked.any (fun e => p ∈ e.2.policies)
    || p ∈ w.pins.filterMap Pin.policy?
    || w.liveBindings.any (fun b => p ∈ b.policies)

def livePolicies (w : Session) : List Policy :=
  (w.policies.zipIdx.filter fun e => w.policyAlive e.2).map Prod.fst

def heldSubscriptions (w : Session) : List Nat :=
  w.names.subscriptions.map Prod.snd ++ w.names.handles.map Prod.snd
    ++ w.pins.filterMap Pin.subscription?
    ++ w.livePolicies.flatMap fun p => p.registry.subscriptions

def subscriptionHeld (w : Session) (s : Nat) : Bool := s ∈ w.heldSubscriptions

/-- The bindings that exist or are being made hold their recorder, and so do channels. -/
def recorderAlive (w : Session) (r : Nat) : Bool :=
  w.names.recorders.any (fun e => e.2 = r)
    || w.channels.zipIdx.any (fun e =>
        match e.1.sink with
        | .record k => k = r && w.channelAlive e.2
        | _ => false)
    || w.liveBindings.any (fun b =>
        match b.onInvalid with
        | .record k => k = r
        | _ => false)

end Holders

section Objects

def Binding.values (b : Binding) : List Value :=
  let result := match b.last with
    | some (.ok v) => [v]
    | _ => []
  b.scope.map Prod.snd ++ result ++ b.plain.constants
    ++ (b.instrumented.map Code.constants).getD []

def recordedValues (w : Session) : List Value :=
  (w.recorders.zipIdx.filter fun e => w.recorderAlive e.2).flatMap fun e =>
    e.1.flatMap fun event => [event.old, event.new]

/-- The values held by anything but an object. -/
def rootValues (w : Session) : List Value :=
  w.names.objects.map (fun e => Value.object e.2) ++ w.scope.map Prod.snd
    ++ w.pins.filterMap Pin.value?
    ++ w.liveBindings.flatMap Binding.values
    ++ w.names.tracked.flatMap (fun e => e.2.code.constants)
    ++ w.recordedValues

/-- The numbers of the objects that values refer to. -/
def referred (vs : List Value) : List Nat := (Value.itemObjects vs).map ObjectRef.id

/-- The numbers of the objects that an object refers to. -/
def ObjectCell.referred (cell : ObjectCell) : List Nat :=
  Session.referred (cell.attrs.map Prod.snd)

/-- Leaves out the objects that neither a root nor a remaining object refers to. -/
def supported (roots : List Nat) (cells : List ObjectCell) : List ObjectCell :=
  let held := roots ++ cells.flatMap ObjectCell.referred
  cells.filter fun cell => cell.ref.id ∈ held

/-- Repeats this until nothing more can be left out; `rounds` is at least the number of cells. -/
def settle (roots : List Nat) : Nat → List ObjectCell → List ObjectCell
  | 0, cells => cells
  | rounds + 1, cells =>
      let rest := supported roots cells
      if rest.length = cells.length then cells else settle roots rounds rest

def liveObjects (w : Session) : List Nat :=
  (settle (referred w.rootValues) w.objects.length w.objects).map fun cell => cell.ref.id

def objectAlive (w : Session) : ObjectRef → Bool :=
  let live := w.liveObjects
  fun o => o.id ∈ live

end Objects

section Tokens

/-- Whether the channel of a token exists and has not been reset since. -/
def connected (w : Session) (t : Token) : Bool :=
  w.channelAlive t.channel && w.generation t.channel = t.generation

/-- A token for the present generation of a token's channel, if that exists. -/
def renew? (w : Session) (t : Token) : Option Token :=
  if w.channelAlive t.channel then some (w.issue t.channel) else none

/-- The number of listeners in the present generation. -/
def policySize (w : Session) (p : Policy) : Nat :=
  if w.connected p.registry.token then p.registry.size else 0

/-- The number of live observers at a place. -/
def observerCount (w : Session) (source : Source) : Nat :=
  let held := w.heldSubscriptions
  Observers.count (fun s => s ∈ held) (w.observersAt source)

/-- The number of listeners that the latest evaluation of a binding attached. -/
def dependencyCount (w : Session) (b : Binding) : Nat :=
  (b.policies.filterMap fun p => w.policies[p]?).foldl (fun n p => n + w.policySize p) 0

end Tokens

end Session
end TrackedExpr
