import TrackedExpr.Tracking.Subjects

/-!
# Listener registries

A registry holds at most one listener per object and attribute, for one
generation of one channel.  When the generation is over, the next hookup starts
from nothing.

**Definitions.**
* `Token`: a generation of a channel;
* `Listener`, `Registry`;
* `Registry.resync`, `Registry.lookup`, `Registry.attach`, `Registry.prune`,
  `Registry.clear`, `Registry.contains`.
-/

namespace TrackedExpr

/-- A channel in the generation in which the token was issued. -/
structure Token where
  channel : Nat
  generation : UInt64
deriving DecidableEq, Repr

/-- A listener: the key of its object, its attribute, and the subscription it holds. -/
structure Listener where
  subject : SlotKey
  attr : String
  subscription : Nat
deriving DecidableEq, Repr

/-- The listeners of one generation of a channel, indexed by object key and attribute. -/
structure Registry where
  token : Token
  subjects : SubjectArena
  listeners : Slots Listener
  index : List ((SlotKey × String) × SlotKey)

namespace Registry

def empty (token : Token) : Registry := ⟨token, SubjectArena.empty, Slots.empty, []⟩

def clear (r : Registry) : Registry :=
  { r with subjects := r.subjects.clear, listeners := r.listeners.clear, index := [] }

/-- Starts over if the token is no longer connected; none if there is no channel to go on with.
`renewed` is the token for the channel's present generation. -/
def resync (connected : Bool) (renewed : Option Token) (r : Registry) : Registry × Bool :=
  if connected then (r, true)
  else
    match renewed with
    | some token => ({ r.clear with token := token }, true)
    | none => (r.clear, false)

variable (alive : ObjectRef → Bool)

/-- The registry with a key for the object, that key, and the listener of object and attribute
if there is one. -/
def lookup (r : Registry) (o : ObjectRef) (attr : String) :
    Registry × SlotKey × Option SlotKey :=
  let (subjects, subject) := r.subjects.intern alive o
  ({ r with subjects := subjects }, subject, Assoc.get? (subject, attr) r.index)

/-- Adds a listener under the next key. -/
def attach (r : Registry) (l : Listener) : Registry :=
  { r with
    listeners := r.listeners.insert l
    index := Assoc.put (l.subject, l.attr) r.listeners.nextKey r.index }

/-- Drops the listeners of objects that are gone, and answers how many. -/
def prune (r : Registry) : Registry × Nat :=
  let (subjects, dead) := r.subjects.prune alive
  if dead.isEmpty then (r, 0)
  else
    let gone := (r.listeners.entries.filter fun e => e.2.subject ∈ dead).map Prod.fst
    ({ r with
        subjects := subjects
        listeners := r.listeners.removeAll gone
        index := r.index.filter fun e => e.1.1 ∉ dead },
      gone.length)

/-- Whether object and attribute have a listener, in whatever generation. -/
def contains (r : Registry) (o : ObjectRef) (attr : String) : Bool :=
  match r.subjects.find? alive o with
  | some subject => (Assoc.get? (subject, attr) r.index).isSome
  | none => false

/-- The number of listeners, in whatever generation. -/
def size (r : Registry) : Nat := r.listeners.size

def subscriptions (r : Registry) : List Nat :=
  r.listeners.entries.map fun e => e.2.subscription

end Registry
end TrackedExpr
