import TrackedExpr.Assoc
import TrackedExpr.Tracking.Slots
import TrackedExpr.Value.Basic

/-!
# Subjects

An arena gives every object it meets a stable key.  Objects are recognised by
their address and are not kept alive, so an entry whose object is gone is
replaced when another object is met at its address.

**Definitions.**
* `SubjectArena`;
* `SubjectArena.intern`, `find?`, `get?`, `isAlive`, `prune`, `clear`.
-/

namespace TrackedExpr

/-- Keys of objects, and the key last given at each address. -/
structure SubjectArena where
  slots : Slots ObjectRef
  byAddress : List (Nat × SlotKey)

namespace SubjectArena

def empty : SubjectArena := ⟨Slots.empty, []⟩

variable (alive : ObjectRef → Bool)

/-- The object of a key, as long as it is alive. -/
def get? (a : SubjectArena) (key : SlotKey) : Option ObjectRef :=
  (a.slots.get? key).filter alive

def isAlive (a : SubjectArena) (key : SlotKey) : Bool := (a.get? alive key).isSome

def add (a : SubjectArena) (o : ObjectRef) : SubjectArena × SlotKey :=
  (⟨a.slots.insert o, Assoc.put o.address a.slots.nextKey a.byAddress⟩, a.slots.nextKey)

/-- The key of an object, a new one when it is first met. -/
def intern (a : SubjectArena) (o : ObjectRef) : SubjectArena × SlotKey :=
  match Assoc.get? o.address a.byAddress with
  | some key =>
      if a.isAlive alive key then (a, key) else add { a with slots := a.slots.remove key } o
  | none => add a o

/-- The key that an object was given, if any. -/
def find? (a : SubjectArena) (o : ObjectRef) : Option SlotKey :=
  (Assoc.get? o.address a.byAddress).filter (a.isAlive alive)

/-- Forgets the objects that are gone, and answers their keys. -/
def prune (a : SubjectArena) : SubjectArena × List SlotKey :=
  let dead := (a.slots.entries.filter fun e => !alive e.2).map Prod.fst
  let slots := a.slots.removeAll dead
  (⟨slots, a.byAddress.filter fun e => slots.contains e.2⟩, dead)

def clear (a : SubjectArena) : SubjectArena := ⟨a.slots.clear, []⟩

def size (a : SubjectArena) : Nat := a.slots.size

def debug (a : SubjectArena) : String :=
  "SubjectArena \x7b len: " ++ toString a.size ++ " \x7d"

end SubjectArena
end TrackedExpr
