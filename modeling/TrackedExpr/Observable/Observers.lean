/-!
# Observer lists

A source keeps its observers in registration order and keeps none of them alive:
an entry counts as long as something else holds its subscription.

**Definitions.**
* `Observer`: an entry with what it does when its attribute changes;
* `Observers.live`: the entries of one attribute that a change reaches;
* `Observers.prune`, `Observers.count`.

**Results.**
* `Observers.live_prune`: pruning does not change what a change reaches.
-/

namespace TrackedExpr

universe u

/-- A registered observer: the attribute, the identity of the subscription, and its action. -/
structure Observer (β : Type u) where
  attr : String
  subscription : Nat
  action : β

namespace Observers

variable {β : Type u}

/-- The entries whose subscription is held. -/
def prune (held : Nat → Bool) (entries : List (Observer β)) : List (Observer β) :=
  entries.filter fun o => held o.subscription

/-- The entries of one attribute whose subscription is held, in registration order. -/
def live (held : Nat → Bool) (attr : String) (entries : List (Observer β)) :
    List (Observer β) :=
  (prune held entries).filter fun o => o.attr = attr

/-- The number of entries whose subscription is held. -/
def count (held : Nat → Bool) (entries : List (Observer β)) : Nat :=
  (prune held entries).length

/-- The text of an observer list. -/
def debug (held : Nat → Bool) (entries : List (Observer β)) : String :=
  "ObserverList \x7b live: " ++ toString (count held entries) ++ " \x7d"

@[simp] theorem prune_prune (held : Nat → Bool) (entries : List (Observer β)) :
    prune held (prune held entries) = prune held entries := by
  simp [prune, List.filter_filter]

theorem live_prune (held : Nat → Bool) (attr : String) (entries : List (Observer β)) :
    live held attr (prune held entries) = live held attr entries := by
  simp [live]

end Observers
end TrackedExpr
