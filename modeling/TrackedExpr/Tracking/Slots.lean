/-!
# Slot tables

A table hands out a key for every stored value.  A freed slot is used again, the
last one freed first, but under a new round, so that a key is never valid again
once its value was removed.

**Definitions.**
* `SlotKey`, `Slots`;
* `Slots.get?`, `Slots.nextKey`, `Slots.insert`, `Slots.remove`, `Slots.clear`;
* `Slots.entries`: the stored values with their keys, in slot order.
-/

namespace TrackedExpr

universe u

/-- A key: a slot, and how often the slot had been freed when the key was handed out. -/
structure SlotKey where
  slot : Nat
  round : Nat
deriving DecidableEq, Repr

/-- A slot: how often it was freed, and its value if it is in use. -/
structure Slot (α : Type u) where
  round : Nat
  value : Option α

/-- A table of slots and the stack of free ones. -/
structure Slots (α : Type u) where
  cells : List (Slot α)
  free : List Nat

namespace Slots

variable {α : Type u}

def empty : Slots α := ⟨[], []⟩

/-- The value at a key, if the key is still valid. -/
def get? (t : Slots α) (key : SlotKey) : Option α :=
  match t.cells[key.slot]? with
  | some cell => if cell.round = key.round then cell.value else none
  | none => none

def contains (t : Slots α) (key : SlotKey) : Bool := (t.get? key).isSome

def nextKey (t : Slots α) : SlotKey :=
  match t.free with
  | [] => ⟨t.cells.length, 0⟩
  | i :: _ =>
      match t.cells[i]? with
      | some cell => ⟨i, cell.round⟩
      | none => ⟨i, 0⟩

/-- Stores a value under the next key. -/
def insert (t : Slots α) (v : α) : Slots α :=
  match t.free with
  | [] => ⟨t.cells ++ [⟨0, some v⟩], []⟩
  | i :: rest => ⟨t.cells.modify i fun cell => { cell with value := some v }, rest⟩

def release (t : Slots α) (slot : Nat) : Slots α :=
  ⟨t.cells.modify slot fun cell => ⟨cell.round + 1, none⟩, slot :: t.free⟩

def remove (t : Slots α) (key : SlotKey) : Slots α :=
  if t.contains key then t.release key.slot else t

/-- The keys and values of the cells from slot `start` on. -/
def entriesFrom (start : Nat) : List (Slot α) → List (SlotKey × α)
  | [] => []
  | cell :: rest =>
      match cell.value with
      | some v => (⟨start, cell.round⟩, v) :: entriesFrom (start + 1) rest
      | none => entriesFrom (start + 1) rest

/-- The stored values with their keys, in slot order. -/
def entries (t : Slots α) : List (SlotKey × α) := entriesFrom 0 t.cells

def size (t : Slots α) : Nat := t.entries.length

/-- Removes the values at the given keys, in order. -/
def removeAll (t : Slots α) (keys : List SlotKey) : Slots α := keys.foldl remove t

/-- Removes every value, in slot order. -/
def clear (t : Slots α) : Slots α := t.removeAll (t.entries.map Prod.fst)

end Slots
end TrackedExpr
