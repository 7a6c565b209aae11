import Mathlib
import TrackedExpr.Tracking.Slots

/-!
# Slot tables are maps

The slots of a sound table that are free hold nothing, so a key that is handed out
reads nothing before and its value after, and no other key reads anything else.

**Definitions.**
* `Slots.Sound`: the free slots are empty, and each is listed once;
* `Slots.Issued`: the keys handed out so far.

**Results.**
* `Slots.get?_nextKey`, `Slots.get?_insert_self`, `Slots.get?_insert_ne`: storing;
* `Slots.get?_remove_self`, `Slots.get?_remove_ne`, `Slots.get?_removeAll`: removing;
* `Slots.mem_entries`: the entries are what the keys read;
* `Slots.Sound.insert`, `Slots.Sound.remove`, `Slots.Sound.clear`: tables stay sound;
* `Slots.Sound.not_issued`, `Slots.Sound.issued_insert`, `Slots.Issued.remove`: no key is handed
  out twice.
-/

namespace TrackedExpr
namespace Slots

universe u

variable {α : Type u} {t : Slots α} {key : SlotKey} {v : α}

/-- The free slots are empty, and each is listed once. -/
structure Sound (t : Slots α) : Prop where
  empty : ∀ i ∈ t.free, ∃ cell, t.cells[i]? = some cell ∧ cell.value = none
  nodup : t.free.Nodup

theorem Sound.of_empty : Sound (Slots.empty : Slots α) := by
  constructor
  · simp [Slots.empty]
  · simp [Slots.empty]

section Reading

theorem get?_eq_some_iff :
    t.get? key = some v ↔ t.cells[key.slot]? = some ⟨key.round, some v⟩ := by
  unfold get?
  cases hcell : t.cells[key.slot]? with
  | none => simp
  | some cell =>
      obtain ⟨round, value⟩ := cell
      by_cases hround : round = key.round
      · simp [hround]
      · simp [hround]

theorem contains_iff :
    t.contains key = true ↔ ∃ v, t.cells[key.slot]? = some ⟨key.round, some v⟩ := by
  simp only [contains, Option.isSome_iff_exists, get?_eq_some_iff]

/-- The next key is handed out for a slot that is new or empty. -/
theorem nextKey_spec (h : t.Sound) :
    (t.free = [] ∧ t.nextKey = ⟨t.cells.length, 0⟩) ∨
    ∃ i rest round, t.free = i :: rest ∧ t.nextKey = ⟨i, round⟩ ∧
      t.cells[i]? = some ⟨round, none⟩ := by
  unfold nextKey
  cases hfree : t.free with
  | nil => exact Or.inl ⟨rfl, rfl⟩
  | cons i rest =>
      obtain ⟨⟨round, value⟩, hcell, hvalue⟩ := h.empty i (by simp [hfree])
      obtain rfl : value = none := hvalue
      exact Or.inr ⟨i, rest, round, rfl, by simp [hcell], hcell⟩

theorem get?_nextKey (h : t.Sound) : t.get? t.nextKey = none := by
  rcases nextKey_spec h with ⟨-, hkey⟩ | ⟨i, rest, round, -, hkey, hcell⟩
  · rw [hkey, get?, List.getElem?_eq_none (Nat.le_refl _)]
  · simp [hkey, get?, hcell]

/-- The cells after a value was stored. -/
theorem getElem?_insert (h : t.Sound) (v : α) (i : Nat) :
    (t.insert v).cells[i]? =
      if i = t.nextKey.slot then some ⟨t.nextKey.round, some v⟩ else t.cells[i]? := by
  rcases nextKey_spec h with ⟨hfree, hkey⟩ | ⟨j, rest, round, hfree, hkey, hcell⟩
  · simp only [insert, hfree, hkey]
    by_cases hi : i = t.cells.length
    · simp [hi]
    · rw [List.getElem?_append]
      by_cases hlt : i < t.cells.length
      · simp [hi, hlt]
      · have hnone : t.cells[i]? = none := List.getElem?_eq_none (Nat.le_of_not_lt hlt)
        have hnone' : [(⟨0, some v⟩ : Slot α)][i - t.cells.length]? = none := by
          apply List.getElem?_eq_none
          simp only [List.length_singleton]
          omega
        rw [if_neg hlt, if_neg hi, hnone, hnone']
  · simp only [insert, hfree, hkey, List.getElem?_modify]
    by_cases hi : i = j
    · subst hi
      simp [hcell]
    · simp [hi, Ne.symm hi]

@[simp] theorem get?_insert_self (h : t.Sound) (v : α) :
    (t.insert v).get? t.nextKey = some v := by
  rw [get?_eq_some_iff, getElem?_insert h, if_pos rfl]

theorem get?_insert_ne (h : t.Sound) (v : α) (hne : key ≠ t.nextKey) :
    (t.insert v).get? key = t.get? key := by
  by_cases hslot : key.slot = t.nextKey.slot
  · -- the slot is taken by another key: neither table reads anything at this one
    have hround : t.nextKey.round ≠ key.round := by
      intro hround
      apply hne
      change (⟨key.slot, key.round⟩ : SlotKey) = t.nextKey
      rw [hslot, ← hround]
    have hnone := get?_nextKey h
    rw [get?, getElem?_insert h, if_pos hslot]
    simp only [hround, if_false]
    unfold get? at hnone ⊢
    rw [← hslot] at hnone
    cases hcell : t.cells[key.slot]? with
    | none => rfl
    | some cell =>
        rcases nextKey_spec h with ⟨-, hkey⟩ | ⟨i, rest, round, -, hkey, hcell'⟩
        · rw [hslot, hkey, List.getElem?_eq_none (Nat.le_refl _)] at hcell
          cases hcell
        · rw [hslot, hkey, hcell'] at hcell
          cases hcell
          simp
  · rw [get?, getElem?_insert h, if_neg hslot]
    rfl

/-- What a table holds after a value was stored is this value or was there before. -/
theorem eq_or_get?_of_insert {x : α} (h : (t.insert v).get? key = some x) :
    x = v ∨ t.get? key = some x := by
  rw [get?_eq_some_iff] at h ⊢
  unfold insert at h
  cases hfree : t.free with
  | nil =>
      simp only [hfree, List.getElem?_append] at h
      split at h
      · exact Or.inr h
      · have hcell := List.mem_singleton.mp (List.mem_of_getElem? h)
        exact Or.inl (Option.some.inj (Slot.mk.inj hcell).2)
  | cons i rest =>
      simp only [hfree, List.getElem?_modify] at h
      obtain ⟨cell, hcell, heq⟩ := Option.map_eq_some_iff.mp h
      by_cases hi : i = key.slot
      · rw [if_pos hi] at heq
        exact Or.inl (Option.some.inj (Slot.mk.inj heq).2).symm
      · rw [if_neg hi] at heq
        exact Or.inr (heq ▸ hcell)

theorem get?_remove_self (key : SlotKey) : (t.remove key).get? key = none := by
  unfold remove
  by_cases hkey : t.contains key = true
  · rw [if_pos hkey]
    obtain ⟨v, hv⟩ := contains_iff.mp hkey
    simp [get?, release, hv]
  · rw [if_neg hkey]
    simpa [contains] using hkey

theorem get?_remove_ne {other : SlotKey} (hne : other ≠ key) :
    (t.remove key).get? other = t.get? other := by
  unfold remove
  by_cases hkey : t.contains key = true
  · rw [if_pos hkey]
    obtain ⟨v, hv⟩ := contains_iff.mp hkey
    by_cases hslot : other.slot = key.slot
    · have hround : key.round ≠ other.round := by
        intro hround
        apply hne
        change (⟨other.slot, other.round⟩ : SlotKey) = key
        rw [hslot, ← hround]
      simp [get?, release, hslot, hv, hround]
    · simp [get?, release, Ne.symm hslot]
  · rw [if_neg hkey]

theorem get?_removeAll (keys : List SlotKey) : ∀ {t : Slots α},
    (t.removeAll keys).get? key = if key ∈ keys then none else t.get? key := by
  induction keys with
  | nil => exact fun {t} => by simp [removeAll]
  | cons first rest ih =>
      intro t
      have hrest : (t.removeAll (first :: rest)).get? key
          = if key ∈ rest then none else (t.remove first).get? key := ih
      rw [hrest]
      by_cases hkey : key = first
      · subst hkey
        simp [get?_remove_self]
      · rw [get?_remove_ne hkey]
        simp [hkey]

end Reading

section Entries

theorem mem_entriesFrom {cells : List (Slot α)} : ∀ {start : Nat},
    (key, v) ∈ entriesFrom start cells ↔
      ∃ i, key.slot = start + i ∧ cells[i]? = some ⟨key.round, some v⟩ := by
  induction cells with
  | nil => simp [entriesFrom]
  | cons cell rest ih =>
      intro start
      have hlater : (∃ i, key.slot = start + i ∧ (cell :: rest)[i]? = some ⟨key.round, some v⟩) ↔
          (key.slot = start ∧ cell = ⟨key.round, some v⟩) ∨
            (key, v) ∈ entriesFrom (start + 1) rest := by
        rw [ih]
        constructor
        · rintro ⟨i, hslot, hcell⟩
          cases i with
          | zero => exact Or.inl ⟨hslot, by simpa using hcell⟩
          | succ i => exact Or.inr ⟨i, by omega, by simpa using hcell⟩
        · rintro (⟨hslot, rfl⟩ | ⟨i, hslot, hcell⟩)
          · exact ⟨0, hslot, rfl⟩
          · exact ⟨i + 1, by omega, by simpa using hcell⟩
      rw [hlater, entriesFrom]
      obtain ⟨round, value⟩ := cell
      cases value with
      | none => simp
      | some w =>
          simp only [List.mem_cons, Prod.mk.injEq, Slot.mk.injEq, Option.some.injEq]
          constructor
          · rintro (⟨rfl, rfl⟩ | h)
            · exact Or.inl ⟨rfl, rfl, rfl⟩
            · exact Or.inr h
          · rintro (⟨rfl, rfl, rfl⟩ | h)
            · exact Or.inl ⟨rfl, rfl⟩
            · exact Or.inr h

/-- The entries are what the keys read. -/
theorem mem_entries : (key, v) ∈ t.entries ↔ t.get? key = some v := by
  rw [entries, mem_entriesFrom, get?_eq_some_iff]
  constructor
  · rintro ⟨i, hslot, hcell⟩
    rwa [hslot, Nat.zero_add]
  · intro hcell
    exact ⟨key.slot, (Nat.zero_add _).symm, hcell⟩

theorem nodup_entriesFrom : ∀ (start : Nat) (cells : List (Slot α)),
    ((entriesFrom start cells).map Prod.fst).Nodup
  | _, [] => List.nodup_nil
  | start, ⟨round, none⟩ :: rest => nodup_entriesFrom (start + 1) rest
  | start, ⟨round, some v⟩ :: rest => by
      refine List.nodup_cons.mpr ⟨?_, nodup_entriesFrom (start + 1) rest⟩
      rw [List.mem_map]
      rintro ⟨⟨key, u⟩, hentry, rfl⟩
      obtain ⟨i, hslot, -⟩ := mem_entriesFrom.mp hentry
      have hslot : start = start + 1 + i := hslot
      omega

/-- No key occurs twice. -/
theorem nodup_entries (t : Slots α) : (t.entries.map Prod.fst).Nodup := nodup_entriesFrom 0 t.cells

@[simp] theorem get?_clear (key : SlotKey) : t.clear.get? key = none := by
  rw [clear, get?_removeAll]
  split
  · rfl
  · next hkey =>
      cases hv : t.get? key with
      | none => rfl
      | some v => exact absurd (List.mem_map.mpr ⟨(key, v), mem_entries.mpr hv, rfl⟩) hkey

end Entries

section Soundness

theorem Sound.insert (h : t.Sound) (v : α) : (t.insert v).Sound := by
  rcases nextKey_spec h with ⟨hfree, -⟩ | ⟨i, rest, round, hfree, hkey, -⟩
  · constructor
    · simp [Slots.insert, hfree]
    · simp [Slots.insert, hfree]
  · have hnodup := h.nodup
    rw [hfree, List.nodup_cons] at hnodup
    have hfree' : (t.insert v).free = rest := by simp [Slots.insert, hfree]
    constructor
    · intro j hj
      rw [hfree'] at hj
      have hne : j ≠ i := by
        rintro rfl
        exact hnodup.1 hj
      obtain ⟨cell, hcell, hvalue⟩ := h.empty j (by simp [hfree, hj])
      exact ⟨cell, by rw [getElem?_insert h, if_neg (by rwa [hkey]), hcell], hvalue⟩
    · rw [hfree']
      exact hnodup.2

theorem Sound.remove (h : t.Sound) (key : SlotKey) : (t.remove key).Sound := by
  unfold Slots.remove
  by_cases hkey : t.contains key = true
  · rw [if_pos hkey]
    obtain ⟨v, hv⟩ := contains_iff.mp hkey
    have hused : key.slot ∉ t.free := by
      intro hmem
      obtain ⟨cell, hcell, hvalue⟩ := h.empty _ hmem
      rw [hv] at hcell
      cases hcell
      cases hvalue
    constructor
    · intro j hj
      rcases List.mem_cons.mp hj with rfl | hj
      · exact ⟨⟨key.round + 1, none⟩, by simp [release, hv], rfl⟩
      · have hne : key.slot ≠ j := by
          rintro rfl
          exact hused hj
        obtain ⟨cell, hcell, hvalue⟩ := h.empty j hj
        exact ⟨cell, by simp [release, hne, hcell], hvalue⟩
    · exact List.nodup_cons.mpr ⟨hused, h.nodup⟩
  · rw [if_neg hkey]
    exact h

theorem Sound.removeAll (h : t.Sound) (keys : List SlotKey) : (t.removeAll keys).Sound := by
  induction keys generalizing t with
  | nil => exact h
  | cons key rest ih => exact ih (h.remove key)

theorem Sound.clear (h : t.Sound) : t.clear.Sound := h.removeAll _

end Soundness

section Handing

/-- A key that was handed out: it is in use, or its slot was freed since. -/
def Issued (t : Slots α) (key : SlotKey) : Prop :=
  ∃ cell, t.cells[key.slot]? = some cell ∧
    (key.round < cell.round ∨ key.round = cell.round ∧ cell.value ≠ none)

theorem issued_of_get? (h : t.get? key = some v) : t.Issued key := by
  rw [get?_eq_some_iff] at h
  exact ⟨_, h, Or.inr ⟨rfl, nofun⟩⟩

/-- The next key was never handed out. -/
theorem Sound.not_issued (h : t.Sound) : ¬ t.Issued t.nextKey := by
  rintro ⟨cell, hcell, hround⟩
  rcases nextKey_spec h with ⟨-, hkey⟩ | ⟨i, rest, round, -, hkey, hcell'⟩
  · rw [hkey, List.getElem?_eq_none (Nat.le_refl _)] at hcell
    cases hcell
  · rw [hkey] at hcell hround
    obtain rfl := Option.some.inj (hcell'.symm.trans hcell)
    rcases hround with hlt | ⟨-, hvalue⟩
    · exact Nat.lt_irrefl _ hlt
    · exact hvalue rfl

theorem Sound.issued_insert (h : t.Sound) (hkey : t.Issued key) (v : α) :
    (t.insert v).Issued key := by
  obtain ⟨cell, hcell, hround⟩ := hkey
  by_cases hslot : key.slot = t.nextKey.slot
  · rcases nextKey_spec h with ⟨-, hnext⟩ | ⟨i, rest, round, -, hnext, hfree⟩
    · rw [hslot, hnext, List.getElem?_eq_none (Nat.le_refl _)] at hcell
      cases hcell
    · have hi : t.nextKey.slot = i := by rw [hnext]
      rw [hslot, hi, hfree] at hcell
      obtain rfl := Option.some.inj hcell
      refine ⟨_, by rw [getElem?_insert h, if_pos hslot], Or.inl ?_⟩
      rw [hnext]
      exact hround.resolve_right fun hused => hused.2 rfl
  · exact ⟨cell, by rw [getElem?_insert h, if_neg hslot, hcell], hround⟩

theorem Issued.remove (h : t.Issued key) (other : SlotKey) : (t.remove other).Issued key := by
  obtain ⟨cell, hcell, hround⟩ := h
  unfold Slots.remove
  split
  · by_cases hslot : other.slot = key.slot
    · refine ⟨⟨cell.round + 1, none⟩, by simp [release, hslot, hcell], Or.inl ?_⟩
      show key.round < cell.round + 1
      omega
    · exact ⟨cell, by simp [release, hslot, hcell], hround⟩
  · exact ⟨cell, hcell, hround⟩

theorem Issued.removeAll (keys : List SlotKey) : ∀ {t : Slots α}, t.Issued key →
    (t.removeAll keys).Issued key := by
  induction keys with
  | nil => exact fun h => h
  | cons first rest ih => exact fun h => ih (h.remove first)

theorem Issued.clear (h : t.Issued key) : t.clear.Issued key := h.removeAll _

end Handing

end Slots
end TrackedExpr
