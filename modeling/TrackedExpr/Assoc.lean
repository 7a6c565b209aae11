/-!
# Association lists

Finite maps as lists of pairs with one entry per key.  A new key goes to the end;
a known key keeps its place.

**Definitions.**
* `Assoc.get?`, `Assoc.put`, `Assoc.erase`, `Assoc.ofList`;
* `Assoc.Unique`: one entry per key.

**Results.**
* `Assoc.mem_of_get?`: a lookup finds an entry;
* `Assoc.get?_put_self`, `Assoc.get?_put_ne`: what a lookup sees after a change;
* `Assoc.get?_erase_self`, `Assoc.get?_erase_ne`: what it sees after a removal;
* `Assoc.get?_filter_key`, `Assoc.Unique.get?_filter`: what it sees when some entries are kept.
-/

namespace TrackedExpr
namespace Assoc

universe u v

variable {κ : Type u} {α : Type v} [DecidableEq κ]

/-- The value at a key. -/
def get? (key : κ) : List (κ × α) → Option α
  | [] => none
  | e :: rest => if e.1 = key then some e.2 else get? key rest

/-- Sets the value at a key. -/
def put (key : κ) (value : α) : List (κ × α) → List (κ × α)
  | [] => [(key, value)]
  | e :: rest => if e.1 = key then (key, value) :: rest else e :: put key value rest

/-- Removes a key. -/
def erase (key : κ) : List (κ × α) → List (κ × α)
  | [] => []
  | e :: rest => if e.1 = key then erase key rest else e :: erase key rest

/-- The map with the given entries, later ones replacing earlier ones. -/
def ofList (entries : List (κ × α)) : List (κ × α) :=
  entries.foldl (fun m e => put e.1 e.2 m) []

theorem mem_of_get? {key : κ} {value : α} :
    ∀ {m : List (κ × α)}, get? key m = some value → (key, value) ∈ m
  | e :: rest, h => by
      rw [get?] at h
      split at h
      · next hkey =>
          obtain rfl := Option.some.inj h
          rw [← hkey]
          exact List.mem_cons_self
      · exact List.mem_cons_of_mem _ (mem_of_get? h)

theorem mem_put {key : κ} {value : α} {e : κ × α} :
    ∀ {m : List (κ × α)}, e ∈ put key value m → e = (key, value) ∨ e ∈ m
  | [], h => by simpa [put] using h
  | first :: rest, h => by
      by_cases hfirst : first.1 = key
      · rw [put, if_pos hfirst, List.mem_cons] at h
        exact h.imp_right (List.mem_cons_of_mem _)
      · rw [put, if_neg hfirst, List.mem_cons] at h
        rcases h with rfl | h
        · exact Or.inr List.mem_cons_self
        · exact (mem_put h).imp_right (List.mem_cons_of_mem _)

@[simp] theorem get?_put_self (key : κ) (value : α) :
    ∀ m : List (κ × α), get? key (put key value m) = some value
  | [] => by simp [put, get?]
  | e :: rest => by
      by_cases h : e.1 = key
      · simp [put, get?, h]
      · simp [put, get?, h, get?_put_self key value rest]

theorem get?_put_ne {key other : κ} (h : other ≠ key) (value : α) :
    ∀ m : List (κ × α), get? other (put key value m) = get? other m
  | [] => by simp [put, get?, h.symm]
  | e :: rest => by
      by_cases he : e.1 = key
      · simp [put, get?, he, h.symm]
      · by_cases ho : e.1 = other
        · simp [put, get?, ho, h]
        · simp [put, get?, he, ho, get?_put_ne h value rest]

@[simp] theorem get?_erase_self (key : κ) :
    ∀ m : List (κ × α), get? key (erase key m) = none
  | [] => by simp [erase, get?]
  | e :: rest => by
      by_cases h : e.1 = key
      · simp [erase, h, get?_erase_self key rest]
      · simp [erase, get?, h, get?_erase_self key rest]

theorem get?_erase_ne {key other : κ} (h : other ≠ key) :
    ∀ m : List (κ × α), get? other (erase key m) = get? other m
  | [] => by simp [erase, get?]
  | e :: rest => by
      by_cases hk : e.1 = key
      · simp [erase, get?, hk, h.symm, get?_erase_ne h rest]
      · by_cases ho : e.1 = other
        · simp [erase, get?, ho, h]
        · simp [erase, get?, hk, ho, get?_erase_ne h rest]

/-- Keeping the entries of some keys. -/
theorem get?_filter_key (q : κ → Bool) (key : κ) :
    ∀ m : List (κ × α), get? key (m.filter fun e => q e.1) = if q key then get? key m else none
  | [] => by simp [get?]
  | e :: rest => by
      have ih := get?_filter_key q key rest
      by_cases he : e.1 = key
      · subst he
        cases hq : q e.1 with
        | true => simp [get?, hq]
        | false => simpa [hq] using ih
      · cases hq : q e.1 with
        | true => simpa [get?, hq, he] using ih
        | false => simpa [get?, hq, he] using ih

/-- One entry per key. -/
def Unique (m : List (κ × α)) : Prop := (m.map Prod.fst).Nodup

omit [DecidableEq κ] in
theorem Unique.nil : Unique ([] : List (κ × α)) := List.nodup_nil

theorem get?_eq_none_of_not_mem {key : κ} : ∀ {m : List (κ × α)}, key ∉ m.map Prod.fst →
    get? key m = none
  | [], _ => rfl
  | e :: rest, h => by
      rw [List.map_cons, List.mem_cons, not_or] at h
      rw [get?, if_neg (Ne.symm h.1), get?_eq_none_of_not_mem h.2]

theorem Unique.put {key : κ} {value : α} : ∀ {m : List (κ × α)}, Unique m →
    Unique (Assoc.put key value m)
  | [], _ => by simp [Unique, Assoc.put]
  | e :: rest, h => by
      rw [Unique, List.map_cons, List.nodup_cons] at h
      by_cases he : e.1 = key
      · subst he
        simpa [Unique, Assoc.put] using h
      · rw [Unique, Assoc.put, if_neg he, List.map_cons, List.nodup_cons]
        refine ⟨?_, Unique.put h.2⟩
        rw [List.mem_map]
        rintro ⟨other, hother, hkey⟩
        rcases mem_put hother with rfl | hrest
        · exact he hkey.symm
        · exact h.1 (List.mem_map.mpr ⟨other, hrest, hkey⟩)

omit [DecidableEq κ] in
theorem Unique.filter {m : List (κ × α)} (h : Unique m) (q : κ × α → Bool) :
    Unique (m.filter q) :=
  h.sublist (List.filter_sublist.map _)

/-- Keeping some entries of a map with one entry per key. -/
theorem Unique.get?_filter (q : κ × α → Bool) {key : κ} : ∀ {m : List (κ × α)}, Unique m →
    get? key (m.filter q) = (get? key m).filter fun v => q (key, v)
  | [], _ => rfl
  | e :: rest, h => by
      obtain ⟨k, v⟩ := e
      rw [Unique, List.map_cons, List.nodup_cons] at h
      have ih : get? key (rest.filter q) = (get? key rest).filter fun v => q (key, v) :=
        Unique.get?_filter q h.2
      by_cases hk : k = key
      · subst hk
        have hnone : get? k rest = none := get?_eq_none_of_not_mem h.1
        rw [hnone] at ih
        cases hq : q (k, v) <;> simp [get?, hq, ih, Option.filter_some]
      · cases hq : q (k, v) <;> simp [get?, hq, hk, ih]

end Assoc
end TrackedExpr
