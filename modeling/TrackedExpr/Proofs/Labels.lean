import Mathlib
import TrackedExpr.Code.StackProfile

/-!
# Labels

Two tables say where labels are set: the one that the analysis builds, which
refuses a label set twice, and the one that a run looks into, in which the last
place counts.  Where the first exists they agree.

**Definitions.**
* `labelsSet`: the labels that a sequence sets, in order.

**Results.**
* `labelIndex?_eq_some_iff`: a run finds the last place of a label;
* `labelTable_ok_iff`, `labelTable_error`: the analysis refuses a sequence exactly
  when some label is set twice, and names such a label;
* `get?_labelTable`: the two tables agree.
-/

namespace TrackedExpr

/-- The label that an instruction sets. -/
def Instruction.label? : Instruction → Option Label
  | .setLabel l => some l
  | _ => none

theorem Instruction.label?_eq_some {op : Instruction} {l : Label} :
    op.label? = some l ↔ op = .setLabel l := by
  cases op <;> simp [Instruction.label?]

/-- The labels that a sequence sets, in order. -/
def labelsSet (ops : List Instruction) : List Label := ops.filterMap Instruction.label?

@[simp] theorem labelsSet_nil : labelsSet [] = [] := rfl

@[simp] theorem labelsSet_setLabel (l : Label) (ops : List Instruction) :
    labelsSet (.setLabel l :: ops) = l :: labelsSet ops := rfl

theorem labelsSet_cons_of_none {op : Instruction} (h : op.label? = none)
    (ops : List Instruction) : labelsSet (op :: ops) = labelsSet ops := by
  simp [labelsSet, h]

theorem mem_labelsSet {l : Label} {ops : List Instruction} :
    l ∈ labelsSet ops ↔ ∃ i : Nat, ops[i]? = some (.setLabel l) := by
  simp only [labelsSet, List.mem_filterMap, Instruction.label?_eq_some]
  constructor
  · rintro ⟨op, hop, rfl⟩
    obtain ⟨i, hi⟩ := List.mem_iff_getElem?.mp hop
    exact ⟨i, hi⟩
  · rintro ⟨i, hi⟩
    exact ⟨_, List.mem_of_getElem? hi, rfl⟩

/-- A label set once is set at one place. -/
theorem index_unique_of_nodup {l : Label} :
    ∀ {ops : List Instruction}, (labelsSet ops).Nodup → ∀ {i j : Nat},
      ops[i]? = some (.setLabel l) → ops[j]? = some (.setLabel l) → i = j
  | [], _, i, _, hi, _ => by simp at hi
  | op :: rest, hn, i, j, hi, hj => by
      have htail : (labelsSet rest).Nodup := ((List.sublist_cons_self op rest).filterMap _).nodup hn
      -- a place beside the first one would make the head's label occur again in the tail
      have hhead : ∀ k : Nat, op = .setLabel l → rest[k]? ≠ some (.setLabel l) := by
        rintro k rfl hk
        exact (List.nodup_cons.mp hn).1 (mem_labelsSet.mpr ⟨k, hk⟩)
      cases i with
      | zero =>
          cases j with
          | zero => rfl
          | succ j => exact absurd hj (hhead j (by simpa using hi))
      | succ i =>
          cases j with
          | zero => exact absurd hi (hhead i (by simpa using hj))
          | succ j => rw [index_unique_of_nodup htail (i := i) (j := j) hi hj]

namespace Assoc

universe u v

variable {κ : Type u} {α : Type v} [DecidableEq κ]

theorem get?_append (key : κ) :
    ∀ as bs : List (κ × α), get? key (as ++ bs) = (get? key as).or (get? key bs)
  | [], bs => by simp [get?]
  | e :: as, bs => by
      by_cases h : e.1 = key
      · simp [get?, h]
      · simp [get?, h, get?_append key as bs]

theorem get?_eq_none_iff {key : κ} :
    ∀ {m : List (κ × α)}, get? key m = none ↔ ∀ e ∈ m, e.1 ≠ key
  | [] => by simp [get?]
  | e :: rest => by
      by_cases h : e.1 = key
      · simp [get?, h]
      · simp [get?, h, get?_eq_none_iff (m := rest)]

end Assoc

namespace Code

section Run

@[simp] theorem sets_iff {l : Label} {op : Instruction} :
    sets l op = true ↔ op = .setLabel l := by
  cases op <;> simp [sets]

theorem lastSet?_eq_none_iff {l : Label} :
    ∀ {ops : List Instruction} {start : Nat},
      lastSet? l start ops = none ↔ ∀ k : Nat, ops[k]? ≠ some (.setLabel l)
  | [], start => by simp [lastSet?]
  | op :: rest, start => by
      have ih := @lastSet?_eq_none_iff l rest (start + 1)
      constructor
      · intro h k
        cases hrest : lastSet? l (start + 1) rest with
        | some i => simp [lastSet?, hrest] at h
        | none =>
            have hop : op ≠ .setLabel l := by simpa [lastSet?, hrest] using h
            cases k with
            | zero => simpa using hop
            | succ k => simpa using ih.mp hrest k
      · intro h
        have hrest : lastSet? l (start + 1) rest = none :=
          ih.mpr fun k => by simpa using h (k + 1)
        have hop : op ≠ .setLabel l := by simpa using h 0
        simp [lastSet?, hrest, hop]

theorem lastSet?_spec {l : Label} :
    ∀ {ops : List Instruction} {start i : Nat}, lastSet? l start ops = some i →
      ∃ k, i = start + k ∧ ops[k]? = some (.setLabel l) ∧
        ∀ j, k < j → ops[j]? ≠ some (.setLabel l)
  | [], start, i, h => by simp [lastSet?] at h
  | op :: rest, start, i, h => by
      cases hrest : lastSet? l (start + 1) rest with
      | some j =>
          obtain ⟨k, rfl, hk, hlast⟩ := lastSet?_spec hrest
          refine ⟨k + 1, ?_, by simpa using hk, ?_⟩
          · simp only [lastSet?, hrest, Option.some.injEq] at h
            omega
          · intro j hj
            obtain ⟨j, rfl⟩ : ∃ j', j = j' + 1 := ⟨j - 1, by omega⟩
            simpa using hlast j (by omega)
      | none =>
          have hop : op = .setLabel l ∧ start = i := by simpa [lastSet?, hrest] using h
          obtain ⟨rfl, rfl⟩ := hop
          refine ⟨0, rfl, rfl, ?_⟩
          intro j hj
          obtain ⟨j, rfl⟩ : ∃ j', j = j' + 1 := ⟨j - 1, by omega⟩
          simpa using lastSet?_eq_none_iff.mp hrest j

theorem labelIndex?_eq_none_iff {c : Code} {l : Label} :
    c.labelIndex? l = none ↔ ∀ k : Nat, c.instructions[k]? ≠ some (.setLabel l) :=
  lastSet?_eq_none_iff

/-- A run finds the last place where a label is set. -/
theorem labelIndex?_eq_some_iff {c : Code} {l : Label} {i : Nat} :
    c.labelIndex? l = some i ↔
      c.instructions[i]? = some (.setLabel l) ∧
        ∀ j, i < j → c.instructions[j]? ≠ some (.setLabel l) := by
  constructor
  · intro h
    obtain ⟨k, hk, hset, hlast⟩ := lastSet?_spec h
    obtain rfl : i = k := by omega
    exact ⟨hset, hlast⟩
  · rintro ⟨hset, hlast⟩
    cases h : c.labelIndex? l with
    | none => exact absurd hset (labelIndex?_eq_none_iff.mp h i)
    | some k =>
        obtain ⟨k, hk, hset', hlast'⟩ := lastSet?_spec h
        have hik : ¬ i < k := fun hlt => hlast k hlt hset'
        have hki : ¬ k < i := fun hlt => hlast' i hlt hset
        rw [show i = k by omega, hk, Nat.zero_add]

end Run
section Analysis

theorem known_fresh {known : List (Label × Nat)} {k : Label}
    (h : ¬ known.any (fun e => e.1 = k) = true) : ∀ e ∈ known, e.1 ≠ k := by
  intro e he hek
  exact h (List.any_eq_true.mpr ⟨e, he, by simpa using hek⟩)

theorem labelsFrom_cons_of_none {op : Instruction} (h : op.label? = none) (start : Nat)
    (known : List (Label × Nat)) (rest : List Instruction) :
    labelsFrom start known (op :: rest) = labelsFrom (start + 1) known rest := by
  cases op with
  | setLabel l => simp [Instruction.label?] at h
  | _ => rfl

/-- The places that the analysis collects, beside those it was given. -/
theorem get?_labelsFrom {l : Label} :
    ∀ {ops : List Instruction} {start : Nat} {known labels : List (Label × Nat)},
      labelsFrom start known ops = .ok labels →
        Assoc.get? l labels = (lastSet? l start ops).or (Assoc.get? l known)
  | [], start, known, labels, h => by
      simp only [labelsFrom, Except.ok.injEq] at h
      simp [lastSet?, h]
  | op :: rest, start, known, labels, h => by
      cases hop : op.label? with
      | none =>
          rw [labelsFrom_cons_of_none hop] at h
          have hne : op ≠ .setLabel l := by
            rintro rfl
            simp [Instruction.label?] at hop
          rw [get?_labelsFrom h]
          cases hlast : lastSet? l (start + 1) rest <;> simp [lastSet?, hlast, hne]
      | some k =>
          obtain rfl := Instruction.label?_eq_some.mp hop
          by_cases hk : known.any (fun e => e.1 = k) = true
          · simp [labelsFrom, hk] at h
          · simp only [labelsFrom, hk, Bool.false_eq_true, if_false] at h
            rw [get?_labelsFrom h, Assoc.get?_append]
            by_cases hkl : k = l
            · subst hkl
              have hnone : Assoc.get? k known = none :=
                Assoc.get?_eq_none_iff.mpr (known_fresh hk)
              cases hlast : lastSet? k (start + 1) rest <;>
                simp [lastSet?, hlast, sets, Assoc.get?, hnone]
            · cases hlast : lastSet? l (start + 1) rest <;>
                simp [lastSet?, hlast, sets, Assoc.get?, hkl]

/-- Where the analysis has a table of labels, a run finds the same places. -/
theorem get?_labelTable {c : Code} {labels : List (Label × Nat)} (h : c.labelTable = .ok labels)
    (l : Label) : Assoc.get? l labels = c.labelIndex? l := by
  rw [get?_labelsFrom h]
  simp [Assoc.get?, labelIndex?]

theorem labelsFrom_ok_iff :
    ∀ {ops : List Instruction} {start : Nat} {known : List (Label × Nat)},
      (∃ labels, labelsFrom start known ops = .ok labels) ↔
        (labelsSet ops).Nodup ∧ ∀ l ∈ labelsSet ops, ∀ e ∈ known, e.1 ≠ l
  | [], start, known => by simp [labelsFrom]
  | op :: rest, start, known => by
      cases hop : op.label? with
      | none =>
          rw [labelsFrom_cons_of_none hop, labelsSet_cons_of_none hop, labelsFrom_ok_iff]
      | some k =>
          obtain rfl := Instruction.label?_eq_some.mp hop
          by_cases hk : known.any (fun e => e.1 = k) = true
          · simp only [labelsFrom, hk, if_true, reduceCtorEq, exists_false, false_iff]
            rintro ⟨-, hfresh⟩
            obtain ⟨e, he, hek⟩ := List.any_eq_true.mp hk
            exact hfresh k (by simp) e he (by simpa using hek)
          · have hk' := known_fresh hk
            simp only [labelsFrom, hk, Bool.false_eq_true, if_false]
            rw [labelsFrom_ok_iff]
            simp only [labelsSet_setLabel, List.nodup_cons, List.mem_append, List.mem_cons,
              List.not_mem_nil, or_false]
            constructor
            · rintro ⟨hn, hfresh⟩
              refine ⟨⟨fun hmem => hfresh k hmem (k, start) (Or.inr rfl) rfl, hn⟩, ?_⟩
              rintro l (rfl | hl) e he
              · exact hk' e he
              · exact hfresh l hl e (Or.inl he)
            · rintro ⟨⟨hmem, hn⟩, hfresh⟩
              refine ⟨hn, ?_⟩
              rintro l hl e (he | rfl)
              · exact hfresh l (Or.inr hl) e he
              · rintro rfl
                exact hmem hl

/-- The analysis has a table of labels exactly when no label is set twice. -/
theorem labelTable_ok_iff {c : Code} :
    (∃ labels, c.labelTable = .ok labels) ↔ (labelsSet c.instructions).Nodup := by
  unfold labelTable
  rw [labelsFrom_ok_iff]
  simp

theorem labelsFrom_error :
    ∀ {ops : List Instruction} {start : Nat} {known : List (Label × Nat)} {e : StackError},
      labelsFrom start known ops = .error e →
        ∃ l, e = .duplicateLabel l ∧ 2 ≤ (known.map Prod.fst ++ labelsSet ops).count l
  | [], start, known, e, h => by simp [labelsFrom] at h
  | op :: rest, start, known, e, h => by
      cases hop : op.label? with
      | none =>
          rw [labelsFrom_cons_of_none hop] at h
          rw [labelsSet_cons_of_none hop]
          exact labelsFrom_error h
      | some k =>
          obtain rfl := Instruction.label?_eq_some.mp hop
          by_cases hk : known.any (fun e => e.1 = k) = true
          · simp only [labelsFrom, hk, if_true, Except.error.injEq] at h
            refine ⟨k, h.symm, ?_⟩
            have hmem : k ∈ known.map Prod.fst := by simpa using hk
            have hpos := List.count_pos_iff.mpr hmem
            simp only [List.count_append, labelsSet_setLabel, List.count_cons_self]
            omega
          · simp only [labelsFrom, hk, Bool.false_eq_true, if_false] at h
            obtain ⟨l, rfl, hl⟩ := labelsFrom_error h
            exact ⟨l, rfl, by simpa using hl⟩

/-- The label that the analysis refuses is set twice. -/
theorem labelTable_error {c : Code} {e : StackError} (h : c.labelTable = .error e) :
    ∃ l, e = .duplicateLabel l ∧ 2 ≤ (labelsSet c.instructions).count l := by
  simpa using labelsFrom_error h

end Analysis

end Code
end TrackedExpr
