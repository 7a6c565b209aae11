import Mathlib
import TrackedExpr.Proofs.Placement

/-!
# Splicing in stages

Insertions can be spliced one list after the other.  Those of the second list are meant
for the code as it was, so they are carried over to where its instructions have gone.  At
one index the second list comes after the first, and so it does at the end.

**Definitions.**
* `Insertion.carried`, `Code.carriedOver`: insertions carried over to spliced code;
* `Insertion.movedBy`: an insertion at the position of the instruction it belongs to.

**Results.**
* `interleave_movedBy`: interleaving twice;
* `position_movedBy`: where an instruction goes in two stages;
* `splice_in_stages`: splicing in two stages is splicing at once.
-/

namespace TrackedExpr

/-- The insertion at the place to which its index has gone; an index that is not among the
`places` goes to the end. -/
def Insertion.carried (places : List Nat) (last : Nat) (x : Insertion) : Insertion :=
  ⟨(places[x.index]?).getD last, x.ops⟩

/-- The insertion at the position of its index. -/
def Insertion.movedBy (ins : List Insertion) (x : Insertion) : Insertion :=
  ⟨Code.position ins x.index, x.ops⟩

namespace Code

/-- Insertions for code, carried over to the code with other insertions. -/
def carriedOver (c : Code) (first : List Insertion) (spliced : Code) (second : List Insertion) :
    List Insertion :=
  second.map (Insertion.carried (c.splicedPositions first) spliced.size)

section Moving

variable {first second : List Insertion}

theorem insertedAt_append (first second : List Insertion) (i : Nat) :
    insertedAt (first ++ second) i = insertedAt first i ++ insertedAt second i := by
  simp [insertedAt]

theorem addedAt_append (first second : List Insertion) (i : Nat) :
    addedAt (first ++ second) i = addedAt first i + addedAt second i := by
  rw [← length_insertedAt, insertedAt_append, List.length_append, length_insertedAt,
    length_insertedAt]

/-- What the second list inserts is found at the position of its index. -/
theorem insertedAt_movedBy (i : Nat) :
    insertedAt (second.map (Insertion.movedBy first)) (position first i) = insertedAt second i := by
  have hindex : ∀ x ∈ second,
      decide ((Insertion.movedBy first x).index = position first i) = decide (x.index = i) := by
    intro x _
    rw [decide_eq_decide]
    exact ⟨fun h => position_inj h, fun h => congrArg (position first) h⟩
  rw [insertedAt, List.filter_map, List.flatMap_map]
  exact congrArg (List.flatMap Insertion.ops) (List.filter_congr hindex)

/-- Among the instructions of the first list nothing is inserted. -/
theorem insertedAt_movedBy_landing {i k : Nat} (hk : k < addedAt first i) :
    insertedAt (second.map (Insertion.movedBy first)) (landing first i + k) = [] := by
  rw [insertedAt, List.filter_eq_nil_iff.mpr]
  · rfl
  · intro x hx hat
    obtain ⟨y, -, rfl⟩ := List.mem_map.mp hx
    have hplace : landing first y.index + addedAt first y.index = landing first i + k :=
      of_decide_eq_true hat
    obtain ⟨rfl, rfl⟩ := landing_inj (Nat.le_refl _) (Nat.le_of_lt hk) hplace
    exact Nat.lt_irrefl _ hk

/-- Instructions in front of which nothing is inserted stay together. -/
theorem interleave_append_of_nil {ins : List Insertion} :
    ∀ {pre rest : List Instruction} {s : Nat},
      (∀ k < pre.length, insertedAt ins (s + k) = []) →
      interleave ins s (pre ++ rest) = pre ++ interleave ins (s + pre.length) rest
  | [], _, _, _ => rfl
  | op :: pre, rest, s, h => by
      have hhere : insertedAt ins s = [] := h 0 (Nat.zero_lt_succ _)
      have hlater : ∀ k < pre.length, insertedAt ins (s + 1 + k) = [] := by
        intro k hk
        rw [Nat.add_assoc, Nat.add_comm 1]
        exact h (k + 1) (Nat.succ_lt_succ hk)
      rw [List.cons_append, interleave, hhere, interleave_append_of_nil hlater, List.nil_append,
        List.length_cons, Nat.add_assoc, Nat.add_comm 1, List.cons_append]

/-- **Interleaving twice**: what has been interleaved and the insertions moved along. -/
theorem interleave_movedBy (first second : List Insertion) :
    ∀ (ops : List Instruction) (i : Nat),
      interleave (second.map (Insertion.movedBy first)) (landing first i) (interleave first i ops)
        = interleave (first ++ second) i ops := by
  have hgap : ∀ i k, k < (insertedAt first i).length →
      insertedAt (second.map (Insertion.movedBy first)) (landing first i + k) = [] := by
    intro i k hk
    rw [length_insertedAt] at hk
    exact insertedAt_movedBy_landing hk
  intro ops
  induction ops with
  | nil =>
      intro i
      calc interleave (second.map (Insertion.movedBy first)) (landing first i) (insertedAt first i)
        _ = insertedAt first i ++ interleave (second.map (Insertion.movedBy first))
              (landing first i + (insertedAt first i).length) [] := by
            rw [← interleave_append_of_nil (hgap i), List.append_nil]
        _ = insertedAt first i ++ insertedAt second i := by
            rw [length_insertedAt, ← position, interleave, insertedAt_movedBy]
        _ = interleave (first ++ second) i [] := by rw [interleave, insertedAt_append]
  | cons op rest ih =>
      intro i
      have hstep : landing first i + (insertedAt first i).length = position first i := by
        rw [length_insertedAt, position]
      rw [interleave, interleave_append_of_nil (hgap i), hstep, interleave, insertedAt_movedBy,
        ← landing_succ, ih (i + 1), interleave, insertedAt_append, List.append_assoc]

theorem landing_add_of_nil {ins : List Insertion} {s : Nat} :
    ∀ {n : Nat}, (∀ k < n, insertedAt ins (s + k) = []) → landing ins (s + n) = landing ins s + n
  | 0, _ => rfl
  | n + 1, h => by
      have hnone : addedAt ins (s + n) = 0 := by
        rw [← length_insertedAt, h n (Nat.lt_succ_self n), List.length_nil]
      rw [← Nat.add_assoc, landing, hnone,
        landing_add_of_nil fun k hk => h k (Nat.lt_succ_of_lt hk)]
      rfl

/-- Where what is inserted at an index begins, and where its instruction is, in two stages. -/
theorem landing_movedBy (first second : List Insertion) : ∀ i,
    landing (second.map (Insertion.movedBy first)) (landing first i)
      = landing (first ++ second) i ∧
    position (second.map (Insertion.movedBy first)) (position first i)
      = position (first ++ second) i := by
  have hposition : ∀ i,
      landing (second.map (Insertion.movedBy first)) (landing first i)
        = landing (first ++ second) i →
      position (second.map (Insertion.movedBy first)) (position first i)
        = position (first ++ second) i := by
    intro i hlanding
    have hadded : addedAt (second.map (Insertion.movedBy first)) (position first i)
        = addedAt second i := by
      rw [← length_insertedAt, insertedAt_movedBy, length_insertedAt]
    have hfrom : landing (second.map (Insertion.movedBy first)) (position first i)
        = landing (first ++ second) i + addedAt first i := by
      rw [position, landing_add_of_nil fun k hk => insertedAt_movedBy_landing hk, hlanding]
    calc position (second.map (Insertion.movedBy first)) (position first i)
      _ = landing (first ++ second) i + addedAt first i + addedAt second i := by
          rw [position, hfrom, hadded]
      _ = position (first ++ second) i := by rw [position, addedAt_append, Nat.add_assoc]
  intro i
  induction i with
  | zero => exact ⟨rfl, hposition 0 rfl⟩
  | succ i ih =>
      have hlanding : landing (second.map (Insertion.movedBy first)) (landing first (i + 1))
          = landing (first ++ second) (i + 1) := by
        rw [landing_succ, landing_succ, landing_succ, ih.2]
      exact ⟨hlanding, hposition (i + 1) hlanding⟩

end Moving

section Stages

variable {c spliced : Code} {first second : List Insertion}

theorem landing_add_length (ins : List Insertion) :
    ∀ (ops : List Instruction) (i : Nat),
      landing ins i + (interleave ins i ops).length = position ins (i + ops.length)
  | [], i => by rw [interleave, length_insertedAt, position, List.length_nil, Nat.add_zero]
  | op :: rest, i => by
      have ih := landing_add_length ins rest (i + 1)
      rw [landing_succ, position] at ih
      rw [interleave, List.length_append, length_insertedAt, List.length_cons, List.length_cons,
        ← Nat.add_assoc i, Nat.add_right_comm i, ← ih]
      omega

/-- Spliced code ends where the insertions at the end do. -/
theorem size_of_splice (hok : c.splice first = .ok spliced) :
    spliced.size = position first c.size := by
  obtain ⟨-, rfl⟩ := splice_ok_iff.mp hok
  simpa [landing, size] using landing_add_length first c.instructions 0

/-- Insertions in range are moved to the positions of their indices. -/
theorem carriedOver_eq (hok : c.splice first = .ok spliced)
    (hsecond : ∀ x ∈ second, x.index ≤ c.size) :
    c.carriedOver first spliced second = second.map (Insertion.movedBy first) := by
  rw [carriedOver]
  apply List.map_congr_left
  intro x hx
  rw [Insertion.carried, Insertion.movedBy]
  congr 1
  rcases Nat.lt_or_eq_of_le (hsecond x hx) with hlt | hlast
  · rw [getElem?_splicedPositions.mpr ⟨hlt, rfl⟩, Option.getD_some]
  · have hnone : (c.splicedPositions first)[x.index]? = none := by
      rw [List.getElem?_eq_none_iff, length_splicedPositions, hlast]
    rw [hnone, Option.getD_none, size_of_splice hok, hlast]

/-- **Splicing in two stages is splicing at once**: the code is the same, and so is where each of
its instructions goes. -/
theorem splice_in_stages (c : Code) (first second : List Insertion)
    (hfirst : ∀ x ∈ first, x.index ≤ c.size) (hsecond : ∀ x ∈ second, x.index ≤ c.size) :
    ∃ spliced both, c.splice first = .ok spliced ∧ c.splice (first ++ second) = .ok both ∧
      spliced.splice (c.carriedOver first spliced second) = .ok both ∧
      ∀ i < c.size, ∃ p q, (c.splicedPositions first)[i]? = some p ∧
        (spliced.splicedPositions (c.carriedOver first spliced second))[p]? = some q ∧
        (c.splicedPositions (first ++ second))[i]? = some q := by
  have hboth : ∀ x ∈ first ++ second, x.index ≤ c.size := fun x hx =>
    (List.mem_append.mp hx).elim (hfirst x) (hsecond x)
  have hspliced := splice_ok_iff.mpr ⟨hfirst, rfl⟩
  refine ⟨_, _, hspliced, splice_ok_iff.mpr ⟨hboth, rfl⟩, ?_, ?_⟩
  · rw [carriedOver_eq hspliced hsecond, splice_ok_iff]
    constructor
    · intro x hx
      obtain ⟨y, hy, rfl⟩ := List.mem_map.mp hx
      rw [size_of_splice hspliced]
      rcases Nat.lt_or_eq_of_le (hsecond y hy) with hlt | hlast
      · exact Nat.le_of_lt (position_strictMono hlt)
      · exact Nat.le_of_eq (congrArg (position first) hlast)
    · rw [← interleave_movedBy]
      rfl
  · intro i hi
    refine ⟨position first i, position (first ++ second) i,
      getElem?_splicedPositions.mpr ⟨hi, rfl⟩, ?_, getElem?_splicedPositions.mpr ⟨hi, rfl⟩⟩
    rw [carriedOver_eq hspliced hsecond, getElem?_splicedPositions]
    refine ⟨?_, (landing_movedBy first second i).2.symm⟩
    rw [size_of_splice hspliced]
    exact position_strictMono hi

/-- An insertion at an index and one at the end. -/
def earlier : List Insertion := [⟨1, [.dupTop]⟩, ⟨6, [.setLabel ⟨0⟩]⟩]

/-- Insertions at the same places, and one between them. -/
def later : List Insertion := [⟨6, [.returnValue]⟩, ⟨1, [.popTop]⟩, ⟨3, [.dupTop, .popTop]⟩]

theorem splice_in_stages_ties :
    ∃ spliced, sumOfAttributes.splice earlier = .ok spliced ∧
      sumOfAttributes.carriedOver earlier spliced later
        = [⟨8, [.returnValue]⟩, ⟨2, [.popTop]⟩, ⟨4, [.dupTop, .popTop]⟩] ∧
      spliced.splice (sumOfAttributes.carriedOver earlier spliced later) = .ok (ofInstructions
        [ .loadName "a", .dupTop, .popTop, .loadAttr "x", .loadName "b", .dupTop, .popTop,
          .loadAttr "y", .binary .add, .returnValue, .setLabel ⟨0⟩, .returnValue ]) := by
  obtain ⟨spliced, both, hearlier, hboth, hstaged, -⟩ :=
    splice_in_stages sumOfAttributes earlier later (by decide) (by decide)
  obtain ⟨-, rfl⟩ := splice_ok_iff.mp hearlier
  obtain ⟨-, rfl⟩ := splice_ok_iff.mp hboth
  exact ⟨_, hearlier, rfl, hstaged⟩

end Stages

end Code
end TrackedExpr
