import Mathlib
import TrackedExpr.Code.Splice
import TrackedExpr.Proofs.Labels

/-!
# The shape of spliced code

Splicing sorts the insertions and weaves them in one pass.  The result is the plain
one: at every index the inserted instructions in the order given, then the
instruction that stood there.  Places in spliced code are a landing, where the
insertions at an index begin, and an offset.

**Definitions.**
* `insertedAt`: what is inserted at an index;
* `interleave`: the plain definition of splicing;
* `landing`, `position`: where the insertions at an index begin, and where its
  instruction is.

**Results.**
* `splice_ok_iff`: splicing is interleaving;
* `getElem?_landing`, `getElem?_position`: the instructions of spliced code;
* `exists_landing`, `landing_inj`: every place is one offset from one landing;
* `splicedPositions_eq`, `getElem?_splicedPositions`: the positions answered are those
  of the instructions;
* `labelsSet_splice`: the labels of spliced code;
* `labelIndex?_splice`, `labelIndex?_position`: where they are found.
-/

namespace TrackedExpr

/-- What is inserted at an index, in the order given. -/
def insertedAt (ins : List Insertion) (i : Nat) : List Instruction :=
  (ins.filter fun x => x.index = i).flatMap Insertion.ops

/-- The instructions from `i` on, each after what is inserted at its index. -/
def interleave (ins : List Insertion) : Nat → List Instruction → List Instruction
  | i, [] => insertedAt ins i
  | i, op :: rest => insertedAt ins i ++ op :: interleave ins (i + 1) rest

namespace Code

section Weaving

theorem length_insertedAt (ins : List Insertion) (i : Nat) :
    (insertedAt ins i).length = addedAt ins i := by
  simp [insertedAt, addedAt, List.length_flatMap]

/-- In a sorted list none is at an index behind one that has passed it. -/
theorem index_ne_of_le {i : Nat} {x : Insertion} {rest : List Insertion}
    (hrest : ∀ y ∈ rest, x.index ≤ y.index) (hge : i ≤ x.index) (hi : x.index ≠ i) :
    ∀ y ∈ rest, y.index ≠ i := by
  intro y hy
  have := hrest y hy
  omega

/-- What comes first in a sorted list is what a filter keeps. -/
theorem takeWhile_eq_filter {i : Nat} :
    ∀ {ins : List Insertion}, ins.Pairwise (fun a b => a.index ≤ b.index) →
      (∀ x ∈ ins, i ≤ x.index) →
      ins.takeWhile (fun x => x.index = i) = ins.filter (fun x => x.index = i)
  | [], _, _ => rfl
  | x :: rest, hsorted, hge => by
      obtain ⟨hx, hrest⟩ := List.pairwise_cons.mp hsorted
      have hge' : ∀ y ∈ rest, i ≤ y.index := fun y hy => hge y (List.mem_cons_of_mem _ hy)
      by_cases hi : x.index = i
      · simp [hi, takeWhile_eq_filter hrest hge']
      · have hne := index_ne_of_le hx (hge x List.mem_cons_self) hi
        have hnone : rest.filter (fun y => y.index = i) = [] :=
          List.filter_eq_nil_iff.mpr fun y hy => by simpa using hne y hy
        simp [hi, hnone]

theorem dropWhile_eq_filter {i : Nat} :
    ∀ {ins : List Insertion}, ins.Pairwise (fun a b => a.index ≤ b.index) →
      (∀ x ∈ ins, i ≤ x.index) →
      ins.dropWhile (fun x => x.index = i) = ins.filter (fun x => ¬ x.index = i)
  | [], _, _ => rfl
  | x :: rest, hsorted, hge => by
      obtain ⟨hx, hrest⟩ := List.pairwise_cons.mp hsorted
      have hge' : ∀ y ∈ rest, i ≤ y.index := fun y hy => hge y (List.mem_cons_of_mem _ hy)
      by_cases hi : x.index = i
      · have ih := dropWhile_eq_filter hrest hge'
        simpa [hi] using ih
      · have hne := index_ne_of_le hx (hge x List.mem_cons_self) hi
        have hall : rest.filter (fun y => ¬ y.index = i) = rest :=
          List.filter_eq_self.mpr fun y hy => by simpa using hne y hy
        simp only [hi, decide_false, Bool.false_eq_true, not_false_eq_true,
          List.dropWhile_cons_of_neg, List.filter_cons_of_pos, decide_true, hall]

theorem insertedAt_filter_ne {ins : List Insertion} {i j : Nat} (h : i ≠ j) :
    insertedAt (ins.filter fun x => ¬ x.index = i) j = insertedAt ins j := by
  unfold insertedAt
  rw [List.filter_filter]
  congr 1
  apply List.filter_congr
  intro x _
  by_cases hj : x.index = j
  · simp [hj, h.symm]
  · simp [hj]

theorem interleave_congr {ins ins' : List Insertion} :
    ∀ {ops : List Instruction} {i : Nat}, (∀ j, i ≤ j → insertedAt ins j = insertedAt ins' j) →
      interleave ins i ops = interleave ins' i ops
  | [], i, h => h i (Nat.le_refl i)
  | op :: rest, i, h => by
      rw [interleave, interleave, h i (Nat.le_refl i),
        interleave_congr fun j hj => h j (by omega)]

theorem weave_eq_interleave :
    ∀ {ops : List Instruction} {i : Nat} {pending : List Insertion},
      pending.Pairwise (fun a b => a.index ≤ b.index) → (∀ x ∈ pending, i ≤ x.index) →
      weave i pending ops = interleave pending i ops
  | [], i, pending, hsorted, hge => by
      rw [weave, interleave, takeWhile_eq_filter hsorted hge, insertedAt]
  | op :: rest, i, pending, hsorted, hge => by
      rw [weave, interleave, takeWhile_eq_filter hsorted hge, dropWhile_eq_filter hsorted hge,
        weave_eq_interleave (hsorted.filter _), ← insertedAt]
      · congr 2
        apply interleave_congr
        intro j hj
        exact insertedAt_filter_ne (by omega)
      · intro x hx
        obtain ⟨hx, hne⟩ := List.mem_filter.mp hx
        have := hge x hx
        have hne : x.index ≠ i := by simpa using hne
        omega

theorem index_le_trans (a b c : Insertion) : decide (a.index ≤ b.index) = true →
    decide (b.index ≤ c.index) = true → decide (a.index ≤ c.index) = true := by
  simp only [decide_eq_true_eq]
  omega

theorem index_le_total (a b : Insertion) :
    (decide (a.index ≤ b.index) || decide (b.index ≤ a.index)) = true := by
  simp only [Bool.or_eq_true, decide_eq_true_eq]
  omega

/-- Sorting by index keeps the order of the insertions at one index. -/
theorem insertedAt_mergeSort (ins : List Insertion) (i : Nat) :
    insertedAt (ins.mergeSort fun a b => a.index ≤ b.index) i = insertedAt ins i := by
  have hconst : (ins.filter fun x => x.index = i).Pairwise fun a b => a.index ≤ b.index := by
    apply List.pairwise_of_forall_mem_list
    intro a ha b hb
    have ha : a.index = i := by simpa using (List.mem_filter.mp ha).2
    have hb : b.index = i := by simpa using (List.mem_filter.mp hb).2
    omega
  have hsub : (ins.filter fun x => x.index = i).Sublist
      ((ins.mergeSort fun a b => a.index ≤ b.index).filter fun x => x.index = i) := by
    have hsort := List.sublist_mergeSort index_le_trans index_le_total (by simpa using hconst)
      (List.filter_sublist (l := ins) (p := fun x => x.index = i))
    simpa [List.filter_filter] using hsort.filter fun x => x.index = i
  have hlen : (ins.filter fun x => x.index = i).length
      = ((ins.mergeSort fun a b => a.index ≤ b.index).filter fun x => x.index = i).length :=
    (((ins.mergeSort_perm _).filter fun x => x.index = i).length_eq).symm
  rw [insertedAt, insertedAt, hsub.eq_of_length hlen]

/-- **Splicing is interleaving**, for insertions in range. -/
theorem splice_ok_iff {c c' : Code} {ins : List Insertion} :
    c.splice ins = .ok c' ↔
      (∀ x ∈ ins, x.index ≤ c.size) ∧ c' = ⟨c.name, interleave ins 0 c.instructions⟩ := by
  have hweave : weave 0 (ins.mergeSort fun a b => a.index ≤ b.index) c.instructions
      = interleave ins 0 c.instructions := by
    rw [weave_eq_interleave]
    · exact interleave_congr fun j _ => insertedAt_mergeSort ins j
    · simpa using List.pairwise_mergeSort index_le_trans index_le_total ins
    · exact fun x _ => Nat.zero_le _
  unfold splice
  cases hfind : ins.find? fun x => c.size < x.index with
  | some bad =>
      have hbad : c.size < bad.index := by simpa using List.find?_some hfind
      have hmem := List.mem_of_find?_eq_some hfind
      simp only [reduceCtorEq, false_iff]
      rintro ⟨hall, -⟩
      have := hall bad hmem
      omega
  | none =>
      have hall : ∀ x ∈ ins, x.index ≤ c.size := by simpa using hfind
      simp only [hweave, Except.ok.injEq]
      exact ⟨fun h => ⟨hall, h.symm⟩, fun h => h.2.symm⟩

end Weaving

section Places

/-- Where the insertions at an index begin in spliced code. -/
def landing (ins : List Insertion) : Nat → Nat
  | 0 => 0
  | i + 1 => landing ins i + addedAt ins i + 1

/-- Where the instruction at an index is in spliced code. -/
def position (ins : List Insertion) (i : Nat) : Nat := landing ins i + addedAt ins i

variable {ins : List Insertion}

theorem landing_succ (i : Nat) : landing ins (i + 1) = position ins i + 1 := rfl

theorem position_lt_landing {i j : Nat} (h : i < j) : position ins i < landing ins j := by
  induction j with
  | zero => omega
  | succ j ih =>
      rw [landing_succ]
      rcases Nat.lt_or_eq_of_le (Nat.le_of_lt_succ h) with h | rfl
      · have := ih h
        simp only [position] at this ⊢
        omega
      · omega

/-- Every place is one offset from a landing. -/
theorem exists_landing (ins : List Insertion) :
    ∀ p, ∃ i k, p = landing ins i + k ∧ k ≤ addedAt ins i
  | 0 => ⟨0, 0, rfl, Nat.zero_le _⟩
  | p + 1 => by
      obtain ⟨i, k, rfl, hk⟩ := exists_landing ins p
      by_cases hlt : k < addedAt ins i
      · exact ⟨i, k + 1, rfl, hlt⟩
      · refine ⟨i + 1, 0, ?_, Nat.zero_le _⟩
        rw [landing_succ, position]
        omega

/-- A place is one offset from one landing. -/
theorem landing_inj {i j k m : Nat} (hk : k ≤ addedAt ins i) (hm : m ≤ addedAt ins j)
    (h : landing ins i + k = landing ins j + m) : i = j ∧ k = m := by
  rcases Nat.lt_trichotomy i j with hij | rfl | hij
  · have := @position_lt_landing ins _ _ hij
    simp only [position] at this
    omega
  · exact ⟨rfl, by omega⟩
  · have := @position_lt_landing ins _ _ hij
    simp only [position] at this
    omega

theorem position_inj {i j : Nat} (h : position ins i = position ins j) : i = j :=
  (landing_inj (Nat.le_refl _) (Nat.le_refl _) h).1

theorem position_strictMono {i j : Nat} (h : i < j) : position ins i < position ins j :=
  Nat.lt_of_lt_of_le (position_lt_landing h) (Nat.le_add_right _ _)

theorem positionsFrom_eq :
    ∀ count i shift : Nat, shift + i = landing ins i →
      positionsFrom ins count i shift = (List.range' i count).map (position ins)
  | 0, _, _, _ => rfl
  | count + 1, i, shift, h => by
      rw [positionsFrom, List.range'_succ, List.map_cons,
        positionsFrom_eq count (i + 1) _ (by rw [landing]; omega), position]
      congr 1
      omega

/-- The positions answered are those of the instructions. -/
theorem splicedPositions_eq (c : Code) (ins : List Insertion) :
    c.splicedPositions ins = (List.range c.size).map (position ins) := by
  rw [splicedPositions, positionsFrom_eq c.size 0 0 rfl, List.range_eq_range']

theorem getElem?_splicedPositions {c : Code} {i q : Nat} :
    (c.splicedPositions ins)[i]? = some q ↔ i < c.size ∧ q = position ins i := by
  rw [splicedPositions_eq, List.getElem?_map]
  by_cases hi : i < c.size
  · simp [hi, eq_comm]
  · simp [hi]

end Places

section Spliced

variable {ins : List Insertion}

/-- From a landing on, spliced code is what is inserted there and what follows. -/
theorem drop_interleave :
    ∀ {ops : List Instruction} {s i : Nat}, i ≤ ops.length →
      (interleave ins s ops).drop (landing ins (s + i) - landing ins s)
        = interleave ins (s + i) (ops.drop i)
  | ops, s, 0, _ => by simp
  | op :: rest, s, i + 1, h => by
      have hle : position ins s < landing ins (s + (i + 1)) := position_lt_landing (by omega)
      have ih := drop_interleave (s := s + 1) (show i ≤ rest.length by simpa using h)
      have hskip : landing ins (s + (i + 1)) - landing ins s
          = (insertedAt ins s).length + (1 + (landing ins (s + 1 + i) - landing ins (s + 1))) := by
        rw [length_insertedAt, landing_succ, show s + 1 + i = s + (i + 1) by omega]
        simp only [position] at hle ⊢
        omega
      rw [hskip, interleave, List.drop_length_add_append, Nat.add_comm 1, List.drop_succ_cons, ih,
        show s + 1 + i = s + (i + 1) by omega, List.drop_succ_cons]

variable {c c' : Code} (h : c.splice ins = .ok c')
include h

theorem drop_landing {i : Nat} (hi : i ≤ c.size) :
    c'.instructions.drop (landing ins i) = interleave ins i (c.instructions.drop i) := by
  obtain ⟨-, rfl⟩ := splice_ok_iff.mp h
  have := @drop_interleave ins c.instructions 0 i hi
  simpa [landing] using this

/-- An inserted instruction. -/
theorem getElem?_landing {i k : Nat} (hi : i ≤ c.size) (hk : k < addedAt ins i) :
    c'.instructions[landing ins i + k]? = (insertedAt ins i)[k]? := by
  have hk' : k < (insertedAt ins i).length := by rwa [length_insertedAt]
  rw [← List.getElem?_drop, drop_landing h hi]
  cases c.instructions.drop i with
  | nil => rfl
  | cons op rest => exact List.getElem?_append_left hk'

/-- An instruction that was there before; none past the end. -/
theorem getElem?_position (i : Nat) : c'.instructions[position ins i]? = c.instructions[i]? := by
  by_cases hi : i ≤ c.size
  · rw [position, ← List.getElem?_drop, drop_landing h hi]
    cases hdrop : c.instructions.drop i with
    | nil =>
        have hnone : c.instructions[i]? = none := by simpa using congrArg List.head? hdrop
        rw [hnone, interleave, List.getElem?_eq_none_iff]
        exact Nat.le_of_eq (length_insertedAt ins i)
    | cons op rest =>
        have hsome : c.instructions[i]? = some op := by simpa using congrArg List.head? hdrop
        rw [hsome, interleave, ← length_insertedAt, List.getElem?_append_right (Nat.le_refl _)]
        simp
  · have hend : c'.instructions.length ≤ position ins c.size := by
      have hdrop := drop_landing h (Nat.le_refl c.size)
      rw [size, List.drop_length, interleave] at hdrop
      have := congrArg List.length hdrop
      rw [List.length_drop, length_insertedAt] at this
      simp only [position, size]
      omega
    have hlt := @position_strictMono ins _ _ (Nat.lt_of_not_le hi)
    rw [List.getElem?_eq_none_iff.mpr (by omega),
      List.getElem?_eq_none_iff.mpr (Nat.le_of_lt (Nat.lt_of_not_le hi))]

end Spliced

section Labels

open scoped List in
/-- Interleaving places each instruction once. -/
theorem interleave_perm (ins : List Insertion) :
    ∀ (ops : List Instruction) (i : Nat), (interleave ins i ops).Perm
      (ops ++ (ins.filter fun x => i ≤ x.index ∧ x.index ≤ i + ops.length).flatMap Insertion.ops)
  | [], i => by
      have hfilter : (ins.filter fun x => i ≤ x.index ∧ x.index ≤ i + 0)
          = ins.filter fun x => x.index = i := by
        apply List.filter_congr
        intro x _
        simp only [decide_eq_decide]
        omega
      simp only [interleave, insertedAt, List.nil_append, List.length_nil, hfilter]
      exact List.Perm.refl _
  | op :: rest, i => by
      have hhere : ((ins.filter fun x => i ≤ x.index ∧ x.index ≤ i + (rest.length + 1)).filter
          fun x => x.index = i) = ins.filter fun x => x.index = i := by
        rw [List.filter_filter]
        apply List.filter_congr
        intro x _
        rw [Bool.eq_iff_iff]
        simp only [Bool.and_eq_true, decide_eq_true_eq]
        omega
      have hthere : ((ins.filter fun x => i ≤ x.index ∧ x.index ≤ i + (rest.length + 1)).filter
          fun x => !decide (x.index = i))
            = ins.filter fun x => i + 1 ≤ x.index ∧ x.index ≤ i + 1 + rest.length := by
        rw [List.filter_filter]
        apply List.filter_congr
        intro x _
        rw [Bool.eq_iff_iff]
        simp only [Bool.and_eq_true, Bool.not_eq_true', decide_eq_true_eq, decide_eq_false_iff_not]
        omega
      have hsplit := (List.filter_append_perm (fun x => decide (x.index = i))
        (ins.filter fun x => i ≤ x.index ∧ x.index ≤ i + (rest.length + 1))).flatMap_right
          Insertion.ops
      rw [hhere, hthere, List.flatMap_append] at hsplit
      calc interleave ins i (op :: rest)
        _ = insertedAt ins i ++ op :: interleave ins (i + 1) rest := rfl
        _ ~ op :: (insertedAt ins i ++ interleave ins (i + 1) rest) := List.perm_middle
        _ ~ op :: (insertedAt ins i ++ (rest ++ (ins.filter fun x =>
              i + 1 ≤ x.index ∧ x.index ≤ i + 1 + rest.length).flatMap Insertion.ops)) :=
            ((interleave_perm ins rest (i + 1)).append_left _).cons _
        _ ~ op :: (rest ++ (insertedAt ins i ++ (ins.filter fun x =>
              i + 1 ≤ x.index ∧ x.index ≤ i + 1 + rest.length).flatMap Insertion.ops)) :=
            (List.perm_append_comm_assoc _ _ _).cons _
        _ ~ _ := (hsplit.append_left rest).cons op

variable {ins : List Insertion} {c c' : Code} (h : c.splice ins = .ok c')
include h

/-- Spliced code has the instructions of the code and of the insertions. -/
theorem mem_of_splice {op : Instruction} (hop : op ∈ c'.instructions) :
    op ∈ c.instructions ∨ ∃ x ∈ ins, op ∈ x.ops := by
  obtain ⟨-, rfl⟩ := splice_ok_iff.mp h
  rw [(interleave_perm ins c.instructions 0).mem_iff, List.mem_append, List.mem_flatMap] at hop
  refine hop.imp_right ?_
  rintro ⟨x, hx, hop⟩
  exact ⟨x, List.mem_of_mem_filter hx, hop⟩

/-- Splicing places each instruction once. -/
theorem splice_perm : c'.instructions.Perm (c.instructions ++ ins.flatMap Insertion.ops) := by
  obtain ⟨hrange, rfl⟩ := splice_ok_iff.mp h
  have hall : (ins.filter fun x => 0 ≤ x.index ∧ x.index ≤ 0 + c.instructions.length) = ins := by
    rw [List.filter_eq_self]
    intro x hx
    simpa [size] using hrange x hx
  have hperm := interleave_perm ins c.instructions 0
  rwa [hall] at hperm

/-- Spliced code sets the labels of the code and of the insertions. -/
theorem labelsSet_splice : (labelsSet c'.instructions).Perm
    (labelsSet c.instructions ++ ins.flatMap fun x => labelsSet x.ops) := by
  have hperm := (splice_perm h).filterMap Instruction.label?
  rw [List.filterMap_append, List.filterMap_flatMap] at hperm
  exact hperm

/-- Where an inserted label or a label of the code is in spliced code. -/
theorem setLabel_splice {l : Label} {p : Nat} :
    c'.instructions[p]? = some (.setLabel l) →
      (∃ i, p = position ins i ∧ c.instructions[i]? = some (.setLabel l)) ∨
      ∃ x ∈ ins, l ∈ labelsSet x.ops := by
  intro hp
  obtain ⟨i, k, rfl, hk⟩ := exists_landing ins p
  rcases Nat.lt_or_eq_of_le hk with hk | rfl
  · right
    by_cases hi : i ≤ c.size
    · rw [getElem?_landing h hi hk] at hp
      obtain ⟨x, hx, hop⟩ := List.mem_flatMap.mp (List.mem_of_getElem? hp)
      refine ⟨x, (List.mem_filter.mp hx).1, ?_⟩
      obtain ⟨j, hj⟩ := List.mem_iff_getElem?.mp hop
      exact mem_labelsSet.mpr ⟨j, hj⟩
    · -- nothing is inserted past the end
      obtain ⟨hrange, -⟩ := splice_ok_iff.mp h
      have hnil : insertedAt ins i = [] := by
        rw [insertedAt, List.filter_eq_nil_iff.mpr]
        · rfl
        · intro x hx
          have := hrange x hx
          simp only [decide_eq_true_eq]
          omega
      have := length_insertedAt ins i
      simp only [hnil, List.length_nil] at this
      omega
  · left
    refine ⟨i, rfl, ?_⟩
    rwa [← position, getElem?_position h] at hp

/-- A label that no insertion sets is found where its instruction is. -/
theorem labelIndex?_splice {l : Label} (hl : ∀ x ∈ ins, l ∉ labelsSet x.ops) :
    c'.labelIndex? l = (c.labelIndex? l).map (position ins) := by
  have hback : ∀ p : Nat, c'.instructions[p]? = some (.setLabel l) →
      ∃ i, p = position ins i ∧ c.instructions[i]? = some (.setLabel l) := by
    intro p hp
    rcases setLabel_splice h hp with hi | ⟨x, hx, hmem⟩
    · exact hi
    · exact absurd hmem (hl x hx)
  cases ht : c.labelIndex? l with
  | none =>
      rw [labelIndex?_eq_none_iff] at ht
      rw [Option.map_none, labelIndex?_eq_none_iff]
      intro p hp
      obtain ⟨i, -, hi⟩ := hback p hp
      exact ht i hi
  | some t =>
      obtain ⟨hset, hlast⟩ := labelIndex?_eq_some_iff.mp ht
      rw [Option.map_some, labelIndex?_eq_some_iff]
      refine ⟨by rw [getElem?_position h, hset], ?_⟩
      intro p hlt hp
      obtain ⟨i, rfl, hi⟩ := hback p hp
      have hti : t < i := by
        by_contra hle
        rcases Nat.lt_or_eq_of_le (Nat.le_of_not_lt hle) with hit | rfl
        · have := @position_strictMono ins _ _ hit
          omega
        · omega
      exact hlast i hti hi

/-- Where no label is set twice, a label of the code is found where its instruction is. -/
theorem labelIndex?_position (hlabels : (labelsSet c'.instructions).Nodup) {l : Label} {t : Nat}
    (ht : c.labelIndex? l = some t) : c'.labelIndex? l = some (position ins t) := by
  have hset : c'.instructions[position ins t]? = some (.setLabel l) := by
    rw [getElem?_position h, (labelIndex?_eq_some_iff.mp ht).1]
  rw [labelIndex?_eq_some_iff]
  refine ⟨hset, ?_⟩
  intro j hj hset'
  have := index_unique_of_nodup hlabels hset hset'
  omega

end Labels

end Code
end TrackedExpr
