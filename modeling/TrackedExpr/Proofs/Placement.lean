import Mathlib
import TrackedExpr.Proofs.Splicing

/-!
# What splicing places where

The plain account of splicing goes through the indices in turn.  The positions that
are answered beside it are counted without looking at the result; they are where the
instructions of the code have gone, in order.

**Definitions.**
* `inTurn`: for every index in turn, what is inserted there and the instruction;
* `AlikeAtEach`: insertions of which only those at different indices are exchanged;
* `keptAt`: what stands at chosen places.

**Results.**
* `interleave_eq_inTurn`: interleaving goes through the indices in turn;
* `splice_error_iff`: the first insertion past the end is refused;
* `keptAt_of_increasing`: what is kept at increasing places stands there in order;
* `splice_exact`: splicing and the positions agree with the plain account.
-/

namespace TrackedExpr

namespace Code

/-- For every index in turn, what is inserted there, in the order given, and the instruction. -/
def inTurn (ins : List Insertion) (ops : List Instruction) : List Instruction :=
  (List.range (ops.length + 1)).flatMap fun i => insertedAt ins i ++ ops[i]?.toList

/-- At every index the same is inserted in the same order, so that one list is the other with
insertions at different indices exchanged. -/
def AlikeAtEach (ins ins' : List Insertion) : Prop :=
  ∀ i : Nat, (ins.filter fun x => x.index = i) = ins'.filter fun x => x.index = i

/-- What stands at the given places of a list, in the order of the list. -/
def keptAt {α : Type} (places : List Nat) (l : List α) : List α :=
  (l.zipIdx.filter fun e => e.2 ∈ places).map Prod.fst

section Plain

variable {c c' : Code} {ins ins' : List Insertion}

theorem interleave_eq_flatMap (ins : List Insertion) :
    ∀ (ops : List Instruction) (s : Nat), interleave ins s ops
      = (List.range (ops.length + 1)).flatMap fun i => insertedAt ins (s + i) ++ ops[i]?.toList
  | [], s => by simp [interleave]
  | op :: rest, s => by
      rw [interleave, interleave_eq_flatMap ins rest (s + 1), List.length_cons,
        List.range_succ_eq_map (n := rest.length + 1), List.flatMap_cons, List.flatMap_map]
      simp [Nat.add_right_comm, Nat.add_assoc]

/-- Interleaving goes through the indices in turn. -/
theorem interleave_eq_inTurn (ins : List Insertion) (ops : List Instruction) :
    interleave ins 0 ops = inTurn ins ops := by
  simp [interleave_eq_flatMap, inTurn]

/-- **The first insertion past the end is refused**, and nothing else. -/
theorem splice_error_iff {e : SpliceError} : c.splice ins = .error e ↔
    ∃ pre bad post, ins = pre ++ bad :: post ∧ (∀ x ∈ pre, x.index ≤ c.size) ∧
      c.size < bad.index ∧ e = .outOfRange bad.index c.size := by
  unfold splice
  cases hfind : ins.find? fun x => c.size < x.index with
  | none =>
      have hrange : ∀ x ∈ ins, x.index ≤ c.size := by simpa using hfind
      simp only [reduceCtorEq, false_iff]
      rintro ⟨pre, bad, post, rfl, -, hbad, -⟩
      exact absurd (hrange bad (by simp)) (Nat.not_le_of_lt hbad)
  | some first =>
      simp only [Except.error.injEq]
      constructor
      · rintro rfl
        obtain ⟨hfirst, pre, post, rfl, hpre⟩ := List.find?_eq_some_iff_append.mp hfind
        exact ⟨pre, first, post, rfl, by simpa using hpre, by simpa using hfirst, rfl⟩
      · rintro ⟨pre, bad, post, rfl, hpre, hbad, rfl⟩
        have hnone : pre.find? (fun x => c.size < x.index) = none := by simpa using hpre
        rw [List.find?_append, hnone, Option.none_or, List.find?_cons_of_pos (by simpa using hbad)]
          at hfind
        rw [Option.some.inj hfind]

theorem AlikeAtEach.insertedAt_eq (h : AlikeAtEach ins ins') (i : Nat) :
    insertedAt ins' i = insertedAt ins i := by
  rw [insertedAt, insertedAt, h i]

theorem AlikeAtEach.index_le (h : AlikeAtEach ins ins') {n : Nat}
    (hrange : ∀ x ∈ ins, x.index ≤ n) : ∀ x ∈ ins', x.index ≤ n := by
  intro x hx
  have hmem : x ∈ ins'.filter fun y => y.index = x.index := by simpa using hx
  rw [← h x.index] at hmem
  exact hrange x (List.mem_filter.mp hmem).1

/-- Exchanging insertions at different indices changes nothing in the result. -/
theorem AlikeAtEach.splice_eq (h : AlikeAtEach ins ins') (hok : c.splice ins = .ok c') :
    c.splice ins' = .ok c' := by
  rw [splice_ok_iff] at hok ⊢
  obtain ⟨hrange, rfl⟩ := hok
  refine ⟨h.index_le hrange, ?_⟩
  rw [interleave_congr fun j _ => (h.insertedAt_eq j).symm]

theorem AlikeAtEach.landing_eq (h : AlikeAtEach ins ins') :
    ∀ i, landing ins' i = landing ins i
  | 0 => rfl
  | i + 1 => by
      rw [landing, landing, h.landing_eq i, ← length_insertedAt, ← length_insertedAt,
        h.insertedAt_eq]

theorem AlikeAtEach.splicedPositions_eq (h : AlikeAtEach ins ins') (c : Code) :
    c.splicedPositions ins' = c.splicedPositions ins := by
  have hposition : position ins' = position ins := by
    funext i
    rw [position, position, h.landing_eq, ← length_insertedAt, ← length_insertedAt,
      h.insertedAt_eq]
  rw [Code.splicedPositions_eq, Code.splicedPositions_eq, hposition]

end Plain

section Positions

variable {c c' : Code} {ins : List Insertion}

theorem splicedPositions_increasing (c : Code) (ins : List Insertion) :
    (c.splicedPositions ins).Pairwise (· < ·) := by
  rw [splicedPositions_eq, List.pairwise_map]
  exact List.pairwise_lt_range.imp position_strictMono

theorem length_splicedPositions (c : Code) (ins : List Insertion) :
    (c.splicedPositions ins).length = c.size := by
  rw [splicedPositions_eq, List.length_map, List.length_range]

/-- The instruction at an index is found at its position. -/
theorem getElem?_of_splicedPositions (hok : c.splice ins = .ok c') {i p : Nat}
    (hp : (c.splicedPositions ins)[i]? = some p) :
    c'.instructions[p]? = c.instructions[i]? := by
  obtain ⟨-, rfl⟩ := getElem?_splicedPositions.mp hp
  exact getElem?_position hok i

/-- Increasing places below a bound are what is left of the numbers below it. -/
theorem filter_range_of_increasing {places : List Nat} {n : Nat}
    (hplaces : places.Pairwise (· < ·)) (hbound : ∀ p ∈ places, p < n) :
    ((List.range n).filter fun p => p ∈ places) = places := by
  have hrange : ((List.range n).filter fun p => p ∈ places).Pairwise (· < ·) :=
    List.pairwise_lt_range.filter _
  refine List.Perm.eq_of_pairwise (fun a b _ _ hab hba => absurd hba (Nat.lt_asymm hab))
    hrange hplaces ?_
  rw [List.perm_ext_iff_of_nodup (hrange.imp Nat.ne_of_lt) (hplaces.imp Nat.ne_of_lt)]
  intro p
  simp only [List.mem_filter, List.mem_range, decide_eq_true_eq, and_iff_right_iff_imp]
  exact hbound p

/-- What is kept at increasing places stands there, in order. -/
theorem keptAt_of_increasing {α : Type} {places : List Nat} {l : List α}
    (hplaces : places.Pairwise (· < ·)) (hbound : ∀ p ∈ places, p < l.length) :
    keptAt places l = places.filterMap fun p => l[p]? := by
  have hpairs : ∀ e ∈ l.zipIdx.filter (fun e => e.2 ∈ places), some e.1 = l[e.2]? := by
    intro e he
    exact (List.mem_zipIdx_iff_getElem?.mp (List.mem_filter.mp he).1).symm
  have hplace : (l.zipIdx.filter fun e => e.2 ∈ places).map Prod.snd = places := by
    have hfilter := List.filter_map (f := Prod.snd) (p := fun p => decide (p ∈ places))
      (l := l.zipIdx)
    rw [List.zipIdx_map_snd, ← List.range_eq_range',
      filter_range_of_increasing hplaces hbound] at hfilter
    exact hfilter.symm
  calc keptAt places l
    _ = (l.zipIdx.filter fun e => e.2 ∈ places).filterMap fun e => some e.1 := by
        rw [keptAt, List.filterMap_eq_map']
    _ = (l.zipIdx.filter fun e => e.2 ∈ places).filterMap fun e => l[e.2]? :=
        List.filterMap_congr hpairs
    _ = ((l.zipIdx.filter fun e => e.2 ∈ places).map Prod.snd).filterMap fun p => l[p]? := by
        rw [List.filterMap_map]
        rfl
    _ = places.filterMap fun p => l[p]? := by rw [hplace]

/-- Every place is kept. -/
theorem filterMap_range {α : Type} (l : List α) :
    ((List.range l.length).filterMap fun p => l[p]?) = l := by
  have hall : (l.zipIdx.filter fun e => e.2 ∈ List.range l.length) = l.zipIdx := by
    rw [List.filter_eq_self]
    intro e he
    have hlt := (List.getElem?_eq_some_iff.mp (List.mem_zipIdx_iff_getElem?.mp he)).1
    simpa using hlt
  rw [← keptAt_of_increasing List.pairwise_lt_range fun p hp => List.mem_range.mp hp, keptAt, hall,
    List.zipIdx_map_fst]

/-- Deleting what is not at a position gives back the code. -/
theorem keptAt_splicedPositions (hok : c.splice ins = .ok c') :
    keptAt (c.splicedPositions ins) c'.instructions = c.instructions := by
  have hfound : ∀ i ∈ List.range c.size,
      c'.instructions[position ins i]? = c.instructions[i]? :=
    fun i _ => getElem?_position hok i
  have hbound : ∀ p ∈ c.splicedPositions ins, p < c'.instructions.length := by
    intro p hp
    obtain ⟨i, hi⟩ := List.mem_iff_getElem?.mp hp
    obtain ⟨hlt, -⟩ := getElem?_splicedPositions.mp hi
    have hp := getElem?_of_splicedPositions hok hi
    rw [List.getElem?_eq_getElem hlt] at hp
    exact (List.getElem?_eq_some_iff.mp hp).1
  rw [keptAt_of_increasing (splicedPositions_increasing c ins) hbound, splicedPositions_eq,
    List.filterMap_map]
  calc (List.range c.size).filterMap _
    _ = (List.range c.size).filterMap fun i => c.instructions[i]? := List.filterMap_congr hfound
    _ = c.instructions := filterMap_range c.instructions

end Positions

/-- **Splicing and the positions agree with the plain account.** -/
theorem splice_exact (c : Code) (ins : List Insertion) :
    (∀ e, c.splice ins = .error e ↔
      ∃ pre bad post, ins = pre ++ bad :: post ∧ (∀ x ∈ pre, x.index ≤ c.size) ∧
        c.size < bad.index ∧ e = .outOfRange bad.index c.size) ∧
    (∀ c', c.splice ins = .ok c' ↔
      (∀ x ∈ ins, x.index ≤ c.size) ∧ c' = ⟨c.name, inTurn ins c.instructions⟩) ∧
    (∀ ins', AlikeAtEach ins ins' →
      c.splicedPositions ins' = c.splicedPositions ins ∧
        ∀ c', c.splice ins = .ok c' → c.splice ins' = .ok c') ∧
    (c.splicedPositions ins).length = c.size ∧
    (c.splicedPositions ins).Pairwise (· < ·) ∧
    ∀ c', c.splice ins = .ok c' →
      (∀ i p : Nat, (c.splicedPositions ins)[i]? = some p →
        c'.instructions[p]? = c.instructions[i]?) ∧
      keptAt (c.splicedPositions ins) c'.instructions = c.instructions := by
  refine ⟨fun _ => splice_error_iff, fun c' => ?_, fun ins' halike => ?_,
    length_splicedPositions c ins, splicedPositions_increasing c ins, fun c' hok => ?_⟩
  · rw [splice_ok_iff, interleave_eq_inTurn]
  · exact ⟨halike.splicedPositions_eq c, fun c' hok => halike.splice_eq hok⟩
  · exact ⟨fun i p hp => getElem?_of_splicedPositions hok hp, keptAt_splicedPositions hok⟩

/-- `a.x + b.y`. -/
def sumOfAttributes : Code := ofInstructions
  [ .loadName "a",
    .loadAttr "x",
    .loadName "b",
    .loadAttr "y",
    .binary .add,
    .returnValue ]

/-- Insertions in no order, two of them at one index and one at the end. -/
def scattered : List Insertion :=
  [ ⟨3, [.dupTop, .popTop]⟩,
    ⟨6, [.setLabel ⟨0⟩]⟩,
    ⟨1, [.dupTop]⟩,
    ⟨1, [.popTop]⟩ ]

/-- The same insertions, those at different indices exchanged. -/
def gathered : List Insertion :=
  [ ⟨1, [.dupTop]⟩,
    ⟨1, [.popTop]⟩,
    ⟨6, [.setLabel ⟨0⟩]⟩,
    ⟨3, [.dupTop, .popTop]⟩ ]

theorem splice_exact_scattered :
    sumOfAttributes.splice gathered = .ok (ofInstructions
      [ .loadName "a", .dupTop, .popTop, .loadAttr "x", .loadName "b", .dupTop, .popTop,
        .loadAttr "y", .binary .add, .returnValue, .setLabel ⟨0⟩ ]) ∧
      sumOfAttributes.splicedPositions gathered = [0, 3, 4, 7, 8, 9] ∧
      sumOfAttributes.splice (⟨7, []⟩ :: ⟨9, [.popTop]⟩ :: scattered)
        = .error (.outOfRange 7 6) := by
  obtain ⟨-, hok, halike, -⟩ := splice_exact sumOfAttributes scattered
  have hexchanged : AlikeAtEach scattered gathered := by
    intro i
    by_cases h1 : i = 1
    · subst h1; rfl
    · by_cases h3 : i = 3
      · subst h3; rfl
      · by_cases h6 : i = 6
        · subst h6; rfl
        · simp [scattered, gathered, Ne.symm h1, Ne.symm h3, Ne.symm h6]
  have hspliced := (hok _).mpr ⟨by decide, rfl⟩
  obtain ⟨hpositions, hsame⟩ := halike gathered hexchanged
  refine ⟨hsame _ hspliced, hpositions.trans rfl, ?_⟩
  refine ((splice_exact sumOfAttributes _).1 _).mpr
    ⟨[], ⟨7, []⟩, ⟨9, [.popTop]⟩ :: scattered, rfl, by simp, by decide, rfl⟩

end Code
end TrackedExpr
