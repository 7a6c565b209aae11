import Mathlib
import TrackedExpr.Proofs.Labels

/-!
# Control flow and the stack profile

The control-flow graph of a code has as its points an instruction with the stack
height on entry.  It is defined by the effects of the instructions alone; the stack
profile is shown to be its exact description.

**Definitions.**
* `Code.Edge`, `Code.Reaches`: the edges of the graph and the points reached from
  the first instruction with an empty stack;
* `Code.Fits`, `Code.Sound`: what the profile checks;
* `Code.Explored`: the invariant of the exploration.

**Results.**
* `stackProfile_depthAt?`: the profile holds exactly the points reached;
* `sound_of_stackProfile`, `stackProfile_isOk`: code that sets no label twice has
  a profile exactly when every point reached fits and no instruction is reached at
  two heights.
-/

namespace TrackedExpr

/-- The height after an effect. -/
def StackEffect.after (e : StackEffect) (depth : Nat) : Nat := depth - e.pops + e.pushes

/-- Whether a branch is taken does not change what is popped. -/
theorem Instruction.effect_pops (op : Instruction) (taken : Bool) :
    (op.effect taken).pops = (op.effect false).pops := by
  cases op with
  | jump kind l => cases kind <;> rfl
  | _ => rfl

namespace Code

section Graph

/-- An instruction entered at a height leads to another. -/
inductive Edge (c : Code) : Nat × Nat → Nat × Nat → Prop
  | next {i d : Nat} {op : Instruction} :
      c.instructions[i]? = some op →
      op.isTerminal = false →
      (op.effect false).pops ≤ d →
      Edge c (i, d) (i + 1, (op.effect false).after d)
  | jump {i d t : Nat} {op : Instruction} {l : Label} :
      c.instructions[i]? = some op →
      op.target? = some l →
      c.labelIndex? l = some t →
      (op.effect true).pops ≤ d →
      Edge c (i, d) (t, (op.effect true).after d)

/-- The points that control reaches from the first instruction with an empty stack. -/
def Reaches (c : Code) : Nat × Nat → Prop := Relation.ReflTransGen (Edge c) (0, 0)

theorem Reaches.start (c : Code) : c.Reaches (0, 0) := Relation.ReflTransGen.refl

theorem Reaches.edge {c : Code} {p q : Nat × Nat} (h : c.Reaches p) (he : Edge c p q) :
    c.Reaches q :=
  Relation.ReflTransGen.tail h he

/-- There is an instruction, the height suffices for it, and its jump has a target. -/
def Fits (c : Code) (p : Nat × Nat) : Prop :=
  ∃ op, c.instructions[p.1]? = some op ∧ (op.effect false).pops ≤ p.2 ∧
    ∀ l, op.target? = some l → ∃ t, c.labelIndex? l = some t

/-- Every point reached fits, and no instruction is reached at two heights. -/
structure Sound (c : Code) : Prop where
  fits : ∀ p, c.Reaches p → c.Fits p
  unique : ∀ i d e, c.Reaches (i, d) → c.Reaches (i, e) → d = e

end Graph

section Edges

variable {c : Code} {labels : List (Label × Nat)} (hlabels : c.labelTable = .ok labels)
  {i d : Nat} {op : Instruction} (hop : c.instructions[i]? = some op)

theorem depthAfter_of_le {op : Instruction} {taken : Bool} (i : Nat)
    (h : (op.effect false).pops ≤ d) :
    depthAfter i op d taken = .ok ((op.effect taken).after d) := by
  have hlt : ¬ d < (op.effect taken).pops := by
    rw [Instruction.effect_pops]
    omega
  simp [depthAfter, hlt, StackEffect.after]

theorem depthAfter_of_lt {op : Instruction} {taken : Bool} (i : Nat)
    (h : d < (op.effect false).pops) :
    depthAfter i op d taken
      = .error (.underflow i op.opname d (op.effect false).pops) := by
  rw [← op.effect_pops taken] at h ⊢
  simp [depthAfter, h]

include hlabels hop

/-- The jump of an instruction that fits leads to its label. -/
theorem jumpEdge_of_fits (hfits : c.Fits (i, d)) :
    ∃ jumps, jumpEdge labels i op d = .ok jumps ∧
      ∀ q, q ∈ jumps ↔ ∃ l t, op.target? = some l ∧ c.labelIndex? l = some t ∧
        q = (t, (op.effect true).after d) := by
  obtain ⟨op', hop', hpops, htarget⟩ := hfits
  obtain rfl : op = op' := Option.some.inj (hop.symm.trans hop')
  cases hl : op.target? with
  | none => exact ⟨[], by simp [jumpEdge, hl], by simp⟩
  | some l =>
      obtain ⟨t, ht⟩ := htarget l hl
      have hget : Assoc.get? l labels = some t := by rw [get?_labelTable hlabels, ht]
      refine ⟨[(t, (op.effect true).after d)], ?_, ?_⟩
      · simp [jumpEdge, hl, hget, depthAfter_of_le i hpops, Except.map]
      · intro q
        rw [List.mem_singleton]
        constructor
        · rintro rfl
          exact ⟨l, t, rfl, ht, rfl⟩
        · rintro ⟨l', t', hl', ht', rfl⟩
          cases hl'
          rw [Option.some.inj (ht.symm.trans ht')]

/-- The edges found at an instruction that fits are those of the graph. -/
theorem edges_of_fits (hfits : c.Fits (i, d)) :
    ∃ found height, edges labels i op d = .ok (found, height) ∧ d ≤ height ∧
      ∀ q, q ∈ found ↔ Edge c (i, d) q := by
  obtain ⟨jumps, hjumps, hmem⟩ := jumpEdge_of_fits hlabels hop hfits
  obtain ⟨op', hop', hpops, -⟩ := hfits
  obtain rfl : op = op' := Option.some.inj (hop.symm.trans hop')
  have hpops' : (op.effect true).pops ≤ d := by rwa [op.effect_pops]
  refine ⟨fallEdge i op ((op.effect false).after d) ++ jumps,
    max (max ((op.effect false).after d) d) ((jumps.map Prod.snd).foldl max 0), ?_, by omega, ?_⟩
  · simp [edges, hjumps, depthAfter_of_le i hpops]
  · intro q
    rw [List.mem_append, hmem]
    constructor
    · rintro (hq | ⟨l, t, hl, ht, rfl⟩)
      · cases hterm : op.isTerminal with
        | true => simp [fallEdge, hterm] at hq
        | false =>
            obtain rfl : q = (i + 1, (op.effect false).after d) := by
              simpa [fallEdge, hterm] using hq
            exact Edge.next hop hterm hpops
      · exact Edge.jump hop hl ht hpops'
    · intro he
      cases he with
      | next hop' hterm _ =>
          obtain rfl := Option.some.inj (hop.symm.trans hop')
          exact Or.inl (by simp [fallEdge, hterm])
      | jump hop' hl ht _ =>
          obtain rfl := Option.some.inj (hop.symm.trans hop')
          exact Or.inr ⟨_, _, hl, ht, rfl⟩

/-- Edges are found only at an instruction that fits. -/
theorem fits_of_edges {r : List (Nat × Nat) × Nat} (h : edges labels i op d = .ok r) :
    c.Fits (i, d) := by
  have hpops : (op.effect false).pops ≤ d := by
    by_contra hlt
    unfold edges at h
    rw [depthAfter_of_lt i (by omega)] at h
    split at h <;> simp at h
  refine ⟨op, hop, hpops, ?_⟩
  intro l hl
  cases ht : c.labelIndex? l with
  | some t => exact ⟨t, rfl⟩
  | none =>
      have hget : Assoc.get? l labels = none := by rw [get?_labelTable hlabels, ht]
      simp [edges, jumpEdge, hl, hget] at h

end Edges

section Exploration

/-- Whether a point is marked. -/
def Marked (depths : List (Option Nat)) (p : Nat × Nat) : Prop :=
  depths[p.1]? = some (some p.2)

/-- What holds while the control flow is followed: marked and waiting points are reached, marked
points fit, and what they lead to is marked or waiting. -/
structure Explored (c : Code) (depths : List (Option Nat)) (maxDepth : Nat)
    (work : List (Nat × Nat)) : Prop where
  length : depths.length = c.size
  origin : Marked depths (0, 0) ∨ (0, 0) ∈ work
  waiting : ∀ p ∈ work, c.Reaches p
  reached : ∀ p, Marked depths p → c.Reaches p
  fits : ∀ p, Marked depths p → c.Fits p
  closed : ∀ p q, Marked depths p → Edge c p q → Marked depths q ∨ q ∈ work
  bounded : ∀ p, Marked depths p → p.2 ≤ maxDepth

theorem marked_set {depths : List (Option Nat)} {i d : Nat} {p : Nat × Nat}
    (hopen : depths[i]? = some none) :
    Marked (depths.set i (some d)) p ↔ p = (i, d) ∨ Marked depths p := by
  obtain ⟨j, e⟩ := p
  have hi : i < depths.length := (List.getElem?_eq_some_iff.mp hopen).1
  by_cases hij : i = j
  · subst hij
    simp only [Marked, List.getElem?_set_self hi, hopen, Prod.mk.injEq, true_and]
    simp [eq_comm]
  · simp [Marked, List.getElem?_set_ne hij, Ne.symm hij]

theorem Explored.skip {c : Code} {depths : List (Option Nat)} {m : Nat} {p : Nat × Nat}
    {work : List (Nat × Nat)} (h : Explored c depths m (p :: work)) (hp : Marked depths p) :
    Explored c depths m work where
  length := h.length
  origin := by
    rcases h.origin with h0 | h0
    · exact Or.inl h0
    · rcases List.mem_cons.mp h0 with rfl | h0
      · exact Or.inl hp
      · exact Or.inr h0
  waiting := fun q hq => h.waiting q (List.mem_cons_of_mem _ hq)
  reached := h.reached
  fits := h.fits
  closed := by
    intro q r hq he
    rcases h.closed q r hq he with hr | hr
    · exact Or.inl hr
    · rcases List.mem_cons.mp hr with rfl | hr
      · exact Or.inl hp
      · exact Or.inr hr
  bounded := h.bounded

theorem Explored.mark {c : Code} {depths : List (Option Nat)} {m height i d : Nat}
    {work found : List (Nat × Nat)} (h : Explored c depths m ((i, d) :: work))
    (hopen : depths[i]? = some none) (hfits : c.Fits (i, d)) (hheight : d ≤ height)
    (hfound : ∀ q, q ∈ found ↔ Edge c (i, d) q) :
    Explored c (depths.set i (some d)) (max m height) (found ++ work) := by
  have hreach : c.Reaches (i, d) := h.waiting (i, d) (by simp)
  -- what waited still waits, except the point that is now marked
  have hmove : ∀ q, Marked depths q ∨ q ∈ (i, d) :: work →
      Marked (depths.set i (some d)) q ∨ q ∈ found ++ work := by
    rintro q (hq | hq)
    · exact Or.inl ((marked_set hopen).mpr (Or.inr hq))
    · rcases List.mem_cons.mp hq with rfl | hq
      · exact Or.inl ((marked_set hopen).mpr (Or.inl rfl))
      · exact Or.inr (List.mem_append_right _ hq)
  refine ⟨by simpa using h.length, hmove _ h.origin, ?_, ?_, ?_, ?_, ?_⟩
  · intro q hq
    rcases List.mem_append.mp hq with hq | hq
    · exact hreach.edge ((hfound q).mp hq)
    · exact h.waiting q (List.mem_cons_of_mem _ hq)
  · intro q hq
    rcases (marked_set hopen).mp hq with rfl | hq
    · exact hreach
    · exact h.reached q hq
  · intro q hq
    rcases (marked_set hopen).mp hq with rfl | hq
    · exact hfits
    · exact h.fits q hq
  · intro q r hq he
    rcases (marked_set hopen).mp hq with rfl | hq
    · exact Or.inr (List.mem_append_left _ ((hfound r).mpr he))
    · exact hmove r (h.closed q r hq he)
  · intro q hq
    rcases (marked_set hopen).mp hq with rfl | hq
    · exact Nat.le_trans hheight (Nat.le_max_right _ _)
    · exact Nat.le_trans (h.bounded q hq) (Nat.le_max_left _ _)

variable {c : Code} {labels : List (Label × Nat)} (hlabels : c.labelTable = .ok labels)
include hlabels

/-- Looking at a point marks it, and what it leads to waits. -/
theorem Explored.visit {depths : List (Option Nat)} {m height i d : Nat} {op : Instruction}
    {work found : List (Nat × Nat)} (h : Explored c depths m ((i, d) :: work))
    (hopen : depths[i]? = some none) (hop : c.instructions[i]? = some op)
    (hedges : edges labels i op d = .ok (found, height)) :
    Explored c (depths.set i (some d)) (max m height) (found ++ work) := by
  have hfits := fits_of_edges hlabels hop hedges
  obtain ⟨found', height', hedges', hheight, hfound⟩ := edges_of_fits hlabels hop hfits
  obtain ⟨rfl, rfl⟩ : found = found' ∧ height = height' := by
    simpa using hedges.symm.trans hedges'
  exact h.mark hopen hfits hheight hfound

/-- A finished exploration has nothing left to look at. -/
theorem explored_of_explore {depths : List (Option Nat)} {m : Nat} {work : List (Nat × Nat)}
    {p : StackProfile} (h : Explored c depths m work)
    (hp : explore c.instructions labels depths m work = .ok p) :
    Explored c p.entryDepths p.maxDepth [] := by
  fun_induction explore c.instructions labels depths m work with
  | case1 depths m =>
      cases hp
      exact h
  | case2 => cases hp
  | case3 depths m i d work hseen ih => exact ih (h.skip hseen) hp
  | case4 => cases hp
  | case5 => cases hp
  | case6 => cases hp
  | case7 depths m i d work hopen op hop found height hedges ih =>
      exact ih (h.visit hlabels hopen hop hedges) hp

/-- The exploration of sound code finishes with a profile. -/
theorem explore_isOk {depths : List (Option Nat)} {m : Nat} {work : List (Nat × Nat)}
    (hsound : c.Sound) (h : Explored c depths m work) :
    ∃ p, explore c.instructions labels depths m work = .ok p := by
  fun_induction explore c.instructions labels depths m work with
  | case1 depths m => exact ⟨_, rfl⟩
  | case2 depths m i d work hnone =>
      obtain ⟨op, hop, -⟩ := hsound.fits (i, d) (h.waiting _ (by simp))
      have hi : i < c.instructions.length := (List.getElem?_eq_some_iff.mp hop).1
      have hlen : depths.length = c.instructions.length := h.length
      rw [List.getElem?_eq_none_iff] at hnone
      omega
  | case3 depths m i d work hseen ih => exact ih (h.skip hseen)
  | case4 depths m i d work seen hseen hne =>
      exact absurd (hsound.unique i seen d (h.reached (i, seen) hseen) (h.waiting _ (by simp))) hne
  | case5 depths m i d work hopen hnone =>
      obtain ⟨op, hop, -⟩ := hsound.fits (i, d) (h.waiting _ (by simp))
      simp [hop] at hnone
  | case6 depths m i d work hopen op hop e hedges =>
      obtain ⟨found, height, hok, -⟩ :=
        edges_of_fits hlabels hop (hsound.fits (i, d) (h.waiting _ (by simp)))
      simp [hedges] at hok
  | case7 depths m i d work hopen op hop found height hedges ih =>
      exact ih (h.visit hlabels hopen hop hedges)

end Exploration

section Profile

variable {c : Code}

theorem Explored.initial (c : Code) :
    Explored c (c.instructions.map fun _ => none) 0 [(0, 0)] := by
  have hopen : ∀ p, ¬ Marked (c.instructions.map fun _ => (none : Option Nat)) p := by
    intro p hp
    obtain ⟨op, -, hop⟩ := by
        simpa only [Marked, List.getElem?_map, Option.map_eq_some_iff] using hp
    cases hop
  refine ⟨by simp [size], Or.inr (by simp), ?_, ?_, ?_, ?_, ?_⟩
  · intro p hp
    rw [List.mem_singleton.mp hp]
    exact Reaches.start c
  · exact fun p hp => absurd hp (hopen p)
  · exact fun p hp => absurd hp (hopen p)
  · exact fun p _ hp => absurd hp (hopen p)
  · exact fun p hp => absurd hp (hopen p)

/-- A profile is a finished exploration. -/
theorem explored_of_stackProfile {p : StackProfile} (h : c.stackProfile = .ok p) :
    Explored c p.entryDepths p.maxDepth [] ∧ ∃ labels, c.labelTable = .ok labels := by
  unfold stackProfile at h
  cases hlabels : c.labelTable with
  | error e => simp [hlabels] at h
  | ok labels =>
      simp only [hlabels] at h
      exact ⟨explored_of_explore hlabels (Explored.initial c) h, labels, rfl⟩

theorem depthAt?_eq_some_iff {p : StackProfile} {i d : Nat} :
    p.depthAt? i = some d ↔ Marked p.entryDepths (i, d) := by
  simp [StackProfile.depthAt?, Marked, Option.join_eq_some_iff]

/-- Every point reached is marked when nothing is left to look at. -/
theorem Explored.marked {depths : List (Option Nat)} {m : Nat} (h : Explored c depths m [])
    {q : Nat × Nat} (hq : c.Reaches q) : Marked depths q := by
  induction hq with
  | refl => exact h.origin.resolve_right (by simp)
  | tail _ he ih => exact (h.closed _ _ ih he).resolve_right (by simp)

/-- The profile holds exactly the points reached. -/
theorem stackProfile_depthAt? {p : StackProfile} (h : c.stackProfile = .ok p) {i d : Nat} :
    p.depthAt? i = some d ↔ c.Reaches (i, d) := by
  have hexp := (explored_of_stackProfile h).1
  rw [depthAt?_eq_some_iff]
  exact ⟨hexp.reached _, hexp.marked⟩

/-- Code with a profile is sound. -/
theorem sound_of_stackProfile {p : StackProfile} (h : c.stackProfile = .ok p) : c.Sound where
  fits := fun q hq => by
    have hexp := (explored_of_stackProfile h).1
    exact hexp.fits q (hexp.marked hq)
  unique := fun i d e hd he => by
    rw [← stackProfile_depthAt? h] at hd he
    exact Option.some.inj (hd.symm.trans he)

theorem stackProfile_le_maxDepth {p : StackProfile} (h : c.stackProfile = .ok p)
    {q : Nat × Nat} (hq : c.Reaches q) : q.2 ≤ p.maxDepth := by
  have hexp := (explored_of_stackProfile h).1
  exact hexp.bounded q (hexp.marked hq)

/-- Sound code that sets no label twice has a profile. -/
theorem stackProfile_isOk (hlabels : (labelsSet c.instructions).Nodup) (hsound : c.Sound) :
    ∃ p, c.stackProfile = .ok p := by
  obtain ⟨labels, hlabels⟩ := labelTable_ok_iff.mpr hlabels
  simp only [stackProfile, hlabels]
  exact explore_isOk hlabels hsound (Explored.initial c)

end Profile

end Code
end TrackedExpr
