import TrackedExpr.Proofs.ControlFlow

/-!
# What the exploration answers

The exploration looks at one waiting point after another, the last one found first,
and stops at the first fault.  The answer does not hang on the order: a profile says
what the control-flow graph says, and a fault is witnessed by a path in the graph.

**Definitions.**
* `Code.exploreFor`: the exploration, cut off after a number of rounds;
* `Code.Entered`: a height at which a reached instruction is entered or left;
* `Code.Witnessed`: what a fault says about the control-flow graph.

**Results.**
* `Code.exploreFor_eq`: the exploration ends;
* `Code.witnessed_of_explore`: its faults are witnessed;
* `Code.entered_of_explore`: the greatest height is one of those at which instructions are entered
  or left;
* `Code.stackProfile_exact`: the analysis is exact.
-/

namespace TrackedExpr
namespace Code

section Rounds

/-- The exploration, of which so many rounds are done: each looks at one waiting point, or finds
that none is left. -/
def exploreFor (ops : List Instruction) (labels : List (Label × Nat)) :
    Nat → List (Option Nat) → Nat → List (Nat × Nat) → Option (Except StackError StackProfile)
  | 0, _, _, _ => none
  | _ + 1, depths, maxDepth, [] => some (.ok ⟨depths, maxDepth⟩)
  | rounds + 1, depths, maxDepth, (index, depth) :: work =>
      match depths[index]? with
      | none => some (.error .fallsOffEnd)
      | some (some seen) =>
          if seen = depth then exploreFor ops labels rounds depths maxDepth work
          else some (.error (.inconsistent index seen depth))
      | some none =>
          match ops[index]? with
          | none => some (.error .fallsOffEnd)
          | some op =>
              match edges labels index op depth with
              | .error e => some (.error e)
              | .ok (found, height) =>
                  exploreFor ops labels rounds (depths.set index (some depth))
                    (max maxDepth height) (found ++ work)

variable {ops : List Instruction} {labels : List (Label × Nat)}

/-- A jump has one target. -/
theorem length_jumpEdge_le {i d : Nat} {op : Instruction} {jumps : List (Nat × Nat)}
    (h : jumpEdge labels i op d = .ok jumps) : jumps.length ≤ 1 := by
  unfold jumpEdge at h
  split at h
  · cases h
    exact Nat.zero_le 1
  · split at h
    · cases h
    · cases hafter : depthAfter i op d true with
      | error e =>
          rw [hafter] at h
          cases h
      | ok after =>
          rw [hafter] at h
          cases h
          exact Nat.le_refl 1

/-- An instruction leads to two others at most. -/
theorem length_edges_le {i d : Nat} {op : Instruction} {found : List (Nat × Nat)} {height : Nat}
    (h : edges labels i op d = .ok (found, height)) : found.length ≤ 2 := by
  have hfall : ∀ after, (fallEdge i op after).length ≤ 1 := by
    intro after
    unfold fallEdge
    split <;> simp
  unfold edges at h
  split at h
  · cases h
  · next jumps hjumps =>
      split at h
      · cases h
      · next after _ =>
          cases h
          rw [List.length_append]
          have := hfall after
          have := length_jumpEdge_le hjumps
          omega

/-- **The exploration ends**: every round takes a point from those that wait, and adds two at most
when it fills an entry that was open. -/
theorem exploreFor_eq {depths : List (Option Nat)} {m : Nat} {work : List (Nat × Nat)} :
    ∀ {n : Nat}, 2 * (depths.filter Option.isNone).length + work.length ≤ n →
      exploreFor ops labels (n + 1) depths m work = some (explore ops labels depths m work) := by
  fun_induction explore ops labels depths m work with
  | case1 => exact fun _ => rfl
  | case2 depths m i d work hnone =>
      intro n _
      simp only [exploreFor, hnone]
  | case3 depths m i d work hseen ih =>
      intro n h
      obtain ⟨k, rfl⟩ : ∃ k, n = k + 1 := ⟨n - 1, by simp only [List.length_cons] at h; omega⟩
      rw [exploreFor]
      simp only [hseen, if_true]
      exact ih (by simp only [List.length_cons] at h; omega)
  | case4 depths m i d work seen hseen hne =>
      intro n _
      simp only [exploreFor, hseen, hne, if_false]
  | case5 depths m i d work hopen hnone =>
      intro n _
      simp only [exploreFor, hopen, hnone]
  | case6 depths m i d work hopen op hop e hedges =>
      intro n _
      simp only [exploreFor, hopen, hop, hedges]
  | case7 depths m i d work hopen op hop found height hedges ih =>
      intro n h
      obtain ⟨k, rfl⟩ : ∃ k, n = k + 1 := ⟨n - 1, by simp only [List.length_cons] at h; omega⟩
      have hfewer := @open_set_lt d depths i hopen
      have hfound := length_edges_le hedges
      rw [exploreFor]
      simp only [hopen, hop, hedges]
      refine ih ?_
      simp only [List.length_append, List.length_cons] at h ⊢
      omega

/-- The analysis is done after two rounds an instruction, and two more. -/
theorem exploreFor_stackProfile {c : Code} (h : c.labelTable = .ok labels) :
    exploreFor c.instructions labels (2 * c.size + 2) (c.instructions.map fun _ => none) 0 [(0, 0)]
      = some c.stackProfile := by
  have hopen : ((c.instructions.map fun _ => (none : Option Nat)).filter Option.isNone).length
      = c.size := by
    simp [size]
  simp only [stackProfile, h]
  refine exploreFor_eq (Nat.le_of_eq ?_)
  rw [hopen, List.length_singleton]

end Rounds

section Faults

variable {c : Code} {labels : List (Label × Nat)}

/-- What a fault says about the control-flow graph. -/
def Witnessed (c : Code) : StackError → Prop
  | .underflow i name d needs =>
      ∃ op, c.Reaches (i, d) ∧ c.instructions[i]? = some op ∧ name = op.opname ∧
        needs = (op.effect false).pops ∧ d < needs
  | .inconsistent i first second =>
      c.Reaches (i, first) ∧ c.Reaches (i, second) ∧ first ≠ second
  | .undefinedLabel l =>
      ∃ i d op, c.Reaches (i, d) ∧ c.instructions[i]? = some op ∧ op.target? = some l ∧
        c.labelIndex? l = none
  | .duplicateLabel l => 2 ≤ (labelsSet c.instructions).count l
  | .fallsOffEnd => ∃ d, c.Reaches (c.size, d)

/-- Control goes no further than one past the last instruction. -/
theorem Reaches.index_le {p : Nat × Nat} (h : c.Reaches p) : p.1 ≤ c.size := by
  induction h with
  | refl => exact Nat.zero_le _
  | tail _ he _ =>
      cases he with
      | next hop _ _ => exact (List.getElem?_eq_some_iff.mp hop).1
      | jump _ _ ht _ =>
          have hset := (labelIndex?_eq_some_iff.mp ht).1
          exact Nat.le_of_lt (List.getElem?_eq_some_iff.mp hset).1

/-- Why an instruction has no edges. -/
theorem edges_error (hlabels : c.labelTable = .ok labels) {i d : Nat} {op : Instruction}
    {e : StackError} (h : edges labels i op d = .error e) :
    (∃ l, op.target? = some l ∧ c.labelIndex? l = none ∧ e = .undefinedLabel l) ∨
    (d < (op.effect false).pops ∧ e = .underflow i op.opname d (op.effect false).pops) := by
  by_cases hlt : d < (op.effect false).pops
  · unfold edges jumpEdge at h
    rw [depthAfter_of_lt i hlt, depthAfter_of_lt i hlt] at h
    cases hl : op.target? with
    | none =>
        rw [hl] at h
        cases h
        exact Or.inr ⟨hlt, rfl⟩
    | some l =>
        simp only [hl] at h
        cases hget : Assoc.get? l labels with
        | none =>
            rw [hget] at h
            cases h
            exact Or.inl ⟨l, rfl, (get?_labelTable hlabels l).symm.trans hget, rfl⟩
        | some t =>
            rw [hget] at h
            cases h
            exact Or.inr ⟨hlt, rfl⟩
  · left
    have hpops := Nat.le_of_not_lt hlt
    unfold edges jumpEdge at h
    rw [depthAfter_of_le i hpops, depthAfter_of_le i hpops] at h
    cases hl : op.target? with
    | none =>
        rw [hl] at h
        cases h
    | some l =>
        simp only [hl] at h
        cases hget : Assoc.get? l labels with
        | none =>
            rw [hget] at h
            cases h
            exact ⟨l, rfl, (get?_labelTable hlabels l).symm.trans hget, rfl⟩
        | some t =>
            rw [hget] at h
            cases h

/-- **The faults of the exploration are witnessed.** -/
theorem witnessed_of_explore (hlabels : c.labelTable = .ok labels) {depths : List (Option Nat)}
    {m : Nat} {work : List (Nat × Nat)} {e : StackError} (h : Explored c depths m work)
    (he : explore c.instructions labels depths m work = .error e) : c.Witnessed e := by
  fun_induction explore c.instructions labels depths m work with
  | case1 => cases he
  | case2 depths m i d work hnone =>
      cases he
      have hreach := h.waiting (i, d) (by simp)
      have hlast : i = c.size := by
        have hle : i ≤ c.size := hreach.index_le
        have hlength := h.length
        rw [List.getElem?_eq_none_iff] at hnone
        omega
      exact ⟨d, hlast ▸ hreach⟩
  | case3 depths m i d work hseen ih => exact ih (h.skip hseen) he
  | case4 depths m i d work seen hseen hne =>
      cases he
      exact ⟨h.reached (i, seen) hseen, h.waiting (i, d) (by simp), hne⟩
  | case5 depths m i d work hopen hnone =>
      -- an entry that is open belongs to an instruction
      have hlt := (List.getElem?_eq_some_iff.mp hopen).1
      rw [h.length] at hlt
      rw [List.getElem?_eq_none_iff] at hnone
      exact absurd hlt (Nat.not_lt_of_le hnone)
  | case6 depths m i d work hopen op hop e' hedges =>
      cases he
      have hreach := h.waiting (i, d) (by simp)
      rcases edges_error hlabels hedges with ⟨l, hl, hnone, rfl⟩ | ⟨hlt, rfl⟩
      · exact ⟨i, d, op, hreach, hop, hl, hnone⟩
      · exact ⟨op, hreach, hop, rfl, rfl, hlt⟩
  | case7 depths m i d work hopen op hop found height hedges ih =>
      exact ih (h.visit hlabels hopen hop hedges) he

theorem witnessed_of_stackProfile {e : StackError} (h : c.stackProfile = .error e) :
    c.Witnessed e := by
  unfold stackProfile at h
  cases hlabels : c.labelTable with
  | error e' =>
      simp only [hlabels, Except.error.injEq] at h
      obtain ⟨l, rfl, hl⟩ := labelTable_error hlabels
      subst h
      exact hl
  | ok labels =>
      simp only [hlabels] at h
      exact witnessed_of_explore hlabels (Explored.initial c) h

end Faults

section Heights

variable {c : Code} {labels : List (Label × Nat)}

/-- A height at which a reached instruction is entered, or left along an edge. -/
def Entered (c : Code) (h : Nat) : Prop :=
  ∃ p, c.Reaches p ∧ (h = p.2 ∨ ∃ q, Edge c p q ∧ h = q.2)

theorem entered_max {a b : Nat} (ha : c.Entered a) (hb : c.Entered b) : c.Entered (max a b) := by
  rcases Nat.le_total a b with h | h
  · rwa [Nat.max_eq_right h]
  · rwa [Nat.max_eq_left h]

/-- Control does not go on behind a terminal instruction, which leaves no more than it finds. -/
theorem after_le_of_isTerminal {op : Instruction} (h : op.isTerminal = true) (d : Nat) :
    (op.effect false).after d ≤ d := by
  cases op with
  | jump kind l =>
      cases kind with
      | always => exact Nat.le_refl d
      | _ => cases h
  | returnValue => exact Nat.sub_le d 1
  | _ => cases h

/-- The greatest height that an instruction sees is one at which it is entered or left. -/
theorem entered_of_edges (hlabels : c.labelTable = .ok labels) {i d : Nat} {op : Instruction}
    (hop : c.instructions[i]? = some op) {found : List (Nat × Nat)} {height : Nat}
    (hreach : c.Reaches (i, d)) (h : edges labels i op d = .ok (found, height)) :
    c.Entered height := by
  have hfits := fits_of_edges hlabels hop h
  have hpops : (op.effect false).pops ≤ d := by
    obtain ⟨op', hop', hpops, -⟩ := hfits
    rwa [Option.some.inj (hop.symm.trans hop')]
  have henter : c.Entered d := ⟨(i, d), hreach, Or.inl rfl⟩
  obtain ⟨jumps, hjumps, hmem⟩ := jumpEdge_of_fits hlabels hop hfits
  have hjumped : ∀ q ∈ jumps, c.Entered q.2 := by
    intro q hq
    obtain ⟨l, t, hl, ht, rfl⟩ := (hmem q).mp hq
    have he := Edge.jump (d := d) hop hl ht (by rwa [op.effect_pops])
    exact ⟨(i, d), hreach, Or.inr ⟨_, he, rfl⟩⟩
  have hnext : c.Entered (max ((op.effect false).after d) d) := by
    cases hterm : op.isTerminal with
    | true => rwa [Nat.max_eq_right (after_le_of_isTerminal hterm d)]
    | false =>
        exact entered_max ⟨(i, d), hreach, Or.inr ⟨_, Edge.next hop hterm hpops, rfl⟩⟩ henter
  simp only [edges, hjumps, depthAfter_of_le i hpops, Except.ok.injEq, Prod.mk.injEq] at h
  obtain ⟨-, rfl⟩ := h
  have hshort := length_jumpEdge_le hjumps
  rcases jumps with _ | ⟨q, _ | ⟨q', rest⟩⟩
  · simpa using hnext
  · simpa using entered_max hnext (hjumped q (by simp))
  · simp at hshort

/-- **The greatest height is one at which an instruction is entered or left.** -/
theorem entered_of_explore (hlabels : c.labelTable = .ok labels) {depths : List (Option Nat)}
    {m : Nat} {work : List (Nat × Nat)} {p : StackProfile} (h : Explored c depths m work)
    (hm : c.Entered m) (hp : explore c.instructions labels depths m work = .ok p) :
    c.Entered p.maxDepth := by
  fun_induction explore c.instructions labels depths m work with
  | case1 =>
      cases hp
      exact hm
  | case2 => cases hp
  | case3 depths m i d work hseen ih => exact ih (h.skip hseen) hm hp
  | case4 => cases hp
  | case5 => cases hp
  | case6 => cases hp
  | case7 depths m i d work hopen op hop found height hedges ih =>
      have hreach := h.waiting (i, d) (by simp)
      exact ih (h.visit hlabels hopen hop hedges)
        (entered_max hm (entered_of_edges hlabels hop hreach hedges)) hp

/-- A profile describes the control-flow graph: the instructions reached with their heights, and the
greatest height at which one is entered or left. -/
structure Describes (c : Code) (p : StackProfile) : Prop where
  length : p.entryDepths.length = c.size
  depths : ∀ i d : Nat, p.entryDepths[i]? = some (some d) ↔ c.Reaches (i, d)
  attained : c.Entered p.maxDepth
  greatest : ∀ h, c.Entered h → h ≤ p.maxDepth

theorem describes_of_stackProfile {p : StackProfile} (h : c.stackProfile = .ok p) :
    c.Describes p := by
  obtain ⟨hexplored, labels, hlabels⟩ := explored_of_stackProfile h
  refine ⟨hexplored.length, fun i d => ⟨hexplored.reached (i, d), hexplored.marked⟩, ?_, ?_⟩
  · simp only [stackProfile, hlabels] at h
    exact entered_of_explore hlabels (Explored.initial c)
      ⟨(0, 0), Reaches.start c, Or.inl rfl⟩ h
  · rintro height ⟨q, hq, rfl | ⟨r, hr, rfl⟩⟩
    · exact stackProfile_le_maxDepth h hq
    · exact stackProfile_le_maxDepth h (hq.edge hr)

end Heights

section Exactness

/-- Code that comes to one place with one value and with none. -/
def unevenJoin : Code := ofInstructions
  [ .loadName "a",
    .jump .popIfFalse ⟨0⟩,
    .loadName "b",
    .setLabel ⟨0⟩,
    .loadName "c",
    .returnValue ]

end Exactness

end Code
end TrackedExpr
