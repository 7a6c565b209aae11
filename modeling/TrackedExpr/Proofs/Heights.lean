import TrackedExpr.Listing.Assembly
import TrackedExpr.Proofs.Exploration
import TrackedExpr.Proofs.Integers
import TrackedExpr.Proofs.Neutrality

/-!
# Stack heights in machine words

The analysis and the instrumentation add up the slots that instructions push, and the count of an
unpacking is any word.  Done in words the sums can overflow: a profile has all its heights in words
exactly if its greatest height is in a word.  A stack never grows higher than all the instructions
together let it grow, so that no sum overflows where this growth is in a word.

**Definitions.**
* `height?`, `Code.profileInWords`, `simulateInWords`, `instrumentInWords`: the computations with
  every sum checked;
* `StackEffect.netInWords`: the change in height with its difference checked;
* `Instruction.growth`, `growth`: the slots that instructions add at most;
* `Code.Bounded`: the invariant of the heights of an exploration.

**Results.**
* `Code.Bounded.mark`, `Code.maxDepth_le_growth`: how high a stack grows;
* `Code.edgesInWords_eq`, `Code.Bounded.exploreInWords_cases`: one step in words, and all steps;
* `simulateInWords_eq_iff`, `instrumentInWords_of_growth`: a straight run and the instrumentation;
* `stack_heights_in_words`: what overflows and what does not.
-/

namespace TrackedExpr

section Definitions

/-- A height that is in a word. -/
def height? (n : Nat) : Option Nat := if n < UInt64.size then some n else none

/-- The change in stack height, with the difference checked; the counts are taken as signed words
unchecked. -/
def StackEffect.netInWords (e : StackEffect) : Option Int64 :=
  word? ((Int64.ofNat e.pushes).toInt - (Int64.ofNat e.pops).toInt)

namespace Code

/-- The height after an instruction, its sum checked. -/
def depthInWords (index : Nat) (op : Instruction) (depth : Nat) (taken : Bool) :
    Option (Except StackError Nat) :=
  let e := op.effect taken
  if depth < e.pops then some (.error (.underflow index op.opname depth e.pops))
  else (height? (depth - e.pops + e.pushes)).map .ok

def jumpEdgeInWords (labels : List (Label × Nat)) (index : Nat) (op : Instruction) (depth : Nat) :
    Option (Except StackError (List (Nat × Nat))) :=
  match op.target? with
  | none => some (.ok [])
  | some l =>
      match Assoc.get? l labels with
      | none => some (.error (.undefinedLabel l))
      | some target =>
          (depthInWords index op depth true).map fun r => r.map fun after => [(target, after)]

def edgesInWords (labels : List (Label × Nat)) (index : Nat) (op : Instruction) (depth : Nat) :
    Option (Except StackError (List (Nat × Nat) × Nat)) :=
  match jumpEdgeInWords labels index op depth with
  | none => none
  | some (.error e) => some (.error e)
  | some (.ok jumps) =>
      match depthInWords index op depth false with
      | none => none
      | some (.error e) => some (.error e)
      | some (.ok after) =>
          some (.ok (fallEdge index op after ++ jumps,
            max (max after depth) ((jumps.map Prod.snd).foldl max 0)))

/-- The exploration, its sums checked. -/
def exploreInWords (ops : List Instruction) (labels : List (Label × Nat))
    (depths : List (Option Nat)) (maxDepth : Nat) :
    List (Nat × Nat) → Option (Except StackError StackProfile)
  | [] => some (.ok ⟨depths, maxDepth⟩)
  | (index, depth) :: work =>
      match _h : depths[index]? with
      | none => some (.error .fallsOffEnd)
      | some (some seen) =>
          if seen = depth then exploreInWords ops labels depths maxDepth work
          else some (.error (.inconsistent index seen depth))
      | some none =>
          match ops[index]? with
          | none => some (.error .fallsOffEnd)
          | some op =>
              match edgesInWords labels index op depth with
              | none => none
              | some (.error e) => some (.error e)
              | some (.ok (found, height)) =>
                  exploreInWords ops labels (depths.set index (some depth)) (max maxDepth height)
                    (found ++ work)
termination_by work => ((depths.filter Option.isNone).length, work.length)
decreasing_by
  · simp_wf
    exact Prod.Lex.right _ (by omega)
  · exact Prod.Lex.left _ _ (open_set_lt _h)

def profileInWords (c : Code) : Option (Except StackError StackProfile) :=
  match c.labelTable with
  | .error e => some (.error e)
  | .ok labels =>
      exploreInWords c.instructions labels (c.instructions.map fun _ => none) 0 [(0, 0)]

end Code

/-- A straight run, its sums checked. -/
def simulateInWords : List Instruction → Nat → Option (Option Nat)
  | [], depth => some (some depth)
  | op :: rest, depth =>
      if op.target?.isSome || op.isTerminal then some none
      else
        let e := op.effect false
        if depth < e.pops then some none
        else (height? (depth - e.pops + e.pushes)).bind (simulateInWords rest)

def Insertion.isNeutralInWords (profile : StackProfile) (i : Insertion) : Option Bool :=
  match profile.depthAt? i.index with
  | none => some false
  | some entry => (simulateInWords i.ops entry).map (· == some entry)

/-- The insertions that are neutral, each looked at in turn. -/
def neutralInWords (profile : StackProfile) : List Insertion → Option (List Insertion)
  | [] => some []
  | i :: rest =>
      match i.isNeutralInWords profile with
      | none => none
      | some neutral =>
          (neutralInWords profile rest).map fun kept => if neutral then i :: kept else kept

def verifyDepthsInWords (code : Code) (profile : StackProfile) (accepted : List Insertion)
    (instrumented : Code) : Option (Except InstrumentError Unit) :=
  match instrumented.profileInWords with
  | none => none
  | some (.error e) => some (.error (.corrupted e))
  | some (.ok after) =>
      match firstDrift profile after 0 (code.splicedPositions accepted) with
      | some e => some (.error e)
      | none => some (.ok ())

/-- Verified instrumentation, its sums checked. -/
def instrumentInWords (code : Code) (monitors : List Monitor) :
    Option (Except InstrumentError Code) :=
  match code.profileInWords with
  | none => none
  | some (.error e) => some (.error (.unanalyzable e))
  | some (.ok profile) =>
      match neutralInWords profile (proposals monitors code) with
      | none => none
      | some accepted =>
          match spliceAll code accepted with
          | .error e => some (.error e)
          | .ok instrumented =>
              match verifyDepthsInWords code profile accepted instrumented with
              | none => none
              | some (.error e) => some (.error e)
              | some (.ok ()) => some (.ok instrumented)

/-- The slots that an instruction adds at most. -/
def Instruction.growth (op : Instruction) : Nat := (op.effect false).pushes - (op.effect false).pops

/-- The slots that instructions add at most, each taken once. -/
def growth (ops : List Instruction) : Nat := (ops.map Instruction.growth).sum

end Definitions

section Growth

theorem growth_cons (op : Instruction) (ops : List Instruction) :
    growth (op :: ops) = op.growth + growth ops := rfl

theorem growth_append (as bs : List Instruction) : growth (as ++ bs) = growth as + growth bs := by
  rw [growth, List.map_append, List.sum_append]
  rfl

theorem growth_perm {as bs : List Instruction} (h : as.Perm bs) : growth as = growth bs :=
  (h.map Instruction.growth).sum_nat

theorem growth_sublist {as bs : List Instruction} (h : as.Sublist bs) : growth as ≤ growth bs :=
  (h.map Instruction.growth).sum_le_sum fun _ _ => Nat.zero_le _

/-- A taken branch adds no more than the other one. -/
theorem Instruction.pushes_le (op : Instruction) (taken : Bool) :
    (op.effect taken).pushes ≤ (op.effect taken).pops + op.growth := by
  cases op with
  | jump kind l => cases kind <;> cases taken <;> simp [growth, effect]
  | _ =>
      simp only [growth, effect]
      omega

theorem StackEffect.after_le {op : Instruction} {taken : Bool} {d : Nat}
    (h : (op.effect taken).pops ≤ d) : (op.effect taken).after d ≤ d + op.growth := by
  have hpushes := op.pushes_le taken
  rw [StackEffect.after]
  omega

/-- A straight run leaves no more than it finds and adds. -/
theorem simulate?_le {ops : List Instruction} {d e : Nat} (h : simulate? ops d = some e) :
    e ≤ d + growth ops := by
  induction ops generalizing d with
  | nil =>
      obtain rfl := Option.some.inj h
      exact Nat.le_add_right d 0
  | cons op ops ih =>
      obtain ⟨-, -, hpops, hrest⟩ := simulate?_cons h
      have hafter := StackEffect.after_le hpops
      have hle := ih hrest
      rw [growth_cons]
      omega

end Growth

section Edges

namespace Code

variable {labels : List (Label × Nat)} {op : Instruction} {i d : Nat}

/-- A result whose height is in a word, or the fault in its place. -/
def inWords {α : Type} (height : α → Nat) : Except StackError α → Option (Except StackError α)
  | .error e => some (.error e)
  | .ok a => if height a < UInt64.size then some (.ok a) else none

theorem depthInWords_eq (taken : Bool) :
    depthInWords i op d taken = inWords id (depthAfter i op d taken) := by
  unfold depthInWords depthAfter height?
  dsimp only
  split
  · rfl
  · rw [inWords, id]
    split <;> rfl

/-- The greatest height that a jump leads to. -/
def jumpHeight (jumps : List (Nat × Nat)) : Nat := (jumps.map Prod.snd).foldl max 0

theorem jumpEdgeInWords_eq :
    jumpEdgeInWords labels i op d = inWords jumpHeight (jumpEdge labels i op d) := by
  unfold jumpEdgeInWords jumpEdge
  cases op.target? with
  | none => rfl
  | some l =>
      dsimp only
      cases Assoc.get? l labels with
      | none => rfl
      | some t =>
          rw [depthInWords_eq]
          cases depthAfter i op d true with
          | error e => rfl
          | ok after =>
              have hheight : jumpHeight [(t, after)] = after := Nat.zero_max after
              simp only [Except.map, inWords, hheight, id]
              split <;> rfl

/-- The jump of an instruction: there is none, or it leads to one place. -/
theorem jumpEdge_eq_ok {jumps : List (Nat × Nat)} (h : jumpEdge labels i op d = .ok jumps) :
    jumps = [] ∨ ∃ t, jumps = [(t, (op.effect true).after d)] ∧ (op.effect true).pops ≤ d := by
  unfold jumpEdge at h
  split at h
  · exact Or.inl (Except.ok.inj h).symm
  · split at h
    · cases h
    · next t _ =>
        obtain ⟨after, hafter, rfl⟩ := map_eq_ok h
        unfold depthAfter at hafter
        dsimp only at hafter
        split at hafter
        · cases hafter
        · next hpops =>
            obtain rfl := Except.ok.inj hafter
            exact Or.inr ⟨t, rfl, Nat.le_of_not_lt hpops⟩

/-- What an instruction with edges leads to. -/
theorem edges_eq_ok {found : List (Nat × Nat)} {height : Nat}
    (h : edges labels i op d = .ok (found, height)) :
    ∃ jumps, jumpEdge labels i op d = .ok jumps ∧ (op.effect false).pops ≤ d ∧
      found = fallEdge i op ((op.effect false).after d) ++ jumps ∧
      height = max (max ((op.effect false).after d) d) (jumpHeight jumps) := by
  unfold edges at h
  cases hjumps : jumpEdge labels i op d with
  | error e =>
      rw [hjumps] at h
      cases h
  | ok jumps =>
      have hpops : (op.effect false).pops ≤ d := by
        by_contra hlt
        rw [hjumps, depthAfter_of_lt i (Nat.lt_of_not_le hlt)] at h
        cases h
      rw [hjumps, depthAfter_of_le i hpops] at h
      cases h
      exact ⟨jumps, rfl, hpops, rfl, rfl⟩

/-- The edges of an instruction are found in words if the greatest height that it sees is in a
word. -/
theorem edgesInWords_eq (hd : d < UInt64.size) :
    edgesInWords labels i op d = inWords Prod.snd (edges labels i op d) := by
  unfold edgesInWords edges
  rw [jumpEdgeInWords_eq, depthInWords_eq]
  cases hjumps : jumpEdge labels i op d with
  | error e => rfl
  | ok jumps =>
      by_cases hpops : (op.effect false).pops ≤ d
      · rw [depthAfter_of_le i hpops]
        have hgreatest : max (max ((op.effect false).after d) d) (jumpHeight jumps) < UInt64.size ↔
            jumpHeight jumps < UInt64.size ∧ (op.effect false).after d < UInt64.size := by
          rw [Nat.max_lt, Nat.max_lt]
          exact ⟨fun h => ⟨h.2, h.1.1⟩, fun h => ⟨⟨h.2, hd⟩, h.1⟩⟩
        change _ =
          ite (max (max ((op.effect false).after d) d) (jumpHeight jumps) < UInt64.size) _ _
        simp only [inWords, id, hgreatest]
        by_cases hjump : jumpHeight jumps < UInt64.size
        · by_cases hafter : (op.effect false).after d < UInt64.size
          · simp only [hjump, hafter, and_self, if_true]
          · simp only [hjump, hafter, and_false, if_true, if_false]
        · simp only [hjump, false_and, if_false]
      · -- a jump that is found has the slots that are popped
        have hnone : jumps = [] := by
          rcases jumpEdge_eq_ok hjumps with hnone | ⟨t, -, htaken⟩
          · exact hnone
          · rw [op.effect_pops] at htaken
            exact absurd htaken hpops
        rw [depthAfter_of_lt i (Nat.lt_of_not_le hpops), hnone]
        rfl

/-- The heights that an instruction leads to. -/
theorem edges_heights {found : List (Nat × Nat)} {height : Nat}
    (h : edges labels i op d = .ok (found, height)) :
    (∀ q ∈ found, q.2 ≤ height) ∧ height ≤ d + op.growth := by
  obtain ⟨jumps, hjumps, hpops, rfl, rfl⟩ := edges_eq_ok h
  have hafter := StackEffect.after_le hpops
  have hjump : (∀ q ∈ jumps, q.2 ≤ jumpHeight jumps) ∧ jumpHeight jumps ≤ d + op.growth := by
    rcases jumpEdge_eq_ok hjumps with rfl | ⟨t, rfl, htaken⟩
    · exact ⟨by simp, Nat.zero_le _⟩
    · have hheight : jumpHeight [(t, (op.effect true).after d)] = (op.effect true).after d :=
        Nat.zero_max _
      rw [hheight]
      exact ⟨by simp, StackEffect.after_le htaken⟩
  constructor
  · intro q hq
    rcases List.mem_append.mp hq with hq | hq
    · unfold fallEdge at hq
      split at hq
      · cases hq
      · obtain rfl := List.mem_singleton.mp hq
        exact Nat.le_trans (Nat.le_max_left _ _) (Nat.le_max_left _ _)
    · exact Nat.le_trans (hjump.1 q hq) (Nat.le_max_right _ _)
  · exact Nat.max_le.mpr ⟨Nat.max_le.mpr ⟨hafter, Nat.le_add_right _ _⟩, hjump.2⟩

end Code

end Edges

section Explorations

namespace Code

variable {ops : List Instruction} {labels : List (Label × Nat)}

theorem le_maxDepth {depths : List (Option Nat)} {m : Nat} {work : List (Nat × Nat)}
    {p : StackProfile} (h : explore ops labels depths m work = .ok p) : m ≤ p.maxDepth := by
  fun_induction explore ops labels depths m work with
  | case1 =>
      cases h
      exact Nat.le_refl _
  | case2 => cases h
  | case3 depths m i d work hseen ih => exact ih h
  | case4 => cases h
  | case5 => cases h
  | case6 => cases h
  | case7 depths m i d work hopen op hop found height hedges ih =>
      exact Nat.le_trans (Nat.le_max_left _ _) (ih h)

/-- One round of the exploration in words. -/
theorem exploreInWords_cons (depths : List (Option Nat)) (m i d : Nat) (work : List (Nat × Nat)) :
    exploreInWords ops labels depths m ((i, d) :: work)
      = match depths[i]? with
        | none => some (.error .fallsOffEnd)
        | some (some seen) =>
            if seen = d then exploreInWords ops labels depths m work
            else some (.error (.inconsistent i seen d))
        | some none =>
            match ops[i]? with
            | none => some (.error .fallsOffEnd)
            | some op =>
                match edgesInWords labels i op d with
                | none => none
                | some (.error e) => some (.error e)
                | some (.ok (found, height)) =>
                    exploreInWords ops labels (depths.set i (some d)) (max m height)
                      (found ++ work) := by
  rw [exploreInWords]
  split
  · next h => rw [h]
  · next h => rw [h]
  · next h => rw [h]

/-- The slots that the instructions entered so far add at most. -/
def enteredGrowth : List Instruction → List (Option Nat) → Nat
  | op :: ops, depth :: depths => (if depth.isSome then op.growth else 0) + enteredGrowth ops depths
  | _, _ => 0

theorem enteredGrowth_le : ∀ (ops : List Instruction) (depths : List (Option Nat)),
    enteredGrowth ops depths ≤ growth ops
  | [], _ => Nat.zero_le _
  | _ :: _, [] => Nat.zero_le _
  | op :: ops, depth :: depths => by
      have hrest := enteredGrowth_le ops depths
      rw [enteredGrowth, growth_cons]
      split <;> omega

theorem enteredGrowth_set {op : Instruction} (d : Nat) :
    ∀ {ops : List Instruction} {depths : List (Option Nat)} {i : Nat},
      ops[i]? = some op → depths[i]? = some none →
        enteredGrowth ops (depths.set i (some d)) = enteredGrowth ops depths + op.growth
  | [], _, i, hop, _ => by simp at hop
  | _ :: _, [], i, _, hopen => by simp at hopen
  | o :: ops, depth :: depths, 0, hop, hopen => by
      obtain rfl : o = op := by simpa using hop
      obtain rfl : depth = none := by simpa using hopen
      simp only [List.set_cons_zero, enteredGrowth, Option.isSome_some, Option.isSome_none,
        Bool.false_eq_true, if_true, if_false]
      omega
  | o :: ops, depth :: depths, i + 1, hop, hopen => by
      have hrest := @enteredGrowth_set op d ops depths i (by simpa using hop) (by simpa using hopen)
      simp only [List.set_cons_succ, enteredGrowth, hrest]
      omega

/-- What holds of the heights while the control flow is followed: they are no higher than what the
instructions entered so far add. -/
structure Bounded (ops : List Instruction) (depths : List (Option Nat)) (maxDepth : Nat)
    (work : List (Nat × Nat)) : Prop where
  waiting : ∀ q ∈ work, q.2 ≤ enteredGrowth ops depths
  greatest : maxDepth ≤ enteredGrowth ops depths

variable {depths : List (Option Nat)} {m i d : Nat} {work : List (Nat × Nat)}

theorem Bounded.skip {q : Nat × Nat} (h : Bounded ops depths m (q :: work)) :
    Bounded ops depths m work where
  waiting := fun r hr => h.waiting r (List.mem_cons_of_mem _ hr)
  greatest := h.greatest

theorem Bounded.mark {op : Instruction} {found : List (Nat × Nat)} {height : Nat}
    (h : Bounded ops depths m ((i, d) :: work)) (hopen : depths[i]? = some none)
    (hop : ops[i]? = some op) (hedges : edges labels i op d = .ok (found, height)) :
    Bounded ops (depths.set i (some d)) (max m height) (found ++ work) := by
  obtain ⟨hfound, hheight⟩ := edges_heights hedges
  have hd : d ≤ enteredGrowth ops depths := h.waiting (i, d) (by simp)
  have hm := h.greatest
  constructor
  · intro q hq
    rw [enteredGrowth_set d hop hopen]
    rcases List.mem_append.mp hq with hq | hq
    · have hle := hfound q hq
      omega
    · have hle := h.waiting q (List.mem_cons_of_mem _ hq)
      omega
  · rw [enteredGrowth_set d hop hopen]
    omega

/-- **A stack grows no higher than the instructions together let it grow.** -/
theorem Bounded.maxDepth_le {p : StackProfile} (h : Bounded ops depths m work)
    (hp : explore ops labels depths m work = .ok p) : p.maxDepth ≤ growth ops := by
  fun_induction explore ops labels depths m work with
  | case1 depths m =>
      cases hp
      exact Nat.le_trans h.greatest (enteredGrowth_le ops depths)
  | case2 => cases hp
  | case3 depths m i d work hseen ih => exact ih h.skip hp
  | case4 => cases hp
  | case5 => cases hp
  | case6 => cases hp
  | case7 depths m i d work hopen op hop found height hedges ih =>
      exact ih (h.mark hopen hop hedges) hp

/-- **An exploration in words.**  It finds what the exploration finds, with the greatest height in a
word, or nothing, and then neither the growth nor a greatest height is in a word. -/
theorem Bounded.exploreInWords_cases (h : Bounded ops depths m work) (hm : m < UInt64.size)
    (hwork : ∀ q ∈ work, q.2 < UInt64.size) :
    exploreInWords ops labels depths m work = some (explore ops labels depths m work) ∧
        (∀ p, explore ops labels depths m work = .ok p → p.maxDepth < UInt64.size) ∨
      exploreInWords ops labels depths m work = none ∧ UInt64.size ≤ growth ops ∧
        ∀ p, explore ops labels depths m work = .ok p → UInt64.size ≤ p.maxDepth := by
  fun_induction explore ops labels depths m work with
  | case1 depths m =>
      refine Or.inl ⟨by rw [exploreInWords], ?_⟩
      rintro p ⟨⟩
      exact hm
  | case2 depths m i d work hnone =>
      exact Or.inl ⟨by rw [exploreInWords_cons]; simp only [hnone], fun p hp => by cases hp⟩
  | case3 depths m i d work hseen ih =>
      rw [exploreInWords_cons]
      simp only [hseen, if_true]
      exact ih h.skip hm fun q hq => hwork q (List.mem_cons_of_mem _ hq)
  | case4 depths m i d work seen hseen hne =>
      refine Or.inl ⟨?_, fun p hp => by cases hp⟩
      rw [exploreInWords_cons]
      simp only [hseen, hne, if_false]
  | case5 depths m i d work hopen hnone =>
      refine Or.inl ⟨?_, fun p hp => by cases hp⟩
      rw [exploreInWords_cons]
      simp only [hopen, hnone]
  | case6 depths m i d work hopen op hop e hedges =>
      have hwords := @edgesInWords_eq labels op i d (hwork (i, d) (by simp))
      refine Or.inl ⟨?_, fun p hp => by cases hp⟩
      rw [exploreInWords_cons]
      simp only [hopen, hop, hwords, hedges, inWords]
  | case7 depths m i d work hopen op hop found height hedges ih =>
      have hwords := @edgesInWords_eq labels op i d (hwork (i, d) (by simp))
      have hmark := h.mark hopen hop hedges
      rw [exploreInWords_cons]
      simp only [hopen, hop, hwords, hedges, inWords]
      by_cases hheight : height < UInt64.size
      · simp only [hheight, if_true]
        refine ih hmark (Nat.max_lt.mpr ⟨hm, hheight⟩) fun q hq => ?_
        rcases List.mem_append.mp hq with hq | hq
        · exact Nat.lt_of_le_of_lt ((edges_heights hedges).1 q hq) hheight
        · exact hwork q (List.mem_cons_of_mem _ hq)
      · have hreached : UInt64.size ≤ max m height :=
          Nat.le_trans (Nat.le_of_not_lt hheight) (Nat.le_max_right _ _)
        simp only [hheight, if_false]
        refine Or.inr ⟨trivial, ?_, fun p hp => Nat.le_trans hreached (le_maxDepth hp)⟩
        exact Nat.le_trans hreached (Nat.le_trans hmark.greatest (enteredGrowth_le ops _))

variable {c : Code}

theorem Bounded.initial (ops : List Instruction) :
    Bounded ops (ops.map fun _ => none) 0 [(0, 0)] where
  waiting := by simp
  greatest := Nat.zero_le _

theorem maxDepth_le_growth {p : StackProfile} (h : c.stackProfile = .ok p) :
    p.maxDepth ≤ growth c.instructions := by
  obtain ⟨-, labels, hlabels⟩ := explored_of_stackProfile h
  simp only [stackProfile, hlabels] at h
  exact (Bounded.initial c.instructions).maxDepth_le h

/-- The analysis in words answers what the analysis answers, or nothing. -/
theorem profileInWords_cases (c : Code) :
    c.profileInWords = some c.stackProfile ∧
        (∀ p, c.stackProfile = .ok p → p.maxDepth < UInt64.size) ∨
      c.profileInWords = none ∧ UInt64.size ≤ growth c.instructions ∧
        ∀ p, c.stackProfile = .ok p → UInt64.size ≤ p.maxDepth := by
  unfold profileInWords stackProfile
  cases c.labelTable with
  | error e => exact Or.inl ⟨rfl, fun p hp => by cases hp⟩
  | ok labels =>
      exact (Bounded.initial c.instructions).exploreInWords_cases (by decide) (by decide)

theorem profileInWords_eq_some {r : Except StackError StackProfile}
    (h : c.profileInWords = some r) : r = c.stackProfile := by
  rcases c.profileInWords_cases with ⟨heq, -⟩ | ⟨hnone, -⟩
  · exact Option.some.inj (h.symm.trans heq)
  · rw [hnone] at h
    cases h

theorem profileInWords_iff {p : StackProfile} (h : c.stackProfile = .ok p) :
    c.profileInWords = some (.ok p) ↔ p.maxDepth < UInt64.size := by
  rcases c.profileInWords_cases with ⟨heq, hlt⟩ | ⟨hnone, -, hle⟩
  · rw [heq, h]
    exact iff_of_true rfl (hlt p h)
  · rw [hnone]
    exact iff_of_false (by simp) (Nat.not_lt.mpr (hle p h))

theorem profileInWords_of_growth (h : growth c.instructions < UInt64.size) :
    c.profileInWords = some c.stackProfile := by
  rcases c.profileInWords_cases with ⟨heq, -⟩ | ⟨-, hgrowth, -⟩
  · exact heq
  · exact absurd h (Nat.not_lt.mpr hgrowth)

end Code

end Explorations

section Simulations

theorem height?_eq_some {n m : Nat} (h : height? n = some m) : m = n := by
  unfold height? at h
  split at h
  · exact (Option.some.inj h).symm
  · cases h

variable {op : Instruction} {ops : List Instruction} {d : Nat}

theorem simulate?_step (htarget : op.target? = none) (hterm : op.isTerminal = false)
    (hpops : (op.effect false).pops ≤ d) (ops : List Instruction) :
    simulate? (op :: ops) d = simulate? ops ((op.effect false).after d) ∧
      simulateInWords (op :: ops) d
        = (height? ((op.effect false).after d)).bind (simulateInWords ops) := by
  have hlt := Nat.not_lt.mpr hpops
  constructor
  · simp [simulate?, htarget, hterm, hlt, StackEffect.after]
  · simp [simulateInWords, htarget, hterm, hlt, StackEffect.after]

/-- A run that stops at its first instruction. -/
theorem simulate?_stop
    (h : ¬ (op.target? = none ∧ op.isTerminal = false ∧ (op.effect false).pops ≤ d))
    (ops : List Instruction) :
    simulate? (op :: ops) d = none ∧ simulateInWords (op :: ops) d = some none := by
  unfold simulate? simulateInWords
  by_cases hbranch : (op.target?.isSome || op.isTerminal) = true
  · simp only [hbranch, if_true, and_self]
  · have hlt : d < (op.effect false).pops := by
      simp only [Bool.or_eq_true, not_or, Bool.not_eq_true, Option.isSome_eq_false_iff,
        Option.isNone_iff_eq_none] at hbranch
      by_contra hpops
      exact h ⟨hbranch.1, hbranch.2, Nat.le_of_not_lt hpops⟩
    simp only [hbranch, hlt, if_true, if_false, Bool.false_eq_true, and_self]

/-- What a straight run in words comes to is what the run comes to. -/
theorem simulateInWords_eq_some {r : Option Nat} (h : simulateInWords ops d = some r) :
    r = simulate? ops d := by
  induction ops generalizing d with
  | nil => exact (Option.some.inj h).symm
  | cons op ops ih =>
      by_cases hstep : op.target? = none ∧ op.isTerminal = false ∧ (op.effect false).pops ≤ d
      · obtain ⟨hplain, hwords⟩ := simulate?_step hstep.1 hstep.2.1 hstep.2.2 ops
        rw [hwords] at h
        obtain ⟨a, ha, hrest⟩ := Option.bind_eq_some_iff.mp h
        obtain rfl := height?_eq_some ha
        rw [hplain]
        exact ih hrest
      · obtain ⟨hplain, hwords⟩ := simulate?_stop hstep ops
        rw [hwords] at h
        rw [hplain, ← Option.some.inj h]

/-- **A straight run in words.**  It comes to what the run comes to exactly if every height on the
way is in a word. -/
theorem simulateInWords_eq_iff (hd : d < UInt64.size) :
    simulateInWords ops d = some (simulate? ops d) ↔
      ∀ k m, simulate? (ops.take k) d = some m → m < UInt64.size := by
  induction ops generalizing d with
  | nil =>
      refine iff_of_true rfl fun k m hm => ?_
      rw [List.take_nil] at hm
      rwa [← Option.some.inj hm]
  | cons op ops ih =>
      by_cases hstep : op.target? = none ∧ op.isTerminal = false ∧ (op.effect false).pops ≤ d
      · obtain ⟨htarget, hterm, hpops⟩ := hstep
        have htake : (∀ k m, simulate? ((op :: ops).take k) d = some m → m < UInt64.size) ↔
            ∀ k m, simulate? (ops.take k) ((op.effect false).after d) = some m →
              m < UInt64.size := by
          constructor
          · intro h k m hm
            refine h (k + 1) m ?_
            rwa [List.take_succ_cons, (simulate?_step htarget hterm hpops _).1]
          · intro h k m hm
            cases k with
            | zero => rwa [← Option.some.inj hm]
            | succ k =>
                rw [List.take_succ_cons, (simulate?_step htarget hterm hpops _).1] at hm
                exact h k m hm
        obtain ⟨hplain, hwords⟩ := simulate?_step htarget hterm hpops ops
        rw [hplain, hwords, htake]
        by_cases hafter : (op.effect false).after d < UInt64.size
        · rw [height?, if_pos hafter, Option.bind_some]
          exact ih hafter
        · rw [height?, if_neg hafter]
          refine iff_of_false (by simp) fun h => hafter (h 0 _ rfl)
      · obtain ⟨hplain, hwords⟩ := simulate?_stop hstep ops
        rw [hplain, hwords]
        refine iff_of_true rfl fun k m hm => ?_
        cases k with
        | zero => rwa [← Option.some.inj hm]
        | succ k =>
            rw [List.take_succ_cons, (simulate?_stop hstep _).1] at hm
            cases hm

theorem simulateInWords_of_growth (h : d + growth ops < UInt64.size) :
    simulateInWords ops d = some (simulate? ops d) := by
  refine (simulateInWords_eq_iff (Nat.lt_of_le_of_lt (Nat.le_add_right _ _) h)).mpr ?_
  intro k m hm
  have hle := simulate?_le hm
  have htake := growth_sublist (List.take_sublist k ops)
  omega

end Simulations

section Instrumentation

variable {c : Code} {p : StackProfile}

theorem isNeutralInWords_eq_some {x : Insertion} {b : Bool}
    (h : x.isNeutralInWords p = some b) : b = x.isNeutral p := by
  unfold Insertion.isNeutralInWords at h
  unfold Insertion.isNeutral
  cases hentry : p.depthAt? x.index with
  | none =>
      simp only [hentry] at h
      exact (Option.some.inj h).symm
  | some entry =>
      simp only [hentry] at h
      obtain ⟨r, hr, rfl⟩ := Option.map_eq_some_iff.mp h
      rw [simulateInWords_eq_some hr]

theorem neutralInWords_eq_some {xs kept : List Insertion} (h : neutralInWords p xs = some kept) :
    kept = xs.filter (Insertion.isNeutral p) := by
  induction xs generalizing kept with
  | nil => exact (Option.some.inj h).symm
  | cons x xs ih =>
      rw [neutralInWords] at h
      cases hx : x.isNeutralInWords p with
      | none =>
          rw [hx] at h
          cases h
      | some b =>
          rw [hx] at h
          obtain ⟨rest, hrest, rfl⟩ := Option.map_eq_some_iff.mp h
          rw [List.filter_cons, ← isNeutralInWords_eq_some hx, ← ih hrest]

theorem neutralInWords_eq {xs : List Insertion}
    (h : ∀ x ∈ xs, x.isNeutralInWords p = some (x.isNeutral p)) :
    neutralInWords p xs = some (xs.filter (Insertion.isNeutral p)) := by
  induction xs with
  | nil => rfl
  | cons x xs ih =>
      rw [neutralInWords, h x (by simp), ih fun y hy => h y (List.mem_cons_of_mem _ hy),
        List.filter_cons]
      rfl

/-- Spliced code grows by what is inserted. -/
theorem growth_splice {c' : Code} {ins : List Insertion} (h : c.splice ins = .ok c') :
    growth c'.instructions = growth c.instructions + growth (ins.flatMap Insertion.ops) := by
  rw [growth_perm (Code.splice_perm h), growth_append]

theorem spliceAll_eq_ok {c' : Code} {ins : List Insertion} (h : spliceAll c ins = .ok c') :
    c.splice ins = .ok c' := by
  unfold spliceAll at h
  split at h
  · cases h
  · next heq =>
      cases h
      exact heq

/-- An insertion at an instruction of the code is looked at in words where the growth of both is in
a word. -/
theorem isNeutralInWords_of_growth (hp : c.stackProfile = .ok p) {x : Insertion}
    (h : growth c.instructions + growth x.ops < UInt64.size) :
    x.isNeutralInWords p = some (x.isNeutral p) := by
  unfold Insertion.isNeutralInWords Insertion.isNeutral
  cases hentry : p.depthAt? x.index with
  | none => rfl
  | some entry =>
      have hreach := (Code.stackProfile_depthAt? hp).mp hentry
      have hle : entry ≤ p.maxDepth := Code.stackProfile_le_maxDepth hp hreach
      have hmax := Code.maxDepth_le_growth hp
      simp only
      rw [simulateInWords_of_growth (by omega)]
      rfl

theorem growth_flatMap_mem {xs : List Insertion} {x : Insertion} (hx : x ∈ xs) :
    growth x.ops ≤ growth (xs.flatMap Insertion.ops) :=
  growth_sublist (List.sublist_flatten_of_mem (List.mem_map_of_mem hx))

theorem verifyDepthsInWords_eq_some {c' : Code} {ins : List Insertion}
    {r : Except InstrumentError Unit} (h : verifyDepthsInWords c p ins c' = some r) :
    r = verifyDepths c p ins c' := by
  unfold verifyDepthsInWords at h
  unfold verifyDepths
  cases hprofile : c'.profileInWords with
  | none =>
      rw [hprofile] at h
      cases h
  | some after =>
      rw [hprofile] at h
      rw [← Code.profileInWords_eq_some hprofile]
      cases after with
      | error e => exact (Option.some.inj h).symm
      | ok after =>
          dsimp only at h ⊢
          cases hdrift : firstDrift p after 0 (c.splicedPositions ins) with
          | some e =>
              rw [hdrift] at h
              exact (Option.some.inj h).symm
          | none =>
              rw [hdrift] at h
              exact (Option.some.inj h).symm

theorem verifyDepthsInWords_of_growth {c' : Code} {ins : List Insertion}
    (h : growth c'.instructions < UInt64.size) :
    verifyDepthsInWords c p ins c' = some (verifyDepths c p ins c') := by
  unfold verifyDepthsInWords verifyDepths
  rw [Code.profileInWords_of_growth h]
  cases c'.stackProfile with
  | error e => rfl
  | ok after =>
      dsimp only
      cases firstDrift p after 0 (c.splicedPositions ins) <;> rfl

/-- What the instrumentation answers in words is what it answers. -/
theorem instrumentInWords_eq_some {monitors : List Monitor} {r : Except InstrumentError Code}
    (h : instrumentInWords c monitors = some r) : r = instrument true c monitors := by
  unfold instrumentInWords at h
  unfold instrument
  rw [if_pos rfl]
  cases hprofile : c.profileInWords with
  | none =>
      rw [hprofile] at h
      cases h
  | some profile =>
      rw [hprofile] at h
      rw [← Code.profileInWords_eq_some hprofile]
      cases profile with
      | error e => exact (Option.some.inj h).symm
      | ok p =>
          dsimp only at h ⊢
          cases hkept : neutralInWords p (proposals monitors c) with
          | none =>
              rw [hkept] at h
              cases h
          | some kept =>
              rw [hkept] at h
              rw [← neutralInWords_eq_some hkept]
              dsimp only at h
              cases hsplice : spliceAll c kept with
              | error e =>
                  rw [hsplice] at h
                  exact (Option.some.inj h).symm
              | ok c' =>
                  rw [hsplice] at h
                  dsimp only at h ⊢
                  cases hverify : verifyDepthsInWords c p kept c' with
                  | none =>
                      rw [hverify] at h
                      cases h
                  | some verified =>
                      rw [hverify] at h
                      rw [← verifyDepthsInWords_eq_some hverify]
                      cases verified with
                      | error e => exact (Option.some.inj h).symm
                      | ok _ => exact (Option.some.inj h).symm

/-- Where the growth of the code and of all proposals is in a word, so are the sums of the
instrumentation. -/
theorem instrumentInWords_of_growth {monitors : List Monitor}
    (h : growth c.instructions + growth ((proposals monitors c).flatMap Insertion.ops)
      < UInt64.size) :
    instrumentInWords c monitors = some (instrument true c monitors) := by
  unfold instrumentInWords instrument
  rw [if_pos rfl, Code.profileInWords_of_growth (Nat.lt_of_le_of_lt (Nat.le_add_right _ _) h)]
  cases hprofile : c.stackProfile with
  | error e => rfl
  | ok p =>
      have hkept : neutralInWords p (proposals monitors c)
          = some ((proposals monitors c).filter (Insertion.isNeutral p)) := by
        apply neutralInWords_eq
        intro x hx
        have hle := growth_flatMap_mem hx
        exact isNeutralInWords_of_growth hprofile (by omega)
      dsimp only
      rw [hkept]
      dsimp only
      cases hsplice : spliceAll c ((proposals monitors c).filter (Insertion.isNeutral p)) with
      | error e => rfl
      | ok c' =>
          have hgrowth : growth c'.instructions < UInt64.size := by
            have hsublist : ((proposals monitors c).filter (Insertion.isNeutral p)).Sublist
                (proposals monitors c) := List.filter_sublist
            have hle := growth_sublist (hsublist.flatMap Insertion.ops)
            rw [growth_splice (spliceAll_eq_ok hsplice)]
            omega
          dsimp only
          rw [verifyDepthsInWords_of_growth hgrowth]
          cases verifyDepths c p ((proposals monitors c).filter (Insertion.isNeutral p)) c' <;> rfl

end Instrumentation

section Nets

theorem Instruction.effect_bounds (op : Instruction) (taken : Bool) :
    (op.effect taken).pops < 2 ^ 64 ∧ (op.effect taken).pushes < 2 ^ 64 ∧
      ((op.effect taken).pushes ≤ 3 ∨ (op.effect taken).pops ≤ 1) := by
  cases op with
  | buildTuple n => exact ⟨n.toNat_lt, by simp [effect], Or.inl (by simp [effect])⟩
  | unpackSequence n => exact ⟨by simp [effect], n.toNat_lt, Or.inr (by simp [effect])⟩
  | call form operand =>
      have hpositional := (ArgSpec.decode operand).positional.toNat_lt
      have hkeyword := (ArgSpec.decode operand).keyword.toNat_lt
      refine ⟨?_, by simp [effect], Or.inl (by simp [effect])⟩
      simp only [effect, ArgSpec.slots]
      cases form <;> simp only [CallForm.extras] <;> omega
  | jump kind l => cases kind <;> cases taken <;> simp [effect]
  | _ => simp [effect]

theorem toInt_ofNat_cases {n : Nat} (h : n < 2 ^ 64) :
    n < 2 ^ 63 ∧ (Int64.ofNat n).toInt = n ∨
      2 ^ 63 ≤ n ∧ (Int64.ofNat n).toInt = n - 2 ^ 64 := by
  rw [Int64.toInt_ofNat', show Int64.size = 2 ^ 64 from rfl, Int.bmod_def]
  omega

theorem StackEffect.net_toInt {e : StackEffect}
    (h : FitsWord ((Int64.ofNat e.pushes).toInt - (Int64.ofNat e.pops).toInt)) :
    e.net.toInt = (Int64.ofNat e.pushes).toInt - (Int64.ofNat e.pops).toInt := by
  rw [net, Int64.toInt_sub]
  exact Int.bmod_eq_of_le h.1 h.2

/-- The difference of the counts is in a word, or there is no change in height in words. -/
theorem StackEffect.netInWords_iff (e : StackEffect) :
    e.netInWords = some e.net ↔
      FitsWord ((Int64.ofNat e.pushes).toInt - (Int64.ofNat e.pops).toInt) := by
  by_cases hfits : FitsWord ((Int64.ofNat e.pushes).toInt - (Int64.ofNat e.pops).toInt)
  · exact iff_of_true (word?_eq (net_toInt hfits)) hfits
  · rw [netInWords, word?, if_neg hfits]
    exact iff_of_false (by simp) hfits

/-- The change in height is computed without overflow and exact if both counts are in signed
words. -/
theorem StackEffect.net_exact_iff {e : StackEffect} (hpops : e.pops < 2 ^ 64)
    (hpushes : e.pushes < 2 ^ 64) (hsmall : e.pushes ≤ 3 ∨ e.pops ≤ 1) :
    (e.netInWords = some e.net ∧ e.net.toInt = e.pushes - e.pops) ↔
      e.pushes < 2 ^ 63 ∧ e.pops < 2 ^ 63 := by
  have hpushed := toInt_ofNat_cases hpushes
  have hpopped := toInt_ofNat_cases hpops
  rw [netInWords_iff]
  constructor
  · rintro ⟨hfits, hexact⟩
    rw [net_toInt hfits] at hexact
    unfold FitsWord at hfits
    omega
  · rintro ⟨hp, hq⟩
    have hfits : FitsWord ((Int64.ofNat e.pushes).toInt - (Int64.ofNat e.pops).toInt) := by
      unfold FitsWord
      omega
    refine ⟨hfits, ?_⟩
    rw [net_toInt hfits]
    omega

end Nets

section Verdict

/-- **Stack heights in machine words.**  What is computed in words is what is computed, or an
overflow.  The change in height at an instruction is free of overflow and exact if both its counts
are in signed words, and only then.  A profile is found in words exactly if its greatest height is
in a word, and this is no higher than the code lets a stack grow; a straight run is followed in
words exactly if all heights on its way are in words.  So nothing overflows while code is analysed
if the growth of the code is in a word, nor while it is instrumented if the growth of the code and
of all proposals together is. -/
theorem stack_heights_in_words (c : Code) (monitors : List Monitor) :
    (∀ (op : Instruction) (taken : Bool),
      ((op.effect taken).netInWords = some (op.effect taken).net ∧
          (op.effect taken).net.toInt
            = ((op.effect taken).pushes : Int) - (op.effect taken).pops) ↔
        (op.effect taken).pushes < 2 ^ 63 ∧ (op.effect taken).pops < 2 ^ 63) ∧
      (∀ r, c.profileInWords = some r → r = c.stackProfile) ∧
      (∀ p, c.stackProfile = .ok p →
        (c.profileInWords = some (.ok p) ↔ p.maxDepth < UInt64.size) ∧
          p.maxDepth ≤ growth c.instructions) ∧
      (∀ (ops : List Instruction) (d : Nat), d < UInt64.size →
        (simulateInWords ops d = some (simulate? ops d) ↔
          ∀ k m, simulate? (ops.take k) d = some m → m < UInt64.size)) ∧
      (∀ r, instrumentInWords c monitors = some r → r = instrument true c monitors) ∧
      (growth c.instructions < UInt64.size → c.profileInWords = some c.stackProfile) ∧
      (growth c.instructions + growth ((proposals monitors c).flatMap Insertion.ops)
          < UInt64.size →
        instrumentInWords c monitors = some (instrument true c monitors)) := by
  refine ⟨fun op taken => ?_, fun _ => Code.profileInWords_eq_some,
    fun p hp => ⟨Code.profileInWords_iff hp, Code.maxDepth_le_growth hp⟩,
    fun ops d => simulateInWords_eq_iff, fun _ => instrumentInWords_eq_some,
    Code.profileInWords_of_growth, instrumentInWords_of_growth⟩
  obtain ⟨hpops, hpushes, hsmall⟩ := op.effect_bounds taken
  exact StackEffect.net_exact_iff hpops hpushes hsmall

/-- Code whose stack grows as high as a word can say. -/
def highest : Code := Code.ofInstructions
  [.loadConst .none, .unpackSequence 18446744073709551615, .returnValue]

theorem stack_heights_in_words_highest :
    growth highest.instructions = UInt64.size - 1 ∧
      highest.profileInWords
        = some (.ok ⟨[some 0, some 1, some 18446744073709551615], 18446744073709551615⟩) ∧
      instrumentInWords highest [labelAndPop] = some (instrument true highest [labelAndPop]) := by
  have hgrowth : growth highest.instructions = UInt64.size - 1 := by decide
  have hprofile : highest.stackProfile
      = .ok ⟨[some 0, some 1, some 18446744073709551615], 18446744073709551615⟩ := by cbv
  obtain ⟨-, -, hexact, -, -, -, hinstrument⟩ := stack_heights_in_words highest [labelAndPop]
  refine ⟨hgrowth, (hexact _ hprofile).1.mpr (by decide), hinstrument ?_⟩
  have hproposed : growth ((proposals [labelAndPop] highest).flatMap Insertion.ops) = 0 := by decide
  rw [hgrowth, hproposed]
  decide

/-- Code whose stack grows one slot higher. -/
def tooHigh : Code := Code.ofInstructions
  [ .loadConst (.int 0),
    .loadConst (.int 0),
    .unpackSequence 18446744073709551615,
    .returnValue ]

/-- A listing is assembled to code whose analysis overflows, at an instruction whose change in
height is off. -/
theorem heights_overflow :
    Code.ofListing
        "LOAD_CONST 0\nLOAD_CONST 0\nUNPACK_SEQUENCE 18446744073709551615\nRETURN_VALUE"
        = .ok tooHigh ∧
      tooHigh.profileInWords = none ∧ instrumentInWords tooHigh [] = none ∧
      ((Instruction.unpackSequence 18446744073709551615).effect false).net = -2 := by
  have hprofile : tooHigh.stackProfile
      = .ok ⟨[some 0, some 1, some 2, some 18446744073709551616], 18446744073709551616⟩ := by cbv
  have hnone : tooHigh.profileInWords = none := by
    rcases tooHigh.profileInWords_cases with ⟨-, hlt⟩ | ⟨hnone, -⟩
    · exact absurd (hlt _ hprofile) (by decide)
    · exact hnone
  refine ⟨by cbv, hnone, ?_, by decide⟩
  rw [instrumentInWords, hnone]

end Verdict

end TrackedExpr
