import TrackedExpr.Monitor
import TrackedExpr.Proofs.Splicing
import TrackedExpr.Proofs.StackSafety

/-!
# Verified instrumentation

Insertions are checked one at a time against the profile of the code.  Spliced all
together they still leave every instruction at the height it had: control in the
spliced code is always some way into the insertions at an index that the code
reaches, at the height that the insertions have brought the stack to.

**Definitions.**
* `Code.AtPlace`: where control is in spliced code, and how high the stack is.

**Results.**
* `Code.reaches_atPlace`, `Code.reaches_position`: the control flow of spliced code
  is that of the code with the insertions run through;
* `instrument_verified`: what verified instrumentation answers.
-/

namespace TrackedExpr

section Simulation

theorem simulate?_append : ∀ (as bs : List Instruction) (d : Nat),
    simulate? (as ++ bs) d = (simulate? as d).bind (simulate? bs)
  | [], _, _ => rfl
  | op :: rest, bs, d => by
      rw [List.cons_append, simulate?, simulate?]
      split
      · rfl
      · dsimp only
        split
        · rfl
        · exact simulate?_append rest bs _

theorem simulate?_flatMap {d : Nat} :
    ∀ {xs : List Insertion}, (∀ x ∈ xs, simulate? x.ops d = some d) →
      simulate? (xs.flatMap Insertion.ops) d = some d
  | [], _ => rfl
  | x :: xs, h => by
      rw [List.flatMap_cons, simulate?_append, h x (by simp), Option.bind_some]
      exact simulate?_flatMap fun y hy => h y (List.mem_cons_of_mem _ hy)

theorem simulate?_cons {op : Instruction} {rest : List Instruction} {d e : Nat}
    (h : simulate? (op :: rest) d = some e) :
    op.target? = none ∧ op.isTerminal = false ∧ (op.effect false).pops ≤ d ∧
      simulate? rest ((op.effect false).after d) = some e := by
  rw [simulate?] at h
  split at h
  · cases h
  · next hbranch =>
      simp only [Bool.or_eq_true, not_or, Bool.not_eq_true, Option.isSome_eq_false_iff,
        Option.isNone_iff_eq_none] at hbranch
      dsimp only at h
      split at h
      · cases h
      · next hlt => exact ⟨hbranch.1, hbranch.2, Nat.le_of_not_lt hlt, h⟩

/-- One instruction of a straight run. -/
theorem simulate?_take {ops : List Instruction} {d e k : Nat} (h : simulate? ops d = some e)
    (hk : k < ops.length) :
    ∃ op m, ops[k]? = some op ∧ simulate? (ops.take k) d = some m ∧
      op.target? = none ∧ op.isTerminal = false ∧ (op.effect false).pops ≤ m ∧
      simulate? (ops.take (k + 1)) d = some ((op.effect false).after m) := by
  have hsplit : simulate? (ops.take k ++ ops[k] :: ops.drop (k + 1)) d = some e := by
    rwa [← List.drop_eq_getElem_cons hk, List.take_append_drop]
  rw [simulate?_append, Option.bind_eq_some_iff] at hsplit
  obtain ⟨m, hm, hrest⟩ := hsplit
  obtain ⟨htarget, hterm, hpops, -⟩ := simulate?_cons hrest
  refine ⟨ops[k], m, List.getElem?_eq_getElem hk, hm, htarget, hterm, hpops, ?_⟩
  have hlt : ¬ m < (ops[k].effect false).pops := Nat.not_lt.mpr hpops
  rw [← List.take_append_getElem hk, simulate?_append, hm, Option.bind_some]
  simp [simulate?, htarget, hterm, hlt, StackEffect.after]

theorem isNeutral_iff {p : StackProfile} {x : Insertion} :
    x.isNeutral p = true ↔ ∃ d, p.depthAt? x.index = some d ∧ simulate? x.ops d = some d := by
  unfold Insertion.isNeutral
  cases p.depthAt? x.index with
  | none => simp
  | some d => simp

end Simulation

namespace Code

section Projection

/-- Control is `k` instructions into what is inserted at an index that the code reaches; at the
end of it, it is at the instruction of the code. -/
def AtPlace (c : Code) (ins : List Insertion) (q : Nat × Nat) : Prop :=
  ∃ i k d, c.Reaches (i, d) ∧ k ≤ addedAt ins i ∧ q.1 = landing ins i + k ∧
    simulate? ((insertedAt ins i).take k) d = some q.2

variable {c c' : Code} {p : StackProfile} {ins : List Insertion}

theorem atPlace_landing {i d : Nat} (h : c.Reaches (i, d)) : c.AtPlace ins (landing ins i, d) :=
  ⟨i, 0, d, h, Nat.zero_le _, rfl, rfl⟩

/-- There is one height at a place. -/
theorem atPlace_unique (hsound : c.Sound) {q d e : Nat} (hd : c.AtPlace ins (q, d))
    (he : c.AtPlace ins (q, e)) : d = e := by
  obtain ⟨i, k, a, ha, hk, hq, hsima⟩ := hd
  obtain ⟨j, m, b, hb, hm, hq', hsimb⟩ := he
  obtain ⟨rfl, rfl⟩ := landing_inj hk hm (hq.symm.trans hq')
  rw [hsound.unique i b a hb ha, hsima] at hsimb
  exact Option.some.inj hsimb

section Neutral

variable (hp : c.stackProfile = .ok p) (hneutral : ∀ x ∈ ins, x.isNeutral p = true)
include hp hneutral

/-- What is inserted at a reached index leaves the height as it was. -/
theorem simulate?_insertedAt {i d : Nat} (h : c.Reaches (i, d)) :
    simulate? (insertedAt ins i) d = some d := by
  apply simulate?_flatMap
  intro x hx
  obtain ⟨hmem, hindex⟩ := List.mem_filter.mp hx
  obtain ⟨e, he, hsim⟩ := isNeutral_iff.mp (hneutral x hmem)
  rw [show x.index = i by simpa using hindex, stackProfile_depthAt? hp] at he
  rwa [← (sound_of_stackProfile hp).unique i e d he h]

theorem atPlace_position {i d : Nat} (h : c.Reaches (i, d)) :
    c.AtPlace ins (position ins i, d) := by
  refine ⟨i, addedAt ins i, d, h, Nat.le_refl _, rfl, ?_⟩
  rw [← length_insertedAt, List.take_length]
  exact simulate?_insertedAt hp hneutral h

end Neutral

section Spliced

variable (hp : c.stackProfile = .ok p) (hneutral : ∀ x ∈ ins, x.isNeutral p = true)
  (hsplice : c.splice ins = .ok c') (hlabels : (labelsSet c'.instructions).Nodup)
include hp hneutral hsplice

/-- The instruction at a place is an inserted one, or one that the code reaches. -/
theorem atPlace_cases {q : Nat × Nat} (h : c.AtPlace ins q) :
    (∃ op, c'.instructions[q.1]? = some op ∧ op.target? = none ∧ op.isTerminal = false ∧
      (op.effect false).pops ≤ q.2 ∧ c.AtPlace ins (q.1 + 1, (op.effect false).after q.2)) ∨
    ∃ i, q.1 = position ins i ∧ c.Reaches (i, q.2) := by
  obtain ⟨i, k, d, hreach, hk, hq, hsim⟩ := h
  have hall := simulate?_insertedAt hp hneutral hreach
  rcases Nat.lt_or_eq_of_le hk with hk | rfl
  · left
    have hi : i ≤ c.size := by
      obtain ⟨op, hop, -⟩ := (sound_of_stackProfile hp).fits _ hreach
      exact Nat.le_of_lt (List.getElem?_eq_some_iff.mp hop).1
    obtain ⟨op, m, hop, hm, htarget, hterm, hpops, hnext⟩ :=
      simulate?_take hall (by rwa [length_insertedAt])
    obtain rfl : m = q.2 := Option.some.inj (hm.symm.trans hsim)
    refine ⟨op, by rw [hq, getElem?_landing hsplice hi hk, hop], htarget, hterm, hpops, ?_⟩
    exact ⟨i, k + 1, d, hreach, hk, by rw [hq]; rfl, hnext⟩
  · right
    rw [← length_insertedAt, List.take_length, hall] at hsim
    obtain rfl : d = q.2 := Option.some.inj hsim
    exact ⟨i, hq, hreach⟩

include hlabels

theorem atPlace_fits {q : Nat × Nat} (h : c.AtPlace ins q) : c'.Fits q := by
  rcases atPlace_cases hp hneutral hsplice h with ⟨op, hop, htarget, -, hpops, -⟩ | ⟨i, hq, hi⟩
  · exact ⟨op, hop, hpops, by simp [htarget]⟩
  · obtain ⟨op, hop, hpops, htarget⟩ := (sound_of_stackProfile hp).fits _ hi
    refine ⟨op, by rw [hq, getElem?_position hsplice, hop], hpops, ?_⟩
    intro l hl
    obtain ⟨t, ht⟩ := htarget l hl
    exact ⟨position ins t, labelIndex?_position hsplice hlabels ht⟩

theorem atPlace_edge {q r : Nat × Nat} (h : c.AtPlace ins q) (he : c'.Edge q r) :
    c.AtPlace ins r := by
  rcases atPlace_cases hp hneutral hsplice h with ⟨op, hop, htarget, -, -, hnext⟩ | ⟨i, hq, hi⟩
  · cases he with
    | next hop' _ _ =>
        obtain rfl := Option.some.inj (hop.symm.trans hop')
        exact hnext
    | jump hop' hl _ _ =>
        obtain rfl := Option.some.inj (hop.symm.trans hop')
        simp [htarget] at hl
  · obtain ⟨op, hop, hpops, htarget⟩ := (sound_of_stackProfile hp).fits _ hi
    have hop₁ : c'.instructions[q.1]? = some op := by rw [hq, getElem?_position hsplice, hop]
    cases he with
    | next hop' hterm hle =>
        obtain rfl := Option.some.inj (hop₁.symm.trans hop')
        obtain rfl : _ = position ins i := hq
        rw [← landing_succ]
        exact atPlace_landing (hi.edge (Edge.next hop hterm hle))
    | jump hop' hl ht hle =>
        obtain rfl := Option.some.inj (hop₁.symm.trans hop')
        obtain ⟨t, ht'⟩ := htarget _ hl
        rw [labelIndex?_position hsplice hlabels ht', Option.some.injEq] at ht
        subst ht
        exact atPlace_position hp hneutral (hi.edge (Edge.jump hop hl ht' hle))

/-- Control in spliced code is at a place. -/
theorem reaches_atPlace {q : Nat × Nat} (h : c'.Reaches q) : c.AtPlace ins q := by
  induction h with
  | refl => exact atPlace_landing (Reaches.start c)
  | tail _ he ih => exact atPlace_edge hp hneutral hsplice hlabels ih he

theorem sound_splice : c'.Sound where
  fits := fun _ hq =>
    atPlace_fits hp hneutral hsplice hlabels (reaches_atPlace hp hneutral hsplice hlabels hq)
  unique := fun _ _ _ hd he => atPlace_unique (sound_of_stackProfile hp)
    (reaches_atPlace hp hneutral hsplice hlabels hd)
    (reaches_atPlace hp hneutral hsplice hlabels he)

omit hlabels in
/-- Control runs through the insertions at an index. -/
theorem reaches_through {i d : Nat} (hreach : c.Reaches (i, d))
    (h : c'.Reaches (landing ins i, d)) : c'.Reaches (position ins i, d) := by
  have hall := simulate?_insertedAt hp hneutral hreach
  have hi : i ≤ c.size := by
    obtain ⟨op, hop, -⟩ := (sound_of_stackProfile hp).fits _ hreach
    exact Nat.le_of_lt (List.getElem?_eq_some_iff.mp hop).1
  have hsteps : ∀ k ≤ addedAt ins i, ∃ m,
      simulate? ((insertedAt ins i).take k) d = some m ∧ c'.Reaches (landing ins i + k, m) := by
    intro k hk
    induction k with
    | zero => exact ⟨d, rfl, h⟩
    | succ k ih =>
        obtain ⟨m, hm, hreach'⟩ := ih (by omega)
        obtain ⟨op, m', hop, hm', -, hterm, hpops, hnext⟩ :=
          simulate?_take hall (k := k) (by rwa [length_insertedAt])
        obtain rfl : m = m' := Option.some.inj (hm.symm.trans hm')
        have hop' : c'.instructions[landing ins i + k]? = some op := by
          rw [getElem?_landing hsplice hi hk, hop]
        exact ⟨_, hnext, hreach'.edge (Edge.next hop' hterm hpops)⟩
  obtain ⟨m, hm, hreach'⟩ := hsteps (addedAt ins i) (Nat.le_refl _)
  rw [← length_insertedAt, List.take_length, hall] at hm
  obtain rfl : d = m := Option.some.inj hm
  exact hreach'

/-- What the code reaches, spliced code reaches at its position. -/
theorem reaches_position {q : Nat × Nat} (h : c.Reaches q) :
    c'.Reaches (position ins q.1, q.2) := by
  induction h with
  | refl =>
      exact reaches_through hp hneutral hsplice (Reaches.start c) (Reaches.start c')
  | @tail q r hq he ih =>
      have hr : c.Reaches r := Reaches.edge hq he
      cases he with
      | next hop hterm hle =>
          rw [← getElem?_position hsplice] at hop
          exact reaches_through hp hneutral hsplice hr (ih.edge (Edge.next hop hterm hle))
      | jump hop hl ht hle =>
          rw [← getElem?_position hsplice] at hop
          exact ih.edge
            (Edge.jump hop hl (labelIndex?_position hsplice hlabels ht) hle)

/-- The profile of spliced code has the heights that the instructions had. -/
theorem depthAt?_position {p' : StackProfile} (hp' : c'.stackProfile = .ok p') (i : Nat) :
    p'.depthAt? (position ins i) = p.depthAt? i := by
  apply Option.ext
  intro d
  rw [stackProfile_depthAt? hp', stackProfile_depthAt? hp]
  constructor
  · intro h
    obtain ⟨j, k, e, hreach, hk, hq, hsim⟩ := reaches_atPlace hp hneutral hsplice hlabels h
    obtain ⟨rfl, rfl⟩ := landing_inj (Nat.le_refl _) hk hq
    rw [← length_insertedAt, List.take_length, simulate?_insertedAt hp hneutral hreach] at hsim
    obtain rfl : e = d := Option.some.inj hsim
    exact hreach
  · exact reaches_position hp hneutral hsplice hlabels

end Spliced

end Projection

end Code

section Verification

variable {c : Code} {p : StackProfile}

theorem firstDrift_eq_none {before after : StackProfile} :
    ∀ {positions : List Nat} {i : Nat},
      (∀ k q, positions[k]? = some q → after.depthAt? q = before.depthAt? (i + k)) →
      firstDrift before after i positions = none
  | [], _, _ => rfl
  | q :: rest, i, h => by
      have hhere : after.depthAt? q = before.depthAt? i := h 0 q rfl
      have hrest : firstDrift before after (i + 1) rest = none := by
        apply firstDrift_eq_none
        intro k r hk
        rw [Nat.add_assoc, Nat.add_comm 1]
        exact h (k + 1) r hk
      rw [firstDrift]
      cases hd : before.depthAt? i with
      | none => exact hrest
      | some d => simp [hhere, hd, hrest]

/-- Only insertions at reached instructions are accepted, and these are in range. -/
theorem splice_of_neutral (hp : c.stackProfile = .ok p) {ins : List Insertion}
    (hneutral : ∀ x ∈ ins, x.isNeutral p = true) : ∃ c', c.splice ins = .ok c' := by
  refine ⟨_, Code.splice_ok_iff.mpr ⟨?_, rfl⟩⟩
  intro x hx
  obtain ⟨d, hd, -⟩ := isNeutral_iff.mp (hneutral x hx)
  obtain ⟨op, hop, -⟩ :=
    (Code.sound_of_stackProfile hp).fits _ ((Code.stackProfile_depthAt? hp).mp hd)
  exact Nat.le_of_lt (List.getElem?_eq_some_iff.mp hop).1

/-- The proposals that verified instrumentation splices. -/
def acceptedBy (p : StackProfile) (monitors : List Monitor) (c : Code) : List Insertion :=
  (proposals monitors c).filter (Insertion.isNeutral p)

theorem acceptedBy_isNeutral {monitors : List Monitor} {x : Insertion}
    (hx : x ∈ acceptedBy p monitors c) : x.isNeutral p = true :=
  (List.mem_filter.mp hx).2

/-- With a profile, verified instrumentation splices what it accepts and fails only for a label
that is set twice. -/
theorem instrument_of_stackProfile (hp : c.stackProfile = .ok p) (monitors : List Monitor) :
    ∃ c', c.splice (acceptedBy p monitors c) = .ok c' ∧
      ((labelsSet c'.instructions).Nodup →
        instrument true c monitors = .ok c' ∧ ∃ p', c'.stackProfile = .ok p') ∧
      (¬ (labelsSet c'.instructions).Nodup →
        ∃ l, instrument true c monitors = .error (.corrupted (.duplicateLabel l)) ∧
          2 ≤ (labelsSet c'.instructions).count l) := by
  have hneutral : ∀ x ∈ acceptedBy p monitors c, x.isNeutral p = true :=
    fun x hx => acceptedBy_isNeutral hx
  obtain ⟨c', hsplice⟩ := splice_of_neutral hp hneutral
  have hinstrument : instrument true c monitors
      = (verifyDepths c p (acceptedBy p monitors c) c').map fun _ => c' := by
    simp only [acceptedBy] at hsplice
    simp only [instrument, hp, if_true, spliceAll, hsplice, acceptedBy]
    cases verifyDepths c p ((proposals monitors c).filter (Insertion.isNeutral p)) c' <;> rfl
  refine ⟨c', hsplice, ?_, ?_⟩
  · intro hlabels
    obtain ⟨p', hp'⟩ := Code.stackProfile_isOk hlabels
      (Code.sound_splice hp hneutral hsplice hlabels)
    have hdrift : firstDrift p p' 0 (c.splicedPositions (acceptedBy p monitors c)) = none := by
      apply firstDrift_eq_none
      intro k q hk
      obtain ⟨-, rfl⟩ := Code.getElem?_splicedPositions.mp hk
      rw [Code.depthAt?_position hp hneutral hsplice hlabels hp', Nat.zero_add]
    rw [hinstrument]
    simp [verifyDepths, hp', hdrift, Except.map]
  · intro hlabels
    cases htable : c'.labelTable with
    | ok labels => exact absurd (Code.labelTable_ok_iff.mp ⟨labels, htable⟩) hlabels
    | error e =>
        obtain ⟨l, rfl, hcount⟩ := Code.labelTable_error htable
        refine ⟨l, ?_, hcount⟩
        rw [hinstrument]
        simp [verifyDepths, Code.stackProfile, htable, Except.map]

/-- **Verified instrumentation.**  It answers that code cannot be analysed exactly when the code
has no profile.  Otherwise it splices the accepted proposals; it fails exactly when these and the
code set some label twice, and then with that fault; and else every instruction, reached or not,
has the height in the profile of the result that it had before. -/
theorem instrument_verified (c : Code) (monitors : List Monitor) :
    (∀ e, instrument true c monitors = .error (.unanalyzable e) ↔ c.stackProfile = .error e) ∧
    (∀ e, instrument true c monitors = .error e →
      (∃ cause, e = .unanalyzable cause) ∨ ∃ l, e = .corrupted (.duplicateLabel l)) ∧
    ∀ p, c.stackProfile = .ok p →
      ((∃ l, instrument true c monitors = .error (.corrupted (.duplicateLabel l))) ↔
        ¬ (labelsSet c.instructions
            ++ (acceptedBy p monitors c).flatMap fun x => labelsSet x.ops).Nodup) ∧
      (∀ l, instrument true c monitors = .error (.corrupted (.duplicateLabel l)) →
        2 ≤ (labelsSet c.instructions
            ++ (acceptedBy p monitors c).flatMap fun x => labelsSet x.ops).count l) ∧
      ((labelsSet c.instructions
            ++ (acceptedBy p monitors c).flatMap fun x => labelsSet x.ops).Nodup →
        ∃ c' p', instrument true c monitors = .ok c' ∧
          c.splice (acceptedBy p monitors c) = .ok c' ∧ c'.stackProfile = .ok p' ∧
          ∀ i q, (c.splicedPositions (acceptedBy p monitors c))[i]? = some q →
            p'.depthAt? q = p.depthAt? i) := by
  cases hprofile : c.stackProfile with
  | error e =>
      have hinstrument : instrument true c monitors = .error (.unanalyzable e) := by
        simp [instrument, hprofile]
      rw [hinstrument]
      refine ⟨by simp, ?_, by simp⟩
      rintro _ ⟨⟩
      exact Or.inl ⟨e, rfl⟩
  | ok p =>
      obtain ⟨c', hsplice, hok, herror⟩ := instrument_of_stackProfile hprofile monitors
      have hperm := Code.labelsSet_splice hsplice
      by_cases hlabels : (labelsSet c'.instructions).Nodup
      · obtain ⟨hinstrument, p', hp'⟩ := hok hlabels
        rw [hinstrument]
        refine ⟨by simp, by simp, ?_⟩
        rintro _ ⟨⟩
        refine ⟨by simpa using hperm.nodup_iff.mp hlabels, by simp, ?_⟩
        intro _
        refine ⟨c', p', rfl, hsplice, hp', ?_⟩
        intro i q hq
        obtain ⟨-, rfl⟩ := Code.getElem?_splicedPositions.mp hq
        exact Code.depthAt?_position hprofile (fun x hx => acceptedBy_isNeutral hx) hsplice hlabels
          hp' _
      · obtain ⟨l, hinstrument, hcount⟩ := herror hlabels
        have hdup := fun h => hlabels (hperm.nodup_iff.mpr h)
        rw [hinstrument]
        refine ⟨by simp, ?_, ?_⟩
        · rintro _ ⟨⟩
          exact Or.inr ⟨l, rfl⟩
        · rintro _ ⟨⟩
          refine ⟨iff_of_true ⟨l, rfl⟩ hdup, ?_, fun h => absurd h hdup⟩
          rintro _ ⟨⟩
          rwa [← hperm.count_eq]

/-- Proposes a label in front of the join of `shortCircuit`, and a pop that is not neutral. -/
def labelAndPop : Monitor := Monitor.constant [⟨4, [.setLabel ⟨7⟩]⟩, ⟨1, [.popTop]⟩]

theorem instrument_verified_shortCircuit :
    shortCircuit.stackProfile
        = .ok ⟨[some 0, some 1, some 1, some 0, some 1, some 1], 1⟩ ∧
      ∃ c' p', instrument true shortCircuit [labelAndPop] = .ok c' ∧
        c'.stackProfile = .ok p' ∧ p'.depthAt? 5 = some 1 := by
  refine ⟨stackProfile_shortCircuit, ?_⟩
  obtain ⟨-, -, hok⟩ :=
    (instrument_verified shortCircuit [labelAndPop]).2.2 _ stackProfile_shortCircuit
  obtain ⟨c', p', hinstrument, -, hp', hdepths⟩ := hok (by decide)
  exact ⟨c', p', hinstrument, hp', hdepths 4 5 rfl⟩

end Verification
end TrackedExpr
