import TrackedExpr.Proofs.Families

/-!
# Each member runs once

A change is shown to all observers that were there when it began.  Of those that
report to one reactive binding, the first makes the binding run and so ends the
generation for which the others report.  So each binding runs once, though it may
listen to the attribute in two ways.

**Definitions.**
* `begun?`, `begunAll`: the evaluations that observers begin;
* `Member.HitBy`: an observer reports to a member in its present generation.

**Results.**
* `Family.react_cases`: all that an observer can do;
* `Family.react`: what it does to every member;
* `Family.reactAll`: what all observers that a change reaches do to every member.
-/

namespace TrackedExpr
namespace Session

section Beginnings

/-- Whether a binding is evaluated when it becomes invalid. -/
def Binding.reruns (B : Binding) : Bool :=
  match B.onInvalid with
  | .rerun _ _ => !B.evaluating
  | _ => false

/-- A session in which a binding is made dirty by an event on a channel. -/
def raised (c b : Nat) (w : Session) : Session :=
  modifyBinding { w with pins := [.channel c] ++ w.pins } b fun B => { B with dirty := true }

/-- The evaluation that an observer begins: the binding, and the session in which its code
begins to run. -/
def begun? (w : Session) : Reaction → Option (Nat × Session)
  | .script _ _ => none
  | .forward _ token =>
      if w.connected token then
        match w.channels[token.channel]? with
        | some ⟨_, .binding b⟩ =>
            let w := w.raised token.channel b
            match w.bindings[b]? with
            | some B =>
                if w.bindingAlive b && B.reruns then some (b, w.beginning b B) else none
            | none => none
        | _ => none
      else none

/-- The evaluations that observers begin in turn. -/
def begunAll (re : Reentry) (change : Change) :
    List (Observer Reaction) → Session → List (Nat × Session)
  | [], _ => []
  | o :: rest, w =>
      let pins := (o :: rest).map fun o => Pin.subscription o.subscription
      (begun? { w with pins := pins ++ w.pins } o.action).toList ++
        begunAll re change rest (w.keeping pins fun w => w.react re change o.action)

end Beginnings

section Reacting

variable {re : Reentry} {m j : Member} {w w' : Session} {F : List Member} {action : Reaction}

/-- An observer of a change reports to a member in the present generation of its channel. -/
def Member.HitBy (m : Member) (w : Session) (action : Reaction) : Prop :=
  ∃ l, action = .forward l (w.issue m.channel)

theorem Member.Linked.raised (h : m.Linked re w) (c b : Nat) : m.Linked re (w.raised c b) := by
  refine ⟨h.transfer ?_ rfl ?_, ?_, h.named⟩
  · intro B' hB'
    obtain ⟨B, hB, rfl | rfl⟩ := getElem?_modify_some hB'
    · exact ⟨B, hB, rfl, rfl⟩
    · exact ⟨B', hB, rfl, rfl⟩
  · exact fun _ cell hcell _ hob => Or.inl ⟨cell, hcell, hob⟩
  · exact (h.wired.pinned [.channel c]).flagged Binding.last (fun _ => true) Binding.evaluating b

theorem Family.raised (h : Family re w F) (c b : Nat) : Family re (w.raised c b) F :=
  h.same rfl rfl fun m hm => (h.linked m hm).raised c b

/-- A member's binding, which an event on its channel makes dirty. -/
theorem Member.Linked.binding_raised (h : m.Linked re w) :
    ∃ B, (w.raised m.channel m.binding).bindings[m.binding]? = some B := by
  obtain ⟨B, hB, -⟩ := (h.raised m.channel m.binding).wired.binding
  exact ⟨B, hB⟩

/-- An observer that reports to a member in the present generation makes it run. -/
theorem Member.Linked.notify (h : m.Linked re w) {B : Binding}
    (hB : (w.raised m.channel m.binding).bindings[m.binding]? = some B) (event : Event) :
    (w.notify re (w.issue m.channel) event).1
      = { (w.raised m.channel m.binding).rerun re m.id m.binding with pins := w.pins } := by
  obtain ⟨g, hg⟩ := h.wired.channel
  have hconnected : w.connected (w.issue m.channel) = true := (h.wired.connected_iff rfl).mpr rfl
  have halive := (h.wired.pinned [.channel m.channel]).alive
  obtain ⟨hinvalid, hevaluating⟩ := (h.raised m.channel m.binding).reactive B hB
  have hlocal : (modifyBinding { w with
      pins := [.binding m.binding] ++ ([.channel m.channel] ++ w.pins) } m.binding
        fun c => { c with dirty := true }).bindings[m.binding]? = some B := hB
  unfold Session.notify
  rw [if_pos hconnected]
  unfold Session.deliver
  rw [show (w.issue m.channel).channel = m.channel from rfl, hg]
  simp only [keeping, receive, halive, if_true, invalidate, hlocal, hevaluating,
    Bool.false_eq_true, if_false, reactToInvalidation, hinvalid]
  rfl

/-- The evaluation that such an observer begins. -/
theorem Member.Linked.begun (h : m.Linked re w) {B : Binding}
    (hB : (w.raised m.channel m.binding).bindings[m.binding]? = some B) (l : Option SlotKey) :
    w.begun? (.forward l (w.issue m.channel))
      = some (m.binding, (w.raised m.channel m.binding).beginning m.binding B) := by
  obtain ⟨g, hg⟩ := h.wired.channel
  have hconnected : w.connected (w.issue m.channel) = true := (h.wired.connected_iff rfl).mpr rfl
  have halive : (w.raised m.channel m.binding).bindingAlive m.binding = true :=
    (h.raised m.channel m.binding).wired.alive
  obtain ⟨hinvalid, hevaluating⟩ := (h.raised m.channel m.binding).reactive B hB
  have hreruns : B.reruns = true := by
    rw [Binding.reruns, hinvalid, hevaluating]
    rfl
  unfold begun?
  dsimp only
  rw [if_pos hconnected, show (w.issue m.channel).channel = m.channel from rfl, hg]
  simp only [hB, halive, hreruns, Bool.and_self, if_true]

/-- All that an observer can do: at most it writes the change down, or it makes the member run to
which it reports. -/
theorem Family.react_cases (h : Family re w F) (hidle : action.Idle) (change : Change) :
    (w.begun? action = none ∧ (∀ m ∈ F, ¬ m.HitBy w action) ∧
      (w.react re change action = w ∨
        ∃ id, w.react re change action = w.note (.change id change))) ∨
    ∃ m ∈ F, m.HitBy w action ∧ ∃ B,
      (w.raised m.channel m.binding).bindings[m.binding]? = some B ∧
      w.begun? action = some (m.binding, (w.raised m.channel m.binding).beginning m.binding B) ∧
      w.react re change action
        = { (w.raised m.channel m.binding).rerun re m.id m.binding with pins := w.pins } := by
  cases action with
  | script id actions =>
      obtain rfl : actions = [] := hidle
      refine Or.inl ⟨rfl, ?_, Or.inr ⟨id, rfl⟩⟩
      rintro m - ⟨l, hl⟩
      cases hl
  | forward l token =>
      cases hconnected : w.connected token with
      | false =>
          refine Or.inl ⟨by simp [begun?, hconnected], ?_, Or.inl (by simp [Session.react,
            Session.notify, hconnected])⟩
          rintro m hm ⟨l', hl'⟩
          obtain ⟨-, rfl⟩ := Reaction.forward.inj hl'
          rw [((h.linked m hm).wired.connected_iff rfl).mpr rfl] at hconnected
          cases hconnected
      | true =>
          cases hchannel : w.channels[token.channel]? with
          | none =>
              refine Or.inl ⟨by simp [begun?, hconnected, hchannel], ?_, Or.inl (by
                simp [Session.react, Session.notify, Session.deliver, hconnected, hchannel])⟩
              rintro m hm ⟨l', hl'⟩
              obtain ⟨-, rfl⟩ := Reaction.forward.inj hl'
              obtain ⟨g, hg⟩ := (h.linked m hm).wired.channel
              rw [show (w.issue m.channel).channel = m.channel from rfl, hg] at hchannel
              cases hchannel
          | some channel =>
              obtain ⟨m, hm, hmchannel⟩ :=
                h.channels token.channel (List.getElem?_eq_some_iff.mp hchannel).1
              have hlinked := h.linked m hm
              obtain rfl := (hlinked.wired.connected_iff hmchannel.symm).mp hconnected
              obtain ⟨B, hB⟩ := hlinked.binding_raised
              exact Or.inr ⟨m, hm, ⟨l, rfl⟩, B, hB, hlinked.begun hB l, hlinked.notify hB _⟩

/-- **What an observer does to every member.** -/
theorem Family.react (h : Family re w F) (hidle : action.Idle) (change : Change)
    (hbears : ∀ m ∈ F, m.Bears re (w.begun? action).toList) :
    Round re F (w.begun? action).toList (fun m => m.HitBy w action) w
      (w.react re change action) := by
  rcases h.react_cases hidle change with
    ⟨hnone, hmissed, hreact⟩ | ⟨m, hm, hhit, B, hB, hsome, hreact⟩
  · rw [hnone, Option.toList_none]
    have hrest : ∀ w', Family re w' F → w'.names = w.names → Stirs w w' →
        (∀ id, w'.pushed id = w.pushed id) → Round re F [] (fun m => m.HitBy w action) w w' :=
      fun w' hfamily hnames hstirs hpushed => Round.rest hfamily hnames hmissed fun m hm =>
        Member.Spared.of_stirs (h.linked m hm).wired hstirs (hpushed m.id)
    rcases hreact with hreact | ⟨id, hreact⟩
    · rw [hreact]
      exact hrest w h rfl (Stirs.refl w) fun _ => rfl
    · rw [hreact]
      exact hrest _ (h.noted _) rfl (Stirs.of_bindings rfl) fun _ => rfl
  · rw [hsome, Option.toList_some] at hbears ⊢
    rw [hreact]
    have hround := (h.raised m.channel m.binding).rerun hm hB (hbears m hm)
    have hpinned : Round re F _ (fun j => j = m)
        { w with pins := [.channel m.channel] ++ w.pins } _ :=
      hround.after_stirs (h.pinned _) (Stirs.raise _ _) rfl rfl
    refine (hpinned.unpinned h).congr fun j hj => ?_
    constructor
    · rintro ⟨l, rfl⟩
      obtain ⟨l', hl'⟩ := hhit
      obtain ⟨-, htoken⟩ := Reaction.forward.inj hl'
      exact h.eq_of_channel hj hm (congrArg Token.channel htoken)
    · rintro rfl
      exact hhit

/-- An observer that reported to a member before it ran does not report to it any more. -/
theorem Member.Linked.not_hitBy (h : m.Linked re w)
    (hold : ∀ l t, action = .forward l t → t.channel = m.channel →
      t.generation.toNat < m.evaluations) : ¬ m.HitBy w action := by
  rintro ⟨l, hl⟩
  have hlt := hold l _ hl rfl
  rw [h.generation, UInt64.toNat_ofNat_of_lt' h.bounded] at hlt
  exact absurd hlt (Nat.lt_irrefl _)

/-- **Each member runs once** if any of the observers that a change reaches reports to it in the
present generation, and not at all if none does. -/
theorem Family.reactAll (change : Change) {obs : List (Observer Reaction)}
    (hidle : ∀ ob ∈ obs, ob.action.Idle) : ∀ {w : Session} {F : List Member}, Family re w F →
      (∀ m ∈ F, ∀ ob ∈ obs, ∀ l t, ob.action = .forward l t → t.channel = m.channel →
        t.generation.toNat ≤ m.evaluations) →
      (∀ m ∈ F, m.Bears re (w.begunAll re change obs)) →
      Round re F (w.begunAll re change obs) (fun m => ∃ ob ∈ obs, m.HitBy w ob.action) w
        (w.reactAll re change obs) := by
  induction obs with
  | nil =>
      intro w F h _ _
      refine Round.rest h rfl ?_ fun m hm =>
        Member.Spared.of_stirs (h.linked m hm).wired (Stirs.refl w) rfl
      rintro m - ⟨ob, hob, -⟩
      cases hob
  | cons first rest ih =>
      intro w F h hold hbears
      let pins := (first :: rest).map fun ob => Pin.subscription ob.subscription
      let w₁ := w.keeping pins fun w => w.react re change first.action
      let es := (begun? { w with pins := pins ++ w.pins } first.action).toList
      have hbegun : w.begunAll re change (first :: rest) = es ++ w₁.begunAll re change rest := rfl
      rw [hbegun] at hbears ⊢
      have hround := (h.pinned pins).react (hidle first List.mem_cons_self) change
        fun m hm => (hbears m hm).left
      have hfirst : Round re F es (fun m => m.HitBy w first.action) w w₁ := hround.unpinned h
      have holder : ∀ m ∈ F, ∀ ob ∈ rest, ∀ l t, ob.action = .forward l t →
          t.channel = m.channel → t.generation.toNat ≤ m.evaluations :=
        fun m hm ob hob => hold m hm ob (List.mem_cons_of_mem _ hob)
      have hlater := ih (fun ob hob => hidle ob (List.mem_cons_of_mem _ hob)) hfirst.family
        (by
          refine List.forall_mem_map.mpr fun m hm ob hob l t hl ht => ?_
          rw [Member.after_toWiring] at ht
          exact Nat.le_trans (holder m hm ob hob l t hl ht) (m.evaluations_le_after es))
        (List.forall_mem_map.mpr fun m hm => (hbears m hm).right)
      -- once a member has run, the observers that come later are stale
      have honce : ∀ m ∈ F, m.HitBy w first.action →
          ¬ ∃ ob ∈ rest, (m.after es).HitBy w₁ ob.action := by
        rintro m hm hhit ⟨ob, hob, hob'⟩
        obtain ⟨-, -, hlt⟩ := (hfirst.served m hm).run hhit
        refine (hfirst.family.linked _ (List.mem_map_of_mem hm)).not_hitBy
          (fun l t hl ht => ?_) hob'
        rw [Member.after_toWiring] at ht
        exact Nat.lt_of_le_of_lt (holder m hm ob hob l t hl ht) hlt
      refine (hfirst.append hlater honce).congr fun m hm => ?_
      by_cases hhit : m.HitBy w first.action
      · exact ⟨fun _ => Or.inl hhit, fun _ => ⟨first, List.mem_cons_self, hhit⟩⟩
      · obtain ⟨hsame, hspared⟩ := (hfirst.served m hm).spared hhit
        simp only [hsame, Member.HitBy, List.exists_mem_cons_iff, hspared.issue]

end Reacting

end Session
end TrackedExpr
