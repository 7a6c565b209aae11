import TrackedExpr.Proofs.Rerunning

/-!
# Families of reactive bindings

Reactive bindings share models, and each has a channel, policies and a name of its own.
An evaluation ends the generation of its binding's channel, so that whatever observed
for this binding before is stale, and it changes nothing for the other bindings.

**Definitions.**
* `Member`: a reactive binding, with what is remembered of its latest evaluation;
* `Member.Linked`, `Member.Informed`: what holds between a session and a member, and what
  a member has last passed on;
* `Family`: a session whose channels belong to linked members;
* `Member.Spared`, `Member.Served`: nothing has happened to a member, or it has run once;
* `Round`: a family after evaluations.

**Results.**
* `Member.Traced.rerun`, `Member.Linked.bystander`: a member, and another one, has run;
* `Family.rerun`: a family in which a member has run;
* `Round.append`: two rounds in which no member runs twice are one;
* `Family.joined`: a family that a new member has joined.
-/

namespace TrackedExpr
namespace Session

/-- A reactive binding of a family: how it is wired up, the name of its results, whether its code
is verified, the session in which its latest evaluation began to run, whether every assignment
since has reported a change or has changed nothing, and the number of its evaluations. -/
structure Member extends Wiring where
  id : String
  verify : Bool
  outset : Session
  told : Prop
  evaluations : Nat

namespace Member

/-- The run of a member's code from a session. -/
def run (re : Reentry) (m : Member) (v : Session) : Execution Session :=
  (host re).run m.code m.scope v.patience Frame.start v

/-- The attributes that the latest evaluation has looked up. -/
def reads (re : Reentry) (m : Member) : List (ObjectRef × String) :=
  (host re).accesses m.code m.scope m.outset.patience Frame.start m.outset

/-- The attributes that the latest evaluation was aimed at. -/
def aims (re : Reentry) (m : Member) : List (ObjectRef × String) :=
  (host re).aims m.code m.scope m.outset.patience Frame.start m.outset

/-- The attributes that the latest evaluation would have looked up, had it not failed because a
keyword of the call was not text. -/
def balked (re : Reentry) (m : Member) : List (ObjectRef × String) :=
  (host re).balked m.code m.scope m.outset.patience Frame.start m.outset

/-- A member after an evaluation, which is its own if it is of its binding. -/
def evaluated (m : Member) (e : Nat × Session) : Member :=
  if e.1 = m.binding then
    { m with outset := e.2, told := True, evaluations := m.evaluations + 1 }
  else m

/-- A member after evaluations, the first one first. -/
def after (es : List (Nat × Session)) (m : Member) : Member := es.foldl evaluated m

variable (m : Member) (e : Nat × Session) (es : List (Nat × Session))

@[simp] theorem after_nil : m.after [] = m := rfl

theorem after_cons : m.after (e :: es) = (m.evaluated e).after es := rfl

theorem after_append (es' : List (Nat × Session)) :
    m.after (es ++ es') = (m.after es).after es' := List.foldl_append

theorem evaluated_own (v : Session) : m.evaluated (m.binding, v)
    = { m with outset := v, told := True, evaluations := m.evaluations + 1 } := if_pos rfl

theorem evaluated_other (h : e.1 ≠ m.binding) : m.evaluated e = m := if_neg h

@[simp] theorem evaluated_toWiring : (m.evaluated e).toWiring = m.toWiring := by
  unfold evaluated
  split <;> rfl

@[simp] theorem evaluated_id : (m.evaluated e).id = m.id := by
  unfold evaluated
  split <;> rfl

@[simp] theorem evaluated_verify : (m.evaluated e).verify = m.verify := by
  unfold evaluated
  split <;> rfl

@[simp] theorem after_toWiring : (m.after es).toWiring = m.toWiring := by
  induction es generalizing m with
  | nil => rfl
  | cons e es ih => exact (ih (m.evaluated e)).trans (m.evaluated_toWiring e)

@[simp] theorem after_id : (m.after es).id = m.id := by
  induction es generalizing m with
  | nil => rfl
  | cons e es ih => exact (ih (m.evaluated e)).trans (m.evaluated_id e)

@[simp] theorem after_verify : (m.after es).verify = m.verify := by
  induction es generalizing m with
  | nil => rfl
  | cons e es ih => exact (ih (m.evaluated e)).trans (m.evaluated_verify e)

@[simp] theorem run_after (re : Reentry) (v : Session) : (m.after es).run re v = m.run re v := by
  simp only [run, after_toWiring]

/-- A member counts the evaluations of its binding. -/
theorem evaluations_after : (m.after es).evaluations
    = m.evaluations + es.countP fun e => decide (e.1 = m.binding) := by
  induction es generalizing m with
  | nil => rfl
  | cons e es ih =>
      rw [after_cons, ih, evaluated_toWiring, List.countP_cons]
      by_cases hb : e.1 = m.binding
      · simp [evaluated, hb]
        omega
      · simp [evaluated, hb]

theorem evaluations_le_after : m.evaluations ≤ (m.after es).evaluations := by
  rw [evaluations_after]
  exact Nat.le_add_right _ _

/-- The evaluations among these that are a member's own end, and they are not too many. -/
structure Bears (re : Reentry) (es : List (Nat × Session)) (m : Member) : Prop where
  ends : ∀ e ∈ es, e.1 = m.binding → (m.run re e.2).outcome ≠ none
  bounded : (m.after es).evaluations < 2 ^ 64

variable {m es} {re : Reentry} {es' : List (Nat × Session)}

theorem Bears.left (h : m.Bears re (es ++ es')) : m.Bears re es where
  ends := fun e he => h.ends e (List.mem_append_left _ he)
  bounded := by
    have hbounded := h.bounded
    rw [after_append] at hbounded
    exact Nat.lt_of_le_of_lt (evaluations_le_after _ _) hbounded

theorem Bears.right (h : m.Bears re (es ++ es')) : (m.after es).Bears re es' where
  ends := by
    intro e he hb
    rw [after_toWiring] at hb
    rw [run_after]
    exact h.ends e (List.mem_append_right _ he) hb
  bounded := by
    rw [← after_append]
    exact h.bounded

end Member

section Linking

/-- What a session shows of a member: it reacts by running again, the generation of its channel is
the number of its evaluations, and whatever still observes for its present generation observes an
attribute that its latest evaluation was aimed at. -/
structure Member.Traced (re : Reentry) (w : Session) (m : Member) : Prop where
  proper : m.toWiring.Proper m.verify
  reactive : ∀ B, w.bindings[m.binding]? = some B →
    B.onInvalid = .rerun m.id [] ∧ B.evaluating = false
  generation : w.issue m.channel = ⟨m.channel, UInt64.ofNat m.evaluations⟩
  bounded : m.evaluations < 2 ^ 64
  observed : ∀ (i : Nat) (cell : ObjectCell), w.objects[i]? = some cell → ∀ ob ∈ cell.observers,
    ∀ l t, ob.action = .forward l t → t.channel = m.channel →
      t.generation.toNat ≤ m.evaluations ∧
        (t.generation.toNat = m.evaluations → Among (m.aims re) i ob.attr)

/-- A member that is wired up and has its name. -/
structure Member.Linked (re : Reentry) (w : Session) (m : Member) : Prop
    extends Member.Traced re w m where
  wired : Wired m.toWiring w
  named : Assoc.get? m.id w.names.bindings = some m.binding

/-- What a member has last passed on is what it remembers. -/
structure Member.Informed (re : Reentry) (w : Session) (m : Member) : Prop where
  memory : ∃ n, m.aims re = (host re).aims m.plain m.scope n Frame.start m.outset ∧
    Remembers re m.toWiring m.verify m.outset w n (m.reads re) m.told
  pushed : w.bindings[m.binding]?.map Binding.last = some (w.pushed m.id).head?

/-- A session whose channels belong to members that are linked to it and share nothing, and to
whose channels observers report. -/
structure Family (re : Reentry) (w : Session) (F : List Member) : Prop where
  still : Still w
  linked : ∀ m ∈ F, m.Linked re w
  apart : ∀ m ∈ F, ∀ j ∈ F, m = j ∨ Apart m.toWiring j.toWiring ∧ m.id ≠ j.id
  channels : ∀ c, c < w.channels.length → ∃ m ∈ F, m.channel = c
  directed : Directed w

/-- Nothing has happened to a member. -/
structure Member.Spared (m : Member) (w w' : Session) : Prop where
  assigned : ∀ o attr, Assigned m.toWiring o attr w w'
  attributes : w'.attribute? = w.attribute?
  issue : w'.issue m.channel = w.issue m.channel
  pushed : w'.pushed m.id = w.pushed m.id

variable {re : Reentry} {m j : Member} {w w' w'' : Session} {F : List Member}

/-- A member is shown as before if nothing about it has changed and nothing new reports to it. -/
theorem Member.Traced.transfer (h : m.Traced re w)
    (hbinding : ∀ B', w'.bindings[m.binding]? = some B' → ∃ B, w.bindings[m.binding]? = some B ∧
      B'.onInvalid = B.onInvalid ∧ B'.evaluating = B.evaluating)
    (hissue : w'.issue m.channel = w.issue m.channel)
    (hobservers : ∀ (i : Nat) (cell' : ObjectCell), w'.objects[i]? = some cell' →
      ∀ ob ∈ cell'.observers, (∃ cell, w.objects[i]? = some cell ∧ ob ∈ cell.observers) ∨
        ∀ l t, ob.action = .forward l t → t.channel ≠ m.channel) : m.Traced re w' where
  proper := h.proper
  reactive := by
    intro B' hB'
    obtain ⟨B, hB, hinvalid, hevaluating⟩ := hbinding B' hB'
    rw [hinvalid, hevaluating]
    exact h.reactive B hB
  generation := hissue.trans h.generation
  bounded := h.bounded
  observed := by
    intro i cell' hcell' ob hob l t hl ht
    rcases hobservers i cell' hcell' ob hob with ⟨cell, hcell, hob⟩ | hother
    · exact h.observed i cell hcell ob hob l t hl ht
    · exact absurd ht (hother l t hl)

/-- A session that differs in what a member does not show. -/
theorem Member.Traced.same (h : m.Traced re w) (hobjects : w'.objects = w.objects)
    (hchannels : w'.channels = w.channels) (hbindings : w'.bindings = w.bindings) :
    m.Traced re w' := by
  apply h.transfer
  · rw [hbindings]
    exact fun B hB => ⟨B, hB, rfl, rfl⟩
  · simp only [Session.issue, Session.generation, hchannels]
  · rw [hobjects]
    exact fun _ cell hcell _ hob => Or.inl ⟨cell, hcell, hob⟩

theorem Member.Linked.pinned (h : m.Linked re w) (pins : List Pin) :
    m.Linked re { w with pins := pins ++ w.pins } :=
  ⟨h.same rfl rfl rfl, h.wired.pinned pins, h.named⟩

theorem Member.Linked.unpinned (h : m.Linked re w') (hw : Wired m.toWiring w)
    (hnames : w'.names = w.names) : m.Linked re { w' with pins := w.pins } :=
  ⟨h.same rfl rfl rfl, h.wired.unpinned hw hnames, h.named⟩

theorem Member.Linked.noted (h : m.Linked re w) (e : LogEntry) : m.Linked re (w.note e) :=
  ⟨h.same rfl rfl rfl, h.wired.noted e, h.named⟩

/-- Names and pins do not matter to what a member has passed on. -/
theorem Member.Informed.moved (h : m.Informed re w) (names : Names) (pins : List Pin) :
    m.Informed re { w with names := names, pins := pins } := by
  obtain ⟨n, haims, hremembers⟩ := h.memory
  exact ⟨⟨n, haims, hremembers.beside _ _ _⟩, h.pushed⟩

theorem Member.Informed.pinned (h : m.Informed re w) (pins : List Pin) :
    m.Informed re { w with pins := pins } := h.moved w.names pins

/-- What a member has passed on stays true while nothing happens to it. -/
theorem Member.Informed.spared (h : m.Informed re w) (hspared : m.Spared w w') :
    m.Informed re w' := by
  obtain ⟨n, haims, hremembers⟩ := h.memory
  let o : ObjectRef := ⟨0, 0, "", ""⟩
  have hassigned := hspared.assigned o ""
  constructor
  · refine ⟨n, haims, hremembers.step hassigned fun htold => ⟨htold, ?_⟩⟩
    exact fun x _ _ => congrFun (congrFun hspared.attributes x.1) x.2
  · rw [hassigned.last, hspared.pushed]
    exact h.pushed

theorem Member.Spared.trans (h : m.Spared w w') (h' : m.Spared w' w'') : m.Spared w w'' where
  assigned := fun o attr => (h.assigned o attr).trans (h'.assigned o attr)
  attributes := h'.attributes.trans h.attributes
  issue := h'.issue.trans h.issue
  pushed := h'.pushed.trans h.pushed

theorem Member.Spared.unpinned {pins : List Pin} (h : m.Spared { w with pins := pins } w')
    (hw : Wired m.toWiring w) : m.Spared w { w' with pins := w.pins } where
  assigned := fun o attr => (h.assigned o attr).unpinned hw
  attributes := h.attributes
  issue := h.issue
  pushed := h.pushed

/-- Nothing happens to a member when callbacks that do nothing write down no result. -/
theorem Member.Spared.of_stirs (hw : Wired m.toWiring w) (h : Stirs w w')
    (hpushed : w'.pushed m.id = w.pushed m.id) : m.Spared w w' where
  assigned := fun _ _ => h.assigned hw
  attributes := by
    rw [h.rest]
    rfl
  issue := h.issue m.channel
  pushed := hpushed

end Linking

section Evaluating

variable {re : Reentry} {m j : Member} {w : Session} {B : Binding} {last : Outcome}

/-- Generations count evaluations as long as they do not overflow. -/
theorem Member.Traced.next (h : m.Traced re w) :
    (⟨m.channel, w.generation m.channel + 1⟩ : Token)
      = ⟨m.channel, UInt64.ofNat (m.evaluations + 1)⟩ := by
  have hgeneration := congrArg Token.generation h.generation
  rw [show w.generation m.channel = UInt64.ofNat m.evaluations from hgeneration,
    UInt64.ofNat_add]
  rfl

/-- **A member that runs again** passes on what it then remembers. -/
theorem Member.Traced.rerun (h : m.Traced re w)
    (hw : Wired m.toWiring { w with pins := [.binding m.binding] ++ w.pins })
    (hB : w.bindings[m.binding]? = some B)
    (hlast : (w.evaluation re m.binding B).outcome = some last)
    (hbounded : m.evaluations + 1 < 2 ^ 64) :
    (m.evaluated (m.binding, w.beginning m.binding B)).Traced re (w.rerun re m.id m.binding) ∧
      (m.evaluated (m.binding, w.beginning m.binding B)).Informed re
        (w.rerun re m.id m.binding) ∧
      (w.rerun re m.id m.binding).pushed m.id = last :: w.pushed m.id := by
  have hreran := hw.rerun h.proper hB hlast m.id
  generalize w.rerun re m.id m.binding = w' at hreran
  obtain ⟨hinvalid, -⟩ := h.reactive B hB
  have hpushed : w'.pushed m.id = last :: w.pushed m.id := by
    simp [Session.pushed, hreran.log, LogEntry.pushed?]
  rw [Member.evaluated_own]
  refine ⟨?_, ?_, hpushed⟩
  · constructor
    · exact h.proper
    · intro B' hB'
      obtain rfl := Option.some.inj (hreran.binding.symm.trans hB')
      exact ⟨hinvalid, rfl⟩
    · exact hreran.issue.trans h.next
    · exact hbounded
    · intro i cell' hcell' ob hob l t hl ht
      rcases hreran.observers.observer hcell' hob with ⟨cell, hcell, hob⟩ | ⟨hspot, l', hl'⟩
      · obtain ⟨hle, -⟩ := h.observed i cell hcell ob hob l t hl ht
        dsimp only
        exact ⟨by omega, by omega⟩
      · rw [hl', hreran.issue, h.next] at hl
        obtain ⟨-, rfl⟩ := Reaction.forward.inj hl
        have hgeneration := UInt64.toNat_ofNat_of_lt' hbounded
        exact ⟨Nat.le_of_eq hgeneration, fun _ => hspot⟩
  · constructor
    · exact hreran.remembers
    · rw [hreran.binding, hpushed]
      rfl

/-- Another member has run again. -/
theorem Member.Linked.bystander (hj : j.Linked re w) (hproper : m.toWiring.Proper m.verify)
    (hw : Wired m.toWiring { w with pins := [.binding m.binding] ++ w.pins })
    (hB : w.bindings[m.binding]? = some B)
    (hlast : (w.evaluation re m.binding B).outcome = some last)
    (hapart : Apart m.toWiring j.toWiring) (hid : m.id ≠ j.id) :
    j.Linked re (w.rerun re m.id m.binding) ∧ j.Spared w (w.rerun re m.id m.binding) := by
  have hreran := hw.rerun hproper hB hlast m.id
  have hassigned := fun o attr => hw.bystander hproper hB hlast hj.wired hapart m.id o attr
  generalize w.rerun re m.id m.binding = w' at hreran hassigned
  obtain ⟨hwired, hbinding, hissue⟩ := hassigned ⟨0, 0, "", ""⟩ ""
  constructor
  · refine ⟨hj.transfer ?_ hissue ?_, hwired.wired, ?_⟩
    · exact fun B' hB' => ⟨B', hbinding.symm.trans hB', rfl, rfl⟩
    · intro i cell' hcell' ob hob
      rcases hreran.observers.observer hcell' hob with hold | ⟨-, l, hl⟩
      · exact Or.inl hold
      · right
        intro l' t hl' ht
        rw [hl, hreran.issue] at hl'
        obtain ⟨-, rfl⟩ := Reaction.forward.inj hl'
        exact hapart.channel ht
    · rw [hreran.names]
      exact hj.named
  · constructor
    · exact fun o attr => (hassigned o attr).1
    · exact hreran.attributes
    · exact hissue
    · simp [Session.pushed, hreran.log, LogEntry.pushed?, hid]

end Evaluating

section Families

variable {re : Reentry} {m j : Member} {w w' : Session} {F : List Member}

/-- Members on the same channel are the same. -/
theorem Family.eq_of_channel (h : Family re w F) (hm : m ∈ F) (hj : j ∈ F)
    (hchannel : m.channel = j.channel) : m = j := by
  rcases h.apart m hm j hj with heq | ⟨hapart, -⟩
  · exact heq
  · exact absurd hchannel hapart.channel

/-- A family in a session with the same objects and channels, in which its members are linked. -/
theorem Family.same (h : Family re w F) (hobjects : w'.objects = w.objects)
    (hchannels : w'.channels = w.channels) (hlinked : ∀ m ∈ F, m.Linked re w') :
    Family re w' F where
  still := by
    refine ⟨?_, ?_⟩
    · rw [hobjects]
      exact h.still.cells
    · rw [hchannels]
      exact h.still.sinks
  linked := hlinked
  apart := h.apart
  channels := by
    rw [hchannels]
    exact h.channels
  directed := by
    rw [Directed, hobjects, hchannels]
    exact h.directed

theorem Family.pinned (h : Family re w F) (pins : List Pin) :
    Family re { w with pins := pins ++ w.pins } F :=
  h.same rfl rfl fun m hm => (h.linked m hm).pinned pins

theorem Family.unpinned (h : Family re w' F) (hw : ∀ m ∈ F, Wired m.toWiring w)
    (hnames : w'.names = w.names) : Family re { w' with pins := w.pins } F :=
  h.same rfl rfl fun m hm => (h.linked m hm).unpinned (hw m hm) hnames

theorem Family.wired_after (h : Family re w F) (es : List (Nat × Session)) :
    ∀ m ∈ F.map (Member.after es), Wired m.toWiring w := by
  refine List.forall_mem_map.mpr fun m hm => ?_
  rw [Member.after_toWiring]
  exact (h.linked m hm).wired

theorem Family.apart_after (h : Family re w F) (es : List (Nat × Session)) :
    ∀ m ∈ F.map (Member.after es), ∀ j ∈ F.map (Member.after es),
      m = j ∨ Apart m.toWiring j.toWiring ∧ m.id ≠ j.id := by
  refine List.forall_mem_map.mpr fun i hi => List.forall_mem_map.mpr fun j hj => ?_
  rcases h.apart i hi j hj with rfl | hapart
  · exact Or.inl rfl
  · right
    simpa using hapart

theorem Family.channels_after (h : Family re w F) (es : List (Nat × Session)) (c : Nat)
    (hc : c < w.channels.length) : ∃ m ∈ F.map (Member.after es), m.channel = c := by
  obtain ⟨j, hj, hjc⟩ := h.channels c hc
  refine ⟨_, List.mem_map_of_mem hj, ?_⟩
  rw [Member.after_toWiring]
  exact hjc

theorem Family.noted (h : Family re w F) (e : LogEntry) : Family re (w.note e) F :=
  h.same rfl rfl fun m hm => (h.linked m hm).noted e

/-- What evaluations do to a member: if it is due, it runs once and passes its result on; if it is
not, nothing happens to it. -/
structure Member.Served (re : Reentry) (due : Prop) (m m' : Member) (w w' : Session) : Prop where
  run : due → m'.Informed re w' ∧ (∃ r, w'.pushed m.id = r :: w.pushed m.id) ∧
    m.evaluations < m'.evaluations
  spared : ¬ due → m' = m ∧ m.Spared w w'

/-- A family after evaluations, which serve every member. -/
structure Round (re : Reentry) (F : List Member) (es : List (Nat × Session)) (due : Member → Prop)
    (w w' : Session) : Prop where
  family : Family re w' (F.map (Member.after es))
  names : w'.names = w.names
  served : ∀ m ∈ F, m.Served re (due m) (m.after es) w w'

/-- A family in which a member has run. -/
theorem Family.rerun (h : Family re w F) (hm : m ∈ F) {B : Binding}
    (hB : w.bindings[m.binding]? = some B)
    (hbears : m.Bears re [(m.binding, w.beginning m.binding B)]) :
    Round re F [(m.binding, w.beginning m.binding B)] (fun j => j = m) w
      (w.rerun re m.id m.binding) := by
  have hlinked := h.linked m hm
  have hwired := hlinked.wired.pinned [.binding m.binding]
  have hfits := hlinked.wired.fits hB
  have hbounded : m.evaluations + 1 < 2 ^ 64 := by
    have hbounded := hbears.bounded
    rwa [Member.after_cons, Member.evaluated_own] at hbounded
  obtain ⟨last, hlast⟩ : ∃ last, (w.evaluation re m.binding B).outcome = some last := by
    rw [evaluation, hfits.code, hfits.scope]
    exact Option.ne_none_iff_exists'.mp (hbears.ends _ List.mem_cons_self rfl)
  obtain ⟨hown, hinformed, hpushed⟩ := hlinked.toTraced.rerun hwired hB hlast hbounded
  have hreran := hwired.rerun hlinked.proper hB hlast m.id
  have hother : ∀ j ∈ F, j ≠ m → j.evaluated (m.binding, w.beginning m.binding B) = j ∧
      j.Linked re (w.rerun re m.id m.binding) ∧ j.Spared w (w.rerun re m.id m.binding) := by
    intro j hj hne
    rcases h.apart m hm j hj with rfl | ⟨hapart, hid⟩
    · exact absurd rfl hne
    · exact ⟨j.evaluated_other _ hapart.binding,
        (h.linked j hj).bystander hlinked.proper hwired hB hlast hapart hid⟩
  refine ⟨⟨⟨hreran.wired.cells, hreran.wired.sinks⟩, ?_, ?_, ?_, ?_⟩, hreran.names, ?_⟩
  · intro j' hj'
    obtain ⟨j, hj, rfl⟩ := List.mem_map.mp hj'
    by_cases hjm : j = m
    · subst hjm
      refine ⟨hown, ?_, ?_⟩
      · rw [Member.after_toWiring]
        exact hreran.unpinned hlinked.wired
      · rw [Member.after_id, Member.after_toWiring, hreran.names]
        exact hlinked.named
    · obtain ⟨hsame, hkept, -⟩ := hother j hj hjm
      rw [Member.after_cons, hsame]
      exact hkept
  · exact h.apart_after _
  · intro c hc
    rw [hreran.channels] at hc
    exact h.channels_after _ c hc
  · obtain ⟨g, hg⟩ := hlinked.wired.channel
    exact hreran.directed h.directed (List.getElem?_eq_some_iff.mp hg).1
  · intro j hj
    constructor
    · rintro rfl
      refine ⟨hinformed, ⟨last, hpushed⟩, ?_⟩
      rw [Member.after_cons, Member.evaluated_own]
      exact Nat.lt_succ_self _
    · intro hjm
      obtain ⟨hsame, -, hspared⟩ := hother j hj hjm
      exact ⟨hsame, hspared⟩

end Families

section Rounds

variable {re : Reentry} {m m' : Member} {w w' w'' : Session} {F : List Member}
  {es es' : List (Nat × Session)} {due due' : Member → Prop} {pins : List Pin}

theorem Member.Served.unpinned {due : Prop} (h : m.Served re due m' { w with pins := pins } w')
    (hw : Wired m.toWiring w) : m.Served re due m' w { w' with pins := w.pins } where
  run := fun hdue =>
    let ⟨hinformed, hpushed, hlt⟩ := h.run hdue
    ⟨hinformed.pinned w.pins, hpushed, hlt⟩
  spared := fun hspared => ⟨(h.spared hspared).1, (h.spared hspared).2.unpinned hw⟩

/-- What is done to a member at first and then, if it runs at most once. -/
theorem Member.Served.append {due due' : Prop} {m₁ m₂ : Member}
    (h : m.Served re due m₁ w w') (h' : m₁.Served re due' m₂ w' w'') (hid : m₁.id = m.id)
    (honce : due → ¬ due') : m.Served re (due ∨ due') m₂ w w'' := by
  constructor
  · rintro (hdue | hdue)
    · obtain ⟨hinformed, ⟨r, hr⟩, hlt⟩ := h.run hdue
      obtain ⟨rfl, hspared⟩ := h'.spared (honce hdue)
      refine ⟨hinformed.spared hspared, ⟨r, ?_⟩, hlt⟩
      rw [← hr, ← hid, hspared.pushed]
    · obtain ⟨rfl, hspared⟩ := h.spared fun hfirst => honce hfirst hdue
      obtain ⟨hinformed, ⟨r, hr⟩, hlt⟩ := h'.run hdue
      exact ⟨hinformed, ⟨r, by rw [hr, hspared.pushed]⟩, hlt⟩
  · intro hnone
    obtain ⟨rfl, hspared⟩ := h.spared fun hdue => hnone (Or.inl hdue)
    obtain ⟨rfl, hspared'⟩ := h'.spared fun hdue => hnone (Or.inr hdue)
    exact ⟨rfl, hspared.trans hspared'⟩

theorem Member.Served.congr {due due' : Prop} (h : m.Served re due m' w w') (hiff : due' ↔ due) :
    m.Served re due' m' w w' :=
  ⟨fun hdue => h.run (hiff.mp hdue), fun hnone => h.spared fun hdue => hnone (hiff.mpr hdue)⟩

/-- No evaluation begins. -/
theorem Round.rest (h : Family re w' F) (hnames : w'.names = w.names) (hnone : ∀ m ∈ F, ¬ due m)
    (hspared : ∀ m ∈ F, m.Spared w w') : Round re F [] due w w' where
  family := by
    rw [show F.map (Member.after []) = F from List.map_id'' (fun m => m.after_nil) F]
    exact h
  names := hnames
  served := fun m hm =>
    ⟨fun hdue => absurd hdue (hnone m hm), fun _ => ⟨rfl, hspared m hm⟩⟩

/-- The evaluations of two rounds, if no member runs in both. -/
theorem Round.append (h : Round re F es due w w')
    (h' : Round re (F.map (Member.after es)) es' due' w' w'')
    (honce : ∀ m ∈ F, due m → ¬ due' (m.after es)) :
    Round re F (es ++ es') (fun m => due m ∨ due' (m.after es)) w w'' where
  family := by
    have hmap : F.map (Member.after (es ++ es'))
        = (F.map (Member.after es)).map (Member.after es') := by
      rw [List.map_map]
      exact List.map_congr_left fun m _ => m.after_append es es'
    rw [hmap]
    exact h'.family
  names := h'.names.trans h.names
  served := by
    intro m hm
    rw [Member.after_append]
    exact (h.served m hm).append (h'.served _ (List.mem_map_of_mem hm)) (m.after_id es)
      (honce m hm)

theorem Round.congr (h : Round re F es due w w') (hiff : ∀ m ∈ F, due' m ↔ due m) :
    Round re F es due' w w' :=
  ⟨h.family, h.names, fun m hm => (h.served m hm).congr (hiff m hm)⟩

/-- A round after callbacks that do nothing and write down no result. -/
theorem Round.after_stirs (h : Round re F es due w' w'') (hw : Family re w F) (hstirs : Stirs w w')
    (hnames : w'.names = w.names) (hlog : w'.log = w.log) : Round re F es due w w'' where
  family := h.family
  names := h.names.trans hnames
  served := by
    intro m hm
    have hpushed : w'.pushed m.id = w.pushed m.id := by rw [Session.pushed, Session.pushed, hlog]
    have hspared := Member.Spared.of_stirs (hw.linked m hm).wired hstirs hpushed
    constructor
    · intro hdue
      obtain ⟨hinformed, ⟨r, hr⟩, hlt⟩ := (h.served m hm).run hdue
      exact ⟨hinformed, ⟨r, by rw [hr, hpushed]⟩, hlt⟩
    · intro hnone
      obtain ⟨hsame, hspared'⟩ := (h.served m hm).spared hnone
      exact ⟨hsame, hspared.trans hspared'⟩

theorem Round.unpinned (h : Round re F es due { w with pins := pins } w') (hw : Family re w F) :
    Round re F es due w { w' with pins := w.pins } where
  family := h.family.unpinned (hw.wired_after es) h.names
  names := h.names
  served := fun m hm => (h.served m hm).unpinned (hw.linked m hm).wired

end Rounds

section Joining

variable {re : Reentry} {m : Member} {w w₁ : Session} {F : List Member} {id : String} {b : Nat}
  {plain code : Code} {scope : Scope} {onInvalid : Invalidation} {B : Binding} {last : Outcome}

theorem Member.Spared.withNext (h : Wired m.toWiring w) (instrumented : Option Code) :
    m.Spared w (w.withNext plain instrumented scope onInvalid) where
  assigned := h.withNext instrumented
  attributes := rfl
  issue := by
    obtain ⟨g, hg⟩ := h.channel
    exact issue_withNext instrumented (List.getElem?_eq_some_iff.mp hg).1
  pushed := rfl

theorem Member.Linked.withNext (h : m.Linked re w) (instrumented : Option Code) :
    m.Linked re (w.withNext plain instrumented scope onInvalid) := by
  have hspared : m.Spared w (w.withNext plain instrumented scope onInvalid) :=
    Member.Spared.withNext h.wired instrumented
  refine ⟨h.transfer ?_ hspared.issue ?_, (hspared.assigned ⟨0, 0, "", ""⟩ "").wired, h.named⟩
  · intro B' hB'
    obtain ⟨B, hB, -⟩ := h.wired.binding
    obtain rfl := Option.some.inj (hB'.symm.trans (getElem?_append_some hB _))
    exact ⟨B', hB, rfl, rfl⟩
  · exact fun _ cell hcell _ hob => Or.inl ⟨cell, hcell, hob⟩

theorem Member.Linked.renamed (h : m.Linked re w) (hid : m.id ≠ id) :
    m.Linked re (w.nameBinding id b).1 := by
  have hnamed : Assoc.get? m.id (Assoc.put id b w.names.bindings) = some m.binding := by
    rw [Assoc.get?_put_ne hid]
    exact h.named
  exact ⟨h.same rfl rfl rfl,
    h.wired.moved (bindingAlive_of_named ⟨_, Assoc.mem_of_get? hnamed, rfl⟩), hnamed⟩

/-- **A member joins a family** when it has run for the first time and got its name. -/
theorem Family.joined (h : Family re w F) (hothers : ∀ j ∈ F, j.Linked re w₁)
    (hapart : ∀ j ∈ F, Apart m.toWiring j.toWiring ∧ m.id ≠ j.id)
    (hchannels : w₁.channels.length = w.channels.length + 1) (hm : m.channel = w.channels.length)
    (hdirected : Directed w₁) (htraced : m.Traced re w₁)
    (hwired : Wired m.toWiring { w₁ with pins := [.binding m.binding] ++ w₁.pins })
    (hB : w₁.bindings[m.binding]? = some B)
    (hlast : (w₁.evaluation re m.binding B).outcome = some last)
    (hbounded : m.evaluations + 1 < 2 ^ 64) :
    Family re ((w₁.rerun re m.id m.binding).nameBinding m.id m.binding).1
        (m.evaluated (m.binding, w₁.beginning m.binding B) :: F) ∧
      (m.evaluated (m.binding, w₁.beginning m.binding B)).Informed re
        ((w₁.rerun re m.id m.binding).nameBinding m.id m.binding).1 ∧
      ∀ j ∈ F, j.Spared w₁ (w₁.rerun re m.id m.binding) := by
  have hreran := hwired.rerun htraced.proper hB hlast m.id
  obtain ⟨hown, hinformed, -⟩ := htraced.rerun hwired hB hlast hbounded
  have hother : ∀ j ∈ F, j.Linked re (w₁.rerun re m.id m.binding) ∧
      j.Spared w₁ (w₁.rerun re m.id m.binding) := fun j hj =>
    (hothers j hj).bystander htraced.proper hwired hB hlast (hapart j hj).1 (hapart j hj).2
  generalize w₁.rerun re m.id m.binding = w₂ at hreran hown hinformed hother
  have hmoved : Wired m.toWiring (w₂.nameBinding m.id m.binding).1 :=
    hreran.wired.moved (bindingAlive_nameBinding m.id m.binding)
  refine ⟨⟨⟨hmoved.cells, hmoved.sinks⟩, ?_, ?_, ?_, ?_⟩, hinformed.moved _ _,
    fun j hj => (hother j hj).2⟩
  · intro j hj
    rcases List.mem_cons.mp hj with rfl | hj
    · refine ⟨hown.same rfl rfl rfl, ?_, ?_⟩
      · rw [Member.evaluated_toWiring]
        exact hmoved
      · rw [Member.evaluated_id, Member.evaluated_toWiring]
        exact Assoc.get?_put_self m.id m.binding _
    · exact (hother j hj).1.renamed (hapart j hj).2.symm
  · intro i hi j hj
    have hnew : ∀ j ∈ F, Apart (m.evaluated (m.binding, w₁.beginning m.binding B)).toWiring
        j.toWiring ∧ (m.evaluated (m.binding, w₁.beginning m.binding B)).id ≠ j.id := by
      simpa using hapart
    rcases List.mem_cons.mp hi with rfl | hi
    · rcases List.mem_cons.mp hj with rfl | hj
      · exact Or.inl rfl
      · exact Or.inr (hnew j hj)
    · rcases List.mem_cons.mp hj with rfl | hj
      · exact Or.inr ⟨(hnew i hi).1.symm, (hnew i hi).2.symm⟩
      · exact h.apart i hi j hj
  · intro c hc
    have hlength : w₂.channels.length = w.channels.length + 1 := hreran.channels.trans hchannels
    have hc : c < w.channels.length + 1 := hlength ▸ hc
    rcases Nat.lt_succ_iff_lt_or_eq.mp hc with hc | rfl
    · obtain ⟨j, hj, hjc⟩ := h.channels c hc
      exact ⟨j, List.mem_cons_of_mem _ hj, hjc⟩
    · refine ⟨_, List.mem_cons_self, ?_⟩
      rw [Member.evaluated_toWiring]
      exact hm
  · apply hreran.directed hdirected
    rw [hchannels, hm]
    exact Nat.lt_succ_self _

end Joining

end Session
end TrackedExpr
