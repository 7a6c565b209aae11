import Mathlib
import TrackedExpr.Proofs.Freshness

/-!
# A reactive binding runs again

A reactive binding is evaluated again and passes its result on.  This is seen in its own
channel, policies and flags, in new observers, and in the log; for another binding
nothing has changed.

**Definitions.**
* `rerun`: an evaluation of a binding that passes its result on and runs no script;
* `pushed`: the results that were passed on under a name, the latest first.

**Results.**
* `makeReactive_eq`: making a reactive binding ends with such an evaluation;
* `Wired.rerun`: what a binding knows after it has run again;
* `Wired.bystander`: another binding has run again.
-/

namespace TrackedExpr
namespace Session

section Passing

/-- Evaluates a binding and passes its result on under a name. -/
def rerun (re : Reentry) (id : String) (b : Nat) (w : Session) : Session :=
  w.keeping [.binding b] fun w =>
    let (w, r) := w.evaluateBinding re b
    w.passOn re id [] r

/-- A result that was passed on under a name. -/
def LogEntry.pushed? (id : String) : LogEntry → Option Outcome
  | .sink i r => if i = id then some r else none
  | _ => none

/-- The results that were passed on under a name, the latest first. -/
def pushed (w : Session) (id : String) : List Outcome :=
  w.log.filterMap (LogEntry.pushed? id)

variable {re : Reentry} {id : String} {b : Nat} {B : Binding} {w : Session} {r : Outcome}

theorem rerun_eq (hB : w.bindings[b]? = some B) (hr : (w.evaluation re b B).outcome = some r) :
    w.rerun re id b = (concluded b r w (w.evaluation re b B).state).note (.sink id r) := by
  unfold rerun
  simp only [keeping, evaluateBinding, hB, runCode, execute]
  unfold evaluation beginning at hr
  simp only [resetChannel, modifyChannel, modifyBinding] at hr ⊢
  rw [hr]
  cases r <;> rfl

/-- A reactive binding is made, evaluated, and named. -/
theorem makeReactive_eq {draft : BindingDraft} {w₁ : Session}
    (hmade : w.makeDrafted draft (.rerun id []) = .ok (w₁, b)) :
    w.makeReactive re id draft [] = .ok ((w₁.rerun re id b).nameBinding id b) := by
  simp only [makeReactive, hmade, bind, Except.bind, pure, Except.pure]
  rfl

end Passing

section Running

variable {re : Reentry} {k j : Wiring} {verify : Bool} {id : String} {B : Binding}
  {w w' : Session} {last : Outcome} {spots : Nat → String → Prop}

/-- Bindings that share neither a number, nor a channel, nor a policy. -/
structure Apart (k j : Wiring) : Prop where
  binding : k.binding ≠ j.binding
  channel : k.channel ≠ j.channel
  policies : ∀ p ∈ j.policies, p ∉ k.policies

theorem Apart.symm (h : Apart k j) : Apart j k :=
  ⟨h.binding.symm, h.channel.symm, fun p hp hmem => h.policies p hmem hp⟩

/-- The binding that is made next shares nothing with one that there is. -/
theorem Wired.apart (h : Wired j w) (plain code : Code) (scope : Scope) :
    Apart (w.nextWiring plain code scope) j := by
  obtain ⟨B, hB, -⟩ := h.binding
  obtain ⟨g, hg⟩ := h.channel
  constructor
  · exact Nat.ne_of_gt (List.getElem?_eq_some_iff.mp hB).1
  · exact Nat.ne_of_gt (List.getElem?_eq_some_iff.mp hg).1
  · intro p hp hmem
    obtain ⟨P, hP, -⟩ := h.policies p hp
    have hlt := (List.getElem?_eq_some_iff.mp hP).1
    simp only [Wiring.policies, nextWiring, List.mem_cons, List.not_mem_nil, or_false] at hmem
    omega

/-- Observers report to channels that exist. -/
def Directed (w : Session) : Prop :=
  ∀ (i : Nat) (cell : ObjectCell), w.objects[i]? = some cell → ∀ ob ∈ cell.observers,
    ∀ l t, ob.action = .forward l t → t.channel < w.channels.length

/-- What is known after a binding has run again. -/
structure Reran (re : Reentry) (k : Wiring) (verify : Bool) (id : String) (B : Binding)
    (last : Outcome) (w w' : Session) : Prop where
  wired : Wired k { w' with pins := [.binding k.binding] ++ w.pins }
  names : w'.names = w.names
  pins : w'.pins = w.pins
  channels : w'.channels.length = w.channels.length
  attributes : w'.attribute? = w.attribute?
  binding : w'.bindings[k.binding]?
    = some { B with dirty := false, evaluating := false, last := some last }
  issue : w'.issue k.channel = ⟨k.channel, w.generation k.channel + 1⟩
  observers : Extends (Fresh k w' (Among (Host.aims (host re) k.code k.scope w.patience Frame.start
    (w.beginning k.binding B)))) w.objects w'.objects
  log : w'.log = .sink id last :: w.log
  remembers : ∃ n, (host re).aims k.code k.scope w.patience Frame.start (w.beginning k.binding B)
      = (host re).aims k.plain k.scope n Frame.start (w.beginning k.binding B) ∧
    Remembers re k verify (w.beginning k.binding B) w' n
      ((host re).accesses k.code k.scope w.patience Frame.start (w.beginning k.binding B)) True

theorem generation_beginning (hB : B.channel = k.channel) {g : UInt64} {sink : Sink}
    (hg : w.channels[k.channel]? = some ⟨g, sink⟩) :
    (w.beginning k.binding B).issue k.channel = ⟨k.channel, w.generation k.channel + 1⟩ := by
  simp [issue, generation, beginning, resetChannel, modifyChannel, modifyBinding, hB, hg]

/-- **A binding runs again**, which is held on to meanwhile. -/
theorem Wired.rerun (hk : k.Proper verify)
    (h : Wired k { w with pins := [.binding k.binding] ++ w.pins })
    (hB : w.bindings[k.binding]? = some B)
    (hlast : (w.evaluation re k.binding B).outcome = some last) (id : String) :
    Reran re k verify id B last w (w.rerun re id k.binding) := by
  have hoverture := h.outset B
  obtain ⟨hrun, n, r, hn, hretraces⟩ := hk.evaluation (h.fits hB) hoverture hlast
  have hremembers := hretraces.remembers hoverture hn
  have haims := hretraces.aims
  have hwired := hretraces.wired
  have hgrows := hretraces.grows
  have hplace : Frame.start.relocate (k.insertions verify) = Frame.start := rfl
  rw [hplace] at hwired hgrows haims
  rw [← haims] at hgrows
  rw [hrun] at hwired hgrows hremembers
  rw [rerun_eq hB hlast]
  obtain ⟨g, hg⟩ : ∃ g, w.channels[k.channel]? = some ⟨g, .binding k.binding⟩ := h.channel
  have hissue := generation_beginning (h.fits hB).channel hg
  generalize w.evaluation re k.binding B = run at hwired hgrows hremembers
  have hstate : run.state.issue k.channel = ⟨k.channel, w.generation k.channel + 1⟩ :=
    (hgrows.issue k.channel).trans hissue
  have hrest := hgrows.rest
  constructor
  · exact ((hwired.unpinned h hgrows.names).flagged (fun _ => some last) Binding.dirty
      (fun _ => false) k.binding).noted (.sink id last)
  · exact hgrows.names
  · rfl
  · show run.state.channels.length = w.channels.length
    rw [hrest]
    exact List.length_modify _ _ _
  · exact hgrows.attribute?
  · have hbindings : run.state.bindings = (w.beginning k.binding B).bindings := by
      rw [hrest]
    simp [note, concluded, Session.modifyBinding, hbindings, Session.beginning,
      Session.resetChannel, modifyChannel, hB]
  · exact hstate
  · refine hgrows.cells.mono fun i ob hob => ?_
    obtain ⟨hspot, l, hl⟩ := hob
    refine ⟨hspot, l, ?_⟩
    rw [hl, hissue]
    exact congrArg (Reaction.forward l) hstate.symm
  · show _ :: run.state.log = _
    rw [hrest]
    rfl
  · exact ⟨n, haims, hremembers.beside _ _ _⟩

/-- A binding that has run again is wired up, if it was before. -/
theorem Reran.unpinned (h : Reran re k verify id B last w w') (hw : Wired k w) : Wired k w' := by
  have hunpinned := h.wired.unpinned hw h.names
  rw [← h.pins] at hunpinned
  exact hunpinned

theorem Reran.directed (h : Reran re k verify id B last w w') (hw : Directed w)
    (hk : k.channel < w.channels.length) : Directed w' := by
  intro i cell' hcell' ob hob l t hl
  rw [h.channels]
  rcases h.observers.observer hcell' hob with ⟨cell, hcell, hob⟩ | ⟨-, l', hl'⟩
  · exact hw i cell hcell ob hob l t hl
  · rw [hl', h.issue] at hl
    obtain ⟨-, rfl⟩ := Reaction.forward.inj hl
    exact hk

/-- A binding stays wired up while the policies of another one find new listeners. -/
theorem Wired.grown (hj : Wired j w) (hstill : Still w') (hgrows : Grows k spots w w')
    (hapart : ∀ p ∈ j.policies, p ∉ k.policies) :
    Wired j w' ∧ ∀ p ∈ j.policies, ∀ id a, Tuned j w p id a → Tuned j w' p id a := by
  have hpolicies : ∀ p ∈ j.policies, w'.policies[p]? = w.policies[p]? :=
    fun p hp => hgrows.others p (hapart p hp)
  constructor
  · have hrest := hgrows.rest
    refine ⟨hstill, ?_, ?_, ?_, ?_, ?_, ?_⟩
    · rw [hrest]
      exact hj.binding
    · rw [hrest]
      exact hj.channel
    · rw [hrest]
      exact hj.alive
    · rw [hrest]
      exact hj.loads
    · rw [hrest]
      exact hj.calls
    · intro p hp
      obtain ⟨P, hP, hbusy, hchannel, hsound⟩ := hj.policies p hp
      exact ⟨P, (hpolicies p hp).trans hP, hbusy, hchannel,
        hsound.mono fun _ _ _ _ _ hs => hgrows.cells.heard hs⟩
  · rintro p hp id a ⟨P, hP, htoken, hlistens⟩
    refine ⟨P, (hpolicies p hp).trans hP, ?_, hlistens.mono fun _ _ _ hs => hgrows.cells.heard hs⟩
    rw [htoken, hgrows.issue]

/-- **Another binding has run again**, which changes nothing about this one. -/
theorem Wired.bystander (hk : k.Proper verify)
    (h : Wired k { w with pins := [.binding k.binding] ++ w.pins })
    (hB : w.bindings[k.binding]? = some B)
    (hlast : (w.evaluation re k.binding B).outcome = some last) (hj : Wired j w)
    (hapart : Apart k j) (id : String) (o : ObjectRef) (attr : String) :
    Assigned j o attr w (w.rerun re id k.binding) ∧
      (w.rerun re id k.binding).bindings[j.binding]? = w.bindings[j.binding]? ∧
      (w.rerun re id k.binding).issue j.channel = w.issue j.channel := by
  obtain ⟨hrun, n, r, -, hretraces⟩ := hk.evaluation (h.fits hB) (h.outset B) hlast
  have hwired := hretraces.wired
  have hgrows := hretraces.grows
  have hplace : Frame.start.relocate (k.insertions verify) = Frame.start := rfl
  rw [hplace, hrun] at hwired hgrows
  rw [rerun_eq hB hlast]
  generalize w.evaluation re k.binding B = run at hwired hgrows
  obtain ⟨hgrown, htuned⟩ :=
    (hj.beginning k.binding B).grown hwired.toStill hgrows hapart.policies
  have hbegun : (w.beginning k.binding B).issue j.channel = w.issue j.channel := by
    have hne : B.channel ≠ j.channel := (h.fits hB).channel ▸ hapart.channel
    simp [Session.issue, generation, Session.beginning, Session.resetChannel, modifyChannel,
      Session.modifyBinding, hne]
  have hbinding : ((concluded k.binding last w run.state).note (.sink id last)).bindings[j.binding]?
      = w.bindings[j.binding]? := by
    have hstate : run.state.bindings = (w.beginning k.binding B).bindings := by
      rw [hgrows.rest]
    simp [note, concluded, Session.modifyBinding, hstate, Session.beginning,
      Session.resetChannel, modifyChannel, hapart.binding]
  have hissue : run.state.issue j.channel = w.issue j.channel :=
    (hgrows.issue j.channel).trans hbegun
  refine ⟨?_, hbinding, hissue⟩
  constructor
  · exact ((hgrown.unpinned hj hgrows.names).flagged (fun _ => some last) Binding.dirty
      (fun _ => false) k.binding).noted _
  · show run.state.patience = w.patience
    rw [hgrows.rest]
    rfl
  · exact hgrows.names
  · exact hgrows.kinds
  · exact fun x a _ => congrFun (congrFun hgrows.attribute? x) a
  · rw [hbinding]
  · rintro ⟨C, hC, hd⟩
    exact ⟨C, hbinding.trans hC, hd⟩
  · rintro x a ⟨p, hp, P, hP, htoken, hlistens⟩
    have htuned' : Tuned j (w.beginning k.binding B) p x.id a :=
      ⟨P, hP, htoken.trans hbegun.symm, hlistens⟩
    exact ⟨p, hp, htuned p hp x.id a htuned'⟩

end Running

end Session
end TrackedExpr
