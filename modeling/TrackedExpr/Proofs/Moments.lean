import Mathlib
import TrackedExpr.Value.Basic

/-!
# Accounts of what is done with a binding

An account tells, moment after moment, when evaluations of a binding begin and end, also
inside of others, what they read, and which changes are reported.

**Definitions.**
* `Moment`: what an account tells;
* `ReadSince`, `Overlooked`: reads since an evaluation last began, and changes after them;
* `holdings`, `Lost`: what the evaluation that ended last had read, level by level, and changes
  after that;
* `Flat`: an account in which no evaluation nests.

**Results.**
* `readSince_concat`, `Overlooked.of_concat`: one moment more;
* `Flat.overlooked`: without nesting, what is lost was overlooked.
-/

namespace TrackedExpr
namespace Session

/-- What an account of the proceedings with a binding tells. -/
inductive Moment
  | began
  | ended
  /-- the dependencies were severed by a reset -/
  | severed
  | read (o : ObjectRef) (attr : String)
  /-- a change was reported -/
  | changed (o : ObjectRef) (attr : String)

section Accounts

/-- The channel of the binding is reset when an evaluation begins, and when the binding is reset. -/
def Moment.resets : Moment → Bool
  | .began | .severed => true
  | _ => false

/-- An attribute was read and no evaluation has begun since. -/
def ReadSince (ms : List Moment) (o : ObjectRef) (attr : String) : Prop :=
  ∃ earlier later, ms = earlier ++ .read o attr :: later ∧ .began ∉ later

/-- An attribute was read and then changed, and no evaluation has begun since it was read. -/
def Overlooked (ms : List Moment) (o : ObjectRef) (attr : String) : Prop :=
  ∃ earlier between later, ms = earlier ++ .read o attr :: (between ++ .changed o attr :: later) ∧
    .began ∉ between ++ later

/-- What the evaluations that go on have read, the innermost first, and what the one that ended last
had read: each attribute with whether it was changed since. -/
structure Holdings where
  ongoing : List (List ((ObjectRef × String) × Bool)) := []
  last : List ((ObjectRef × String) × Bool) := []

def Holdings.after (h : Holdings) : Moment → Holdings
  | .began => { h with ongoing := [] :: h.ongoing }
  | .ended =>
      match h.ongoing with
      | [] => h
      | own :: outer => ⟨outer, own⟩
  | .severed => h
  | .read o attr =>
      match h.ongoing with
      | [] => h
      | own :: outer => { h with ongoing := (((o, attr), false) :: own) :: outer }
  | .changed o attr =>
      let mark := List.map fun e => (e.1, e.2 || e.1 = (o, attr))
      ⟨h.ongoing.map mark, mark h.last⟩

def holdings (ms : List Moment) : Holdings := ms.foldl Holdings.after {}

/-- The evaluation that ended last, whose result is kept, had read an attribute that was changed
since. -/
def Lost (ms : List Moment) (o : ObjectRef) (attr : String) : Prop :=
  ((o, attr), true) ∈ (holdings ms).last

/-- No evaluation begins while another goes on. -/
def Flat (ms : List Moment) : Prop :=
  ∀ earlier later, ms = earlier ++ later → (holdings earlier).ongoing.length ≤ 1

variable {ms : List Moment} {m : Moment} {o : ObjectRef} {attr : String}

theorem readSince_concat : ReadSince (ms ++ [m]) o attr ↔
    m = .read o attr ∨ m ≠ .began ∧ ReadSince ms o attr := by
  constructor
  · rintro ⟨earlier, later, heq, hbegan⟩
    rcases List.eq_nil_or_concat' later with rfl | ⟨later, m', rfl⟩
    · exact Or.inl (List.cons.inj (List.append_inj_right' heq rfl)).1
    · rw [← List.cons_append, ← List.append_assoc] at heq
      obtain ⟨rfl, hm⟩ := List.append_inj' heq rfl
      obtain rfl := (List.cons.inj hm).1
      rw [List.mem_append, not_or] at hbegan
      exact Or.inr ⟨fun heq => hbegan.2 (heq ▸ List.mem_singleton_self _), earlier, later, rfl,
        hbegan.1⟩
  · rintro (rfl | ⟨hm, earlier, later, rfl, hbegan⟩)
    · exact ⟨ms, [], rfl, List.not_mem_nil⟩
    · refine ⟨earlier, later ++ [m], by simp, ?_⟩
      rw [List.mem_append, List.mem_singleton, not_or]
      exact ⟨hbegan, Ne.symm hm⟩

theorem Overlooked.readSince (h : Overlooked ms o attr) : ReadSince ms o attr := by
  obtain ⟨earlier, between, later, rfl, hbegan⟩ := h
  refine ⟨earlier, _, rfl, ?_⟩
  simp_all

theorem Overlooked.of_concat (h : Overlooked (ms ++ [m]) o attr) :
    Overlooked ms o attr ∨ m = .changed o attr ∧ ReadSince ms o attr := by
  obtain ⟨earlier, between, later, heq, hbegan⟩ := h
  rcases List.eq_nil_or_concat' later with rfl | ⟨later, m', rfl⟩
  · rw [show earlier ++ .read o attr :: (between ++ [.changed o attr])
      = (earlier ++ .read o attr :: between) ++ [.changed o attr] by simp] at heq
    obtain ⟨rfl, hm⟩ := List.append_inj' heq rfl
    exact Or.inr ⟨(List.cons.inj hm).1, earlier, between, rfl, by simpa using hbegan⟩
  · rw [show earlier ++ .read o attr :: (between ++ .changed o attr :: (later ++ [m']))
      = (earlier ++ .read o attr :: (between ++ .changed o attr :: later)) ++ [m'] by simp] at heq
    obtain ⟨rfl, -⟩ := List.append_inj' heq rfl
    refine Or.inl ⟨earlier, between, later, rfl, ?_⟩
    simp_all

/-- Reads after which no evaluation has begun, each marked if it was overlooked. -/
def Recent (ms : List Moment) (es : List ((ObjectRef × String) × Bool)) : Prop :=
  ∀ e ∈ es, ReadSince ms e.1.1 e.1.2 ∧ (e.2 = true → Overlooked ms e.1.1 e.1.2)

theorem Overlooked.concat (h : Overlooked ms o attr) (hm : m ≠ .began) :
    Overlooked (ms ++ [m]) o attr := by
  obtain ⟨earlier, between, later, rfl, hbegan⟩ := h
  refine ⟨earlier, between, later ++ [m], by simp, ?_⟩
  rw [← List.append_assoc, List.mem_append, List.mem_singleton, not_or]
  exact ⟨hbegan, Ne.symm hm⟩

theorem ReadSince.overlooked (h : ReadSince ms o attr) :
    Overlooked (ms ++ [.changed o attr]) o attr := by
  obtain ⟨earlier, later, rfl, hbegan⟩ := h
  exact ⟨earlier, later, [], by simp, by simpa using hbegan⟩

theorem Recent.concat {es : List ((ObjectRef × String) × Bool)} (h : Recent ms es)
    (hm : m ≠ .began) : Recent (ms ++ [m]) es := fun e he =>
  ⟨readSince_concat.mpr (Or.inr ⟨hm, (h e he).1⟩), fun hchanged => ((h e he).2 hchanged).concat hm⟩

theorem Recent.changed {es : List ((ObjectRef × String) × Bool)} (h : Recent ms es) (o : ObjectRef)
    (attr : String) : Recent (ms ++ [.changed o attr])
      (es.map fun e => (e.1, e.2 || e.1 = (o, attr))) := by
  intro e' he'
  obtain ⟨e, he, rfl⟩ := List.mem_map.mp he'
  obtain ⟨hsince, hover⟩ := h.concat (m := .changed o attr) nofun e he
  refine ⟨hsince, fun hchanged => ?_⟩
  rcases Bool.or_eq_true_iff.mp hchanged with hbefore | hnow
  · exact hover hbefore
  · obtain ⟨rfl, rfl⟩ := Prod.mk.inj (of_decide_eq_true hnow)
    exact (h e he).1.overlooked

theorem holdings_concat : holdings (ms ++ [m]) = (holdings ms).after m := by
  rw [holdings, List.foldl_append]
  rfl

theorem Flat.of_concat (h : Flat (ms ++ [m])) : Flat ms := fun earlier later heq =>
  h earlier (later ++ [m]) (by rw [heq, List.append_assoc])

/-- Without nesting, an evaluation that goes on has read what was read since an evaluation last
began, and so has the one that ended last when none goes on. -/
theorem Flat.recent (hflat : Flat ms) : (∀ own ∈ (holdings ms).ongoing, Recent ms own) ∧
    ((holdings ms).ongoing = [] → Recent ms (holdings ms).last) := by
  induction ms using List.reverseRecOn with
  | nil => exact ⟨fun own hown => absurd hown List.not_mem_nil, fun _ e he => absurd he List.not_mem_nil⟩
  | append_singleton ms m ih =>
      obtain ⟨hongoing, hlast⟩ := ih hflat.of_concat
      have hone := hflat (ms ++ [m]) [] (List.append_nil _).symm
      rw [holdings_concat] at hone ⊢
      generalize holdings ms = h at hongoing hlast hone ⊢
      obtain ⟨ongoing, last⟩ := h
      cases m with
      | began =>
          have hnone : ongoing = [] := by simpa [Holdings.after] using hone
          subst hnone
          refine ⟨fun own hown => ?_, fun heq => absurd heq (List.cons_ne_nil _ _)⟩
          rw [List.mem_singleton.mp hown]
          exact fun e he => absurd he List.not_mem_nil
      | severed =>
          exact ⟨fun own hown => (hongoing own hown).concat nofun,
            fun hnone => (hlast hnone).concat nofun⟩
      | changed o attr =>
          refine ⟨fun own hown => ?_, fun hnone => ?_⟩
          · obtain ⟨own', hown', rfl⟩ := List.mem_map.mp hown
            exact (hongoing own' hown').changed o attr
          · exact (hlast (List.map_eq_nil_iff.mp hnone)).changed o attr
      | ended =>
          cases ongoing with
          | nil =>
              exact ⟨fun own hown => absurd hown List.not_mem_nil,
                fun hnone => (hlast hnone).concat nofun⟩
          | cons own outer =>
              exact ⟨fun own hown => (hongoing own (List.mem_cons_of_mem _ hown)).concat nofun,
                fun _ => (hongoing own List.mem_cons_self).concat nofun⟩
      | read o attr =>
          cases ongoing with
          | nil =>
              exact ⟨fun own hown => absurd hown List.not_mem_nil,
                fun hnone => (hlast hnone).concat nofun⟩
          | cons own outer =>
              refine ⟨fun own' hown => ?_, fun hnone => absurd hnone (List.cons_ne_nil _ _)⟩
              rcases List.mem_cons.mp hown with rfl | hown
              · intro e he
                rcases List.mem_cons.mp he with rfl | he
                · exact ⟨readSince_concat.mpr (Or.inl rfl), fun heq => absurd heq Bool.false_ne_true⟩
                · exact (hongoing own List.mem_cons_self).concat (m := .read o attr) nofun e he
              · exact (hongoing own' (List.mem_cons_of_mem _ hown)).concat nofun

/-- Without nesting, what is lost when no evaluation goes on was overlooked. -/
theorem Flat.overlooked (hflat : Flat ms) (hended : (holdings ms).ongoing = [])
    (hlost : Lost ms o attr) : Overlooked ms o attr :=
  (hflat.recent.2 hended _ hlost).2 rfl

end Accounts

end Session
end TrackedExpr
