import TrackedExpr.Proofs.Reactions
import TrackedExpr.Session.Perform

/-!
# Reactive bindings stay current

What each reactive binding of a family has last passed on is what its plain code
gives now, and an assignment that reports a change makes each of them run once that
was aimed at the attribute, and no other.

**Definitions.**
* `Fallow`: a session with models and records and nothing that depends on them;
* `begunBy`: the evaluations that an assignment begins;
* `Feasible`: an assignment during which all evaluations of members end;
* `FamilyCourse`: reactive bindings that are made, and assignments to models;
* `Member.Updated`: a member in an assignment.

**Results.**
* `Family.make`: a family with a new member;
* `Family.unreported`, `Family.reported`, `Family.assign`: a family after an assignment;
* `reactive_family_current`: every session on the course of a family;
* `reactive_family_departs`: how results of code that is not verified, and calls whose keywords
  are not text, differ.
-/

namespace TrackedExpr
namespace Session

section Courses

/-- A session with models and records, without channels, where nothing that observes an attribute
does more than write changes down. -/
structure Fallow (w : Session) : Prop where
  cells : ∀ (i : Nat) (cell : ObjectCell), w.objects[i]? = some cell → cell.Settled i
  channels : w.channels = []
  observers : ∀ (i : Nat) (cell : ObjectCell), w.objects[i]? = some cell →
    ∀ ob ∈ cell.observers, ∀ l t, ob.action ≠ .forward l t

/-- The evaluations that begin when a change is shown to the observers that it reaches. -/
def dispatchBegins (re : Reentry) (id : Nat) (change : Change) (w : Session) :
    List (Nat × Session) :=
  begunAll re change (w.reached id change.attr)
    { w.pruneAt id with pins := pinValues change.values ++ (w.pruneAt id).pins }

/-- The evaluations that begin when an assignment shows its change, if it reports one. -/
def assignBegins (re : Reentry) (o : ObjectRef) (schema : Schema) (attr : String) (v : Value)
    (w : Session) : List (Nat × Session) :=
  if w.Reports o schema attr v then
    (w.putAt o attr v).dispatchBegins re o.id (w.changeTo o attr v)
  else []

/-- The evaluations that an assignment to an attribute of a model begins. -/
def begunBy (re : Reentry) (o : ObjectRef) (schema : Schema) (attr : String) (v : Value)
    (w : Session) : List (Nat × Session) :=
  { w with pins := pinValues [.object o, v] ++ w.pins }.assignBegins re o schema attr v

/-- An assignment of a value to an attribute of a model, during which all evaluations of members
end, and after which no member has been evaluated 2^64 times. -/
structure Feasible (re : Reentry) (w : Session) (F : List Member) (o : ObjectRef)
    (schema : Schema) (attr : String) (v : Value) : Prop where
  model : w.schema? o = some schema
  value : v.MadeOf AtHome
  ends : ∀ m ∈ F, ∀ e ∈ w.begunBy re o schema attr v, e.1 = m.binding →
    (m.run re e.2).outcome ≠ none
  bounded : ∀ m ∈ F, (m.after (w.begunBy re o schema attr v)).evaluations < 2 ^ 64

/-- A member that was told of an assignment if `p` holds. -/
def Member.telling (p : Prop) (m : Member) : Member := { m with told := m.told ∧ p }

/-- The course of a family: instrumented reactive bindings with both monitors are made, and
attributes of models are assigned to.  With it go the members: an evaluation that an assignment
begins is the latest of its member; and a member that was not evaluated was told of all
assignments since its latest evaluation if each has reported a change or has changed nothing. -/
inductive FamilyCourse (re : Reentry) (start : Session) : Session → List Member → Prop
  | start : FamilyCourse re start start []
  | make {w w₁ w' : Session} {F : List Member} {id : String} {draft : BindingDraft} {b : Nat}
      {B : Binding} {reply : Reply} :
      FamilyCourse re start w F →
      (∀ m ∈ F, m.id ≠ id) →
      draft.config.monitorAttributes = true →
      draft.config.monitorGetattr = true →
      w.makeDrafted draft (.rerun id []) = .ok (w₁, b) →
      w₁.bindings[b]? = some B →
      B.instrumented.isSome →
      (∀ form raw, .call form raw ∈ B.plain.instructions → form = .plain) →
      (∀ v, .loadConst v ∈ B.plain.instructions → v.MadeOf AtHome) →
      (∀ name v, Assoc.get? name B.scope = some v → v.MadeOf AtHome) →
      (w₁.evaluation re b B).outcome ≠ none →
      w.makeReactive re id draft [] = .ok (w', reply) →
      FamilyCourse re start w' (⟨w.nextWiring B.plain B.code B.scope, id,
        draft.config.verifyStack, w₁.beginning b B, True, 1⟩ :: F)
  | assign {w : Session} {F : List Member} {o : ObjectRef} {schema : Schema} {attr : String}
      {v : Value} :
      FamilyCourse re start w F →
      Feasible re w F o schema attr v →
      FamilyCourse re start (w.assigned re o schema attr v)
        (F.map fun m => (m.telling (w.Reports o schema attr v ∨
          (w.assigned re o schema attr v).attribute? o attr = w.attribute? o attr)).after
            (w.begunBy re o schema attr v))

end Courses

section Joining

variable {re : Reentry} {w w₁ w' : Session} {F : List Member} {id : String} {plain code : Code}
  {scope : Scope} {draft : BindingDraft} {onInvalid : Invalidation} {b : Nat} {B : Binding}

theorem makeBinding_of_makeDrafted (h : w.makeDrafted draft onInvalid = .ok (w₁, b)) :
    ∃ code scope, w.makeBinding code scope draft.config onInvalid = .ok (w₁, b) := by
  unfold makeDrafted at h
  cases hcode : w.codeOf draft.code with
  | error e => simp [hcode, bind, Except.bind] at h
  | ok code =>
      cases hentries : w.entries draft.scope with
      | error e => simp [hcode, hentries, bind, Except.bind] at h
      | ok added =>
          rw [hcode, hentries] at h
          exact ⟨code, _, h⟩

/-- A member that has not run yet. -/
theorem Family.traced_next (h : Family re w F) {verify : Bool}
    (hproper : (w.nextWiring plain code scope).Proper verify) :
    Member.Traced re (w.withNext plain (some code) scope (.rerun id []))
      ⟨w.nextWiring plain code scope, id, verify, w, True, 0⟩ where
  proper := hproper
  reactive := by
    intro B hB
    obtain rfl := Option.some.inj (hB.symm.trans List.getElem?_concat_length)
    exact ⟨rfl, rfl⟩
  generation := by
    simp [issue, generation, withNext, nextWiring]
  bounded := Nat.two_pow_pos 64
  observed := by
    intro i cell hcell ob hob l t hl ht
    exact absurd ht (Nat.ne_of_lt (h.directed i cell hcell ob hob l t hl))

/-- **A reactive binding that is made** is a member that is up to date, and the others stay so. -/
theorem Family.make (h : Family re w F) (hinformed : ∀ m ∈ F, m.Informed re w)
    (hid : ∀ m ∈ F, m.id ≠ id) (hattributes : draft.config.monitorAttributes = true)
    (hgetattr : draft.config.monitorGetattr = true)
    (hmade : w.makeDrafted draft (.rerun id []) = .ok (w₁, b)) (hB : w₁.bindings[b]? = some B)
    (hinstrumented : B.instrumented.isSome)
    (hcalls : ∀ form raw, .call form raw ∈ B.plain.instructions → form = .plain)
    (hconstants : ∀ v, .loadConst v ∈ B.plain.instructions → v.MadeOf AtHome)
    (hscope : ∀ name v, Assoc.get? name B.scope = some v → v.MadeOf AtHome)
    (hends : (w₁.evaluation re b B).outcome ≠ none) :
    let F' := ⟨w.nextWiring B.plain B.code B.scope, id, draft.config.verifyStack,
      w₁.beginning b B, True, 1⟩ :: F
    let w' := ((w₁.rerun re id b).nameBinding id b).1
    Family re w' F' ∧ ∀ m ∈ F', m.Informed re w' := by
  obtain ⟨plain, scope, hmade⟩ := makeBinding_of_makeDrafted hmade
  obtain ⟨rfl, instrumented, rfl, hinstrument⟩ := exists_of_makeBinding hattributes hgetattr hmade
  obtain rfl := Option.some.inj (hB.symm.trans List.getElem?_concat_length)
  obtain ⟨code, rfl⟩ := Option.isSome_iff_exists.mp hinstrumented
  obtain ⟨last, hlast⟩ := Option.ne_none_iff_exists'.mp hends
  have hproper : (w.nextWiring plain code scope).Proper draft.config.verifyStack :=
    ⟨hinstrument code rfl, hcalls, hconstants, hscope⟩
  have halive : bindingAlive { w.withNext plain (some code) scope (.rerun id []) with
      names := w.names, pins := [.binding w.bindings.length] ++ w.pins } w.bindings.length
        = true := by
    simp [bindingAlive, Pin.binding?]
  have hdirected : Directed (w.withNext plain (some code) scope (.rerun id [])) :=
    fun i cell hcell ob hob l t hl => Nat.lt_of_lt_of_le
      (h.directed i cell hcell ob hob l t hl) (by simp [withNext])
  have hjoined := @Family.joined re
    ⟨w.nextWiring plain code scope, id, draft.config.verifyStack, w, True, 0⟩ w
    (w.withNext plain (some code) scope (.rerun id [])) F _ last h
    (fun j hj => (h.linked j hj).withNext (some code))
    (fun j hj => ⟨(h.linked j hj).wired.apart plain code scope, (hid j hj).symm⟩)
    List.length_append rfl hdirected (h.traced_next hproper) (h.still.wired halive) hB hlast
    (Nat.one_lt_two_pow (Nat.succ_ne_zero 63))
  rw [Member.evaluated_own] at hjoined
  obtain ⟨hfamily, hnew, hspared⟩ := hjoined
  refine ⟨hfamily, fun m hm => ?_⟩
  rcases List.mem_cons.mp hm with rfl | hm
  · exact hnew
  · have hothers : m.Spared w (w.withNext plain (some code) scope (.rerun id [])) :=
      Member.Spared.withNext (h.linked m hm).wired (some code)
    exact ((hinformed m hm).spared (hothers.trans (hspared m hm))).moved _ _

end Joining

section Assigning

variable {re : Reentry} {m : Member} {w w' : Session} {F : List Member} {o : ObjectRef}
  {schema : Schema} {attr : String} {v : Value} {p : Prop}

/-- A family among objects that have no other observers. -/
theorem Family.among (h : Family re w F) {objects : List ObjectCell}
    (hstill : Still { w with objects := objects })
    (hwired : ∀ m ∈ F, Wired m.toWiring { w with objects := objects })
    (hobservers : ∀ (i : Nat) (cell' : ObjectCell), objects[i]? = some cell' →
      ∀ ob ∈ cell'.observers, ∃ cell, w.objects[i]? = some cell ∧ ob ∈ cell.observers) :
    Family re { w with objects := objects } F where
  still := hstill
  linked := by
    intro m hm
    refine ⟨(h.linked m hm).transfer (fun B hB => ⟨B, hB, rfl, rfl⟩) rfl ?_, hwired m hm,
      (h.linked m hm).named⟩
    exact fun i cell' hcell' ob hob => Or.inl (hobservers i cell' hcell' ob hob)
  apart := h.apart
  channels := h.channels
  directed := by
    intro i cell' hcell' ob hob
    obtain ⟨cell, hcell, hob⟩ := hobservers i cell' hcell' ob hob
    exact h.directed i cell hcell ob hob

theorem Family.put (h : Family re w F) (hv : v.MadeOf AtHome) (o : ObjectRef) (attr : String) :
    Family re (w.putAt o attr v) F := by
  refine h.among (h.still.putAt hv) (fun m hm => ((h.linked m hm).wired.put hv).wired) ?_
  intro i cell' hcell' ob hob
  obtain ⟨cell, hcell, rfl | rfl⟩ := getElem?_modify_some hcell'
  · exact ⟨cell, hcell, hob⟩
  · exact ⟨cell', hcell, hob⟩

theorem Family.pruned (h : Family re w F) (o : ObjectRef) : Family re (w.pruneAt o.id) F := by
  refine h.among (h.still.pruneAt o.id)
    (fun m hm => (@Wired.pruned m.toWiring w o "" (h.linked m hm).wired).wired) ?_
  intro i cell' hcell' ob hob
  obtain ⟨cell, hcell, rfl | rfl⟩ := getElem?_modify_some hcell'
  · exact ⟨cell, hcell, List.mem_of_mem_filter hob⟩
  · exact ⟨cell', hcell, hob⟩

theorem Family.telling (h : Family re w F) (p : Prop) : Family re w (F.map (Member.telling p)) where
  still := h.still
  linked := by
    intro m' hm'
    obtain ⟨m, hm, rfl⟩ := List.mem_map.mp hm'
    have hlinked := h.linked m hm
    exact ⟨⟨hlinked.proper, hlinked.reactive, hlinked.generation, hlinked.bounded,
      hlinked.observed⟩, hlinked.wired, hlinked.named⟩
  apart := by
    intro i' hi' j' hj'
    obtain ⟨i, hi, rfl⟩ := List.mem_map.mp hi'
    obtain ⟨j, hj, rfl⟩ := List.mem_map.mp hj'
    rcases h.apart i hi j hj with rfl | hapart
    · exact Or.inl rfl
    · exact Or.inr hapart
  channels := by
    intro c hc
    obtain ⟨m, hm, hmc⟩ := h.channels c hc
    exact ⟨m.telling p, List.mem_map_of_mem hm, hmc⟩
  directed := h.directed

/-- An assignment that a member does not listen to, or that reports no change. -/
theorem Member.Informed.unheard (h : m.Informed re w) (hproper : m.toWiring.Proper m.verify)
    (hschema : w.schema? o = some schema) (hw : Assigned m.toWiring o attr w w')
    (hunheard : w.Reports o schema attr v → ¬ Heeds m.toWiring w o attr)
    (hpushed : w'.pushed m.id = w.pushed m.id)
    (hp : p → w.Reports o schema attr v ∨ w'.attribute? o attr = w.attribute? o attr) :
    (m.telling p).Informed re w' := by
  obtain ⟨n, haims, hremembers⟩ := h.memory
  constructor
  · exact ⟨n, haims, (hremembers.assigned hproper hschema hw hunheard).mono fun htold =>
      ⟨htold.1, hp htold.2⟩⟩
  · show w'.bindings[m.binding]?.map Binding.last = some (w'.pushed m.id).head?
    rw [hw.last, hpushed]
    exact h.pushed

/-- **A change reaches a member if its latest evaluation was aimed at the attribute.** -/
theorem Member.Linked.due_iff (h : m.Linked re w) (hinformed : m.Informed re w)
    (hschema : w.schema? o = some schema) (hobservable : schema.describe attr = .observable) :
    (∃ ob ∈ w.reached o.id attr, m.HitBy w ob.action) ↔ Among (m.aims re) o.id attr := by
  constructor
  · rintro ⟨ob, hob, l, hl⟩
    obtain ⟨rfl, -, cell, hcell, hob⟩ := mem_reached.mp hob
    refine (h.observed o.id cell hcell ob hob l _ hl rfl).2 ?_
    rw [h.generation]
    exact UInt64.toNat_ofNat_of_lt' h.bounded
  · rintro ⟨x, hx, hid, rfl⟩
    obtain ⟨n, haims, hremembers⟩ := hinformed.memory
    rw [haims] at hx
    have hdeclared : m.outset.declared? x.1 x.2 = some .observable := by
      have hx' : w.schema? x.1 = some schema := by
        rw [← hschema, schema?, schema?, object?, object?, hid]
      rw [schema?_congr hremembers.kinds] at hx'
      rw [declared?_of_schema? hx', hobservable]
    obtain ⟨ob, hob, hhit⟩ := h.wired.reached (hremembers.heeds x hx hdeclared)
    rw [hid] at hob
    exact ⟨ob, hob, hhit⟩

/-- A member in an assignment that makes it run once, or not at all. -/
structure Member.Updated (re : Reentry) (due : Prop) (m m' : Member) (w w' : Session) : Prop where
  informed : m'.Informed re w'
  run : due → ∃ r, w'.pushed m.id = r :: w.pushed m.id
  spared : ¬ due → w'.pushed m.id = w.pushed m.id

theorem Member.Updated.unpinned {due : Prop} {m' : Member} {pins : List Pin}
    (h : m.Updated re due m' { w with pins := pins } w') :
    m.Updated re due m' w { w' with pins := w.pins } :=
  ⟨h.informed.pinned w.pins, h.run, h.spared⟩

theorem Member.Updated.congr {due due' : Prop} {m' : Member} (h : m.Updated re due m' w w')
    (hiff : due' ↔ due) : m.Updated re due' m' w w' :=
  ⟨h.informed, fun hdue => h.run (hiff.mp hdue), fun hnot => h.spared fun hdue =>
    hnot (hiff.mpr hdue)⟩

/-- An assignment that reports no change. -/
theorem Family.unreported (h : Family re w F) (hinformed : ∀ m ∈ F, m.Informed re w)
    (hschema : w.schema? o = some schema) (hv : v.MadeOf AtHome)
    (hquiet : ¬ w.Reports o schema attr v) (hw' : w' = w ∨ w' = w.putAt o attr v)
    (hp : p → w.Reports o schema attr v ∨ w'.attribute? o attr = w.attribute? o attr) :
    Family re w' (F.map (Member.telling p)) ∧ w'.names = w.names ∧
      ∀ m ∈ F, m.Updated re False (m.telling p) w w' := by
  have hfamily : Family re w' F ∧ w'.names = w.names ∧ w'.log = w.log ∧
      ∀ m ∈ F, Assigned m.toWiring o attr w w' := by
    rcases hw' with rfl | rfl
    · exact ⟨h, rfl, rfl, fun m hm => (Stirs.refl w').assigned (h.linked m hm).wired⟩
    · exact ⟨h.put hv o attr, rfl, rfl, fun m hm => (h.linked m hm).wired.put hv⟩
  obtain ⟨hfamily, hnames, hlog, hassigned⟩ := hfamily
  have hpushed : ∀ id, w'.pushed id = w.pushed id := by
    intro id
    rw [Session.pushed, Session.pushed, hlog]
  refine ⟨hfamily.telling p, hnames, fun m hm => ⟨?_, False.elim, fun _ => hpushed m.id⟩⟩
  exact (hinformed m hm).unheard (h.linked m hm).proper hschema (hassigned m hm)
    (fun hreports => absurd hreports hquiet) (hpushed m.id) hp

/-- A change makes each member run once that an observer reports to which the change reaches. -/
theorem Family.dispatch (h : Family re w F) (o : ObjectRef) (change : Change)
    (hbears : ∀ m ∈ F, m.Bears re (w.dispatchBegins re o.id change)) :
    Round re F (w.dispatchBegins re o.id change)
      (fun m => ∃ ob ∈ w.reached o.id change.attr, m.HitBy w ob.action) (w.pruneAt o.id)
      (w.dispatch re (.object o.id) change) := by
  have hold : ∀ m ∈ F, ∀ ob ∈ w.reached o.id change.attr, ∀ l t, ob.action = .forward l t →
      t.channel = m.channel → t.generation.toNat ≤ m.evaluations := by
    intro m hm ob hob l t hl ht
    obtain ⟨-, -, cell, hcell, hob⟩ := mem_reached.mp hob
    exact ((h.linked m hm).observed o.id cell hcell ob hob l t hl ht).1
  have hround := Family.reactAll change (fun ob hob => h.still.idle_of_reached hob)
    ((h.pruned o).pinned (pinValues change.values)) hold hbears
  rw [dispatch_eq]
  exact hround.unpinned (h.pruned o)

theorem Member.Bears.telling {es : List (Nat × Session)} (h : m.Bears re es) (p : Prop) :
    (m.telling p).Bears re es where
  ends := h.ends
  bounded := by
    have hbounded := h.bounded
    rw [m.evaluations_after] at hbounded
    rw [(m.telling p).evaluations_after]
    exact hbounded

/-- **An assignment that reports a change** makes each member run once that was aimed at the
attribute, and no other. -/
theorem Family.reported (h : Family re w F) (hinformed : ∀ m ∈ F, m.Informed re w)
    (hschema : w.schema? o = some schema) (hv : v.MadeOf AtHome)
    (hreports : w.Reports o schema attr v)
    (hbears : ∀ m ∈ F, m.Bears re (w.assignBegins re o schema attr v))
    (hw' : w' = (w.putAt o attr v).dispatch re (.object o.id) (w.changeTo o attr v)) (p : Prop) :
    Family re w' (F.map fun m => (m.telling p).after (w.assignBegins re o schema attr v)) ∧
      w'.names = w.names ∧
      ∀ m ∈ F, m.Updated re (Among (m.aims re) o.id attr)
        ((m.telling p).after (w.assignBegins re o schema attr v)) w w' := by
  have hbegins : w.assignBegins re o schema attr v
      = (w.putAt o attr v).dispatchBegins re o.id (w.changeTo o attr v) := if_pos hreports
  have hput : Family re (w.putAt o attr v) F := h.put hv o attr
  rw [hbegins] at hbears ⊢
  have hround := (hput.telling p).dispatch o (w.changeTo o attr v)
    (List.forall_mem_map.mpr fun m hm => (hbears m hm).telling p)
  rw [← hw'] at hround
  generalize (w.putAt o attr v).dispatchBegins re o.id (w.changeTo o attr v) = es at hround
  have hmap : (F.map (Member.telling p)).map (Member.after es)
      = F.map fun m => (m.telling p).after es := List.map_map
  refine ⟨hmap ▸ hround.family, hround.names, ?_⟩
  intro m hm
  have hlinked := h.linked m hm
  have hdue := hlinked.due_iff (hinformed m hm) hschema hreports.2.1
  -- the change reaches the same observers before and after it is made
  have hserved : (m.telling p).Served re (Among (m.aims re) o.id attr) ((m.telling p).after es)
      ((w.putAt o attr v).pruneAt o.id) w' := by
    refine (hround.served _ (List.mem_map_of_mem hm)).congr ?_
    rw [← hdue, reached_putAt]
    rfl
  by_cases haimed : Among (m.aims re) o.id attr
  · obtain ⟨hnow, hpushed, -⟩ := hserved.run haimed
    exact ⟨hnow, fun _ => hpushed, fun hnot => absurd haimed hnot⟩
  · obtain ⟨hsame, hspared⟩ := hserved.spared haimed
    have hassigned : Assigned m.toWiring o attr w ((w.putAt o attr v).pruneAt o.id) :=
      (hlinked.wired.put hv).trans (hput.linked m hm).wired.pruned
    have hunheard : ¬ Heeds m.toWiring w o attr :=
      fun hheeds => haimed (hdue.mp (hlinked.wired.reached hheeds))
    have hbefore : (m.telling p).Informed re ((w.putAt o attr v).pruneAt o.id) :=
      (hinformed m hm).unheard hlinked.proper hschema hassigned (fun _ => hunheard) rfl
        (fun _ => Or.inl hreports)
    rw [hsame]
    exact ⟨hbefore.spared hspared, fun hyes => absurd hyes haimed, fun _ => hspared.pushed⟩

theorem Feasible.bears (h : Feasible re w F o schema attr v) :
    ∀ m ∈ F, m.Bears re (w.begunBy re o schema attr v) :=
  fun m hm => ⟨h.ends m hm, h.bounded m hm⟩

/-- **An assignment to a model** keeps every member up to date, and makes each one run once that
was aimed at the attribute if it reports a change, and no other. -/
theorem Family.assign (h : Family re w F) (hinformed : ∀ m ∈ F, m.Informed re w)
    (hfeasible : Feasible re w F o schema attr v)
    (hp : p → w.Reports o schema attr v ∨
      (w.assigned re o schema attr v).attribute? o attr = w.attribute? o attr) :
    Family re (w.assigned re o schema attr v)
        (F.map fun m => (m.telling p).after (w.begunBy re o schema attr v)) ∧
      ∀ m ∈ F, m.Updated re (w.Reports o schema attr v ∧ Among (m.aims re) o.id attr)
        ((m.telling p).after (w.begunBy re o schema attr v)) w (w.assigned re o schema attr v) := by
  let held : Session := { w with pins := pinValues [.object o, v] ++ w.pins }
  have hheld : Family re held F := h.pinned _
  have hknown : ∀ m ∈ F, m.Informed re held := fun m hm => (hinformed m hm).pinned _
  have hwired : ∀ es, ∀ m ∈ F.map fun m => (m.telling p).after es, Wired m.toWiring w := by
    refine fun es => List.forall_mem_map.mpr fun m hm => ?_
    rw [Member.after_toWiring]
    exact (h.linked m hm).wired
  by_cases hreports : held.Reports o schema attr v
  · obtain ⟨hfamily, hnames, hupdated⟩ := hheld.reported hknown hfeasible.model hfeasible.value
      hreports hfeasible.bears (assign_of_reports re hreports) p
    refine ⟨hfamily.unpinned (hwired _) hnames, fun m hm => ?_⟩
    exact (hupdated m hm).unpinned.congr (and_iff_right hreports)
  · have hbegins : w.begunBy re o schema attr v = [] := if_neg hreports
    rw [hbegins]
    obtain ⟨hfamily, hnames, hupdated⟩ := hheld.unreported hknown hfeasible.model hfeasible.value
      hreports (assign_of_not_reports re hreports) hp
    refine ⟨hfamily.unpinned (hwired []) hnames, fun m hm => ?_⟩
    exact (hupdated m hm).unpinned.congr (iff_of_false (fun hdue => hreports hdue.1) not_false)

end Assigning

section Current

variable {re : Reentry} {w₀ w : Session} {F : List Member}

theorem Fallow.family (h : Fallow w₀) : Family re w₀ [] where
  still := by
    refine ⟨h.cells, ?_⟩
    rw [h.channels]
    intro i c hc
    cases hc
  linked := fun m hm => absurd hm List.not_mem_nil
  apart := fun m hm => absurd hm List.not_mem_nil
  channels := by
    rw [h.channels]
    exact fun c hc => absurd hc (Nat.not_lt_zero c)
  directed := fun i cell hcell ob hob l t hl => absurd hl (h.observers i cell hcell ob hob l t)

/-- What a member was aimed at it has looked up, or would have if the keywords of the call had been
text. -/
theorem Member.Linked.among_aims_iff {m : Member} (h : m.Linked re w) {id : Nat} {attr : String} :
    Among (m.aims re) id attr ↔ Among (m.reads re) id attr ∨ Among (m.balked re) id attr := by
  have hmem : ∀ x, x ∈ m.aims re ↔ x ∈ m.reads re ∨ x ∈ m.balked re :=
    fun x => Host.mem_aims_iff h.proper.codeCalls
  simp only [Among, hmem, or_and_right, exists_or]

/-- **On its whole course** a family stays one, and its members are up to date. -/
theorem FamilyCourse.family (hfallow : Fallow w₀) (hcourse : FamilyCourse re w₀ w F) :
    Family re w F ∧ ∀ m ∈ F, m.Informed re w := by
  induction hcourse with
  | start => exact ⟨hfallow.family, fun m hm => absurd hm List.not_mem_nil⟩
  | make _ hid hattributes hgetattr hmade hB hinstrumented hcalls hconstants hscope hends
      hreactive ih =>
      rw [makeReactive_eq hmade] at hreactive
      obtain ⟨rfl, -⟩ := Prod.mk.inj (Except.ok.inj hreactive)
      exact ih.1.make ih.2 hid hattributes hgetattr hmade hB hinstrumented hcalls hconstants hscope
        hends
  | assign _ hfeasible ih =>
      obtain ⟨hfamily, hupdated⟩ := ih.1.assign ih.2 hfeasible id
      refine ⟨hfamily, fun m' hm' => ?_⟩
      obtain ⟨m, hm, rfl⟩ := List.mem_map.mp hm'
      exact (hupdated m hm).informed

/-- **Reactive bindings stay current and run once per change.**  In a session with models and
records make reactive bindings with both monitors, of code that makes plain calls only and takes
nothing native from its constants and its scope, all of them instrumented and under different
names; and assign to attributes of models, while all evaluations end and no binding is evaluated
2^64 times.  At any point of this course the result that a binding has last passed on is exactly
what its plain code gives now, if the models that its latest evaluation has read declare what was
read observable, and every assignment since that changed an attribute has reported the change;
only if a value is missing in code that was not verified, it can be missing at another place.  And
an assignment that reports a change makes each binding pass on exactly one result whose latest
evaluation has looked the attribute up; at any other assignment nothing is passed on, nor is
anything of a binding whose latest evaluation neither has looked the attribute up nor would have if
the keywords of the call had been text. -/
theorem reactive_family_current (hfallow : Fallow w₀) (hcourse : FamilyCourse re w₀ w F) :
    (∀ m ∈ F, (∀ x ∈ m.reads re, w.Declares x.1 x.2) → m.told →
      ∃ r last, (w.execute re m.plain m.scope w.patience).outcome = some r ∧
        (w.pushed m.id).head? = some last ∧ Matches m.verify r last) ∧
    ∀ o schema attr v, Feasible re w F o schema attr v → ∀ m ∈ F,
      (w.Reports o schema attr v ∧ Among (m.reads re) o.id attr →
        ∃ r, (w.assigned re o schema attr v).pushed m.id = r :: w.pushed m.id) ∧
      (¬ (w.Reports o schema attr v ∧
          (Among (m.reads re) o.id attr ∨ Among (m.balked re) o.id attr)) →
        (w.assigned re o schema attr v).pushed m.id = w.pushed m.id) := by
  obtain ⟨hfamily, hinformed⟩ := hcourse.family hfallow
  constructor
  · intro m hm hdeclares htold
    obtain ⟨n, -, hremembers⟩ := (hinformed m hm).memory
    obtain ⟨r, last, hr, hlast, hmatches⟩ :=
      hremembers.fresh (hfamily.linked m hm).proper hdeclares htold
    rw [(hinformed m hm).pushed] at hlast
    exact ⟨r, last, hr, Option.some.inj hlast, hmatches⟩
  · intro o schema attr v hfeasible m hm
    obtain ⟨-, hupdated⟩ := hfamily.assign hinformed hfeasible id
    have haims : Among (m.aims re) o.id attr ↔
        Among (m.reads re) o.id attr ∨ Among (m.balked re) o.id attr :=
      (hfamily.linked m hm).among_aims_iff
    constructor
    · rintro ⟨hreports, hreads⟩
      exact (hupdated m hm).run ⟨hreports, haims.mpr (Or.inl hreads)⟩
    · intro hnot
      rw [← haims] at hnot
      exact (hupdated m hm).spared hnot

end Current

section Single

/-- The binding of instrumented code that is made next to run again by itself. -/
def nextBinding (w : Session) (plain code : Code) (scope : Scope) (id : String) : Binding where
  plain := plain
  instrumented := some code
  scope := scope
  channel := w.channels.length
  attributes := some w.policies.length
  getattr := some (w.policies.length + 1)
  onInvalid := .rerun id []
  last := none
  dirty := true
  evaluating := false

/-- The session in which this binding was made and not evaluated yet. -/
def withReactive (w : Session) (plain code : Code) (scope : Scope) (id : String) : Session :=
  w.withNext plain (some code) scope (.rerun id [])

/-- The member that this binding is after its first evaluation. -/
def nextMember (w : Session) (plain code : Code) (scope : Scope) (id : String) (verify : Bool) :
    Member :=
  ⟨w.nextWiring plain code scope, id, verify,
    (w.withReactive plain code scope id).beginning w.bindings.length
      (w.nextBinding plain code scope id), True, 1⟩

/-- The session after its first evaluation, in which it has its name. -/
def withMember (re : Reentry) (w : Session) (plain code : Code) (scope : Scope) (id : String) :
    Session :=
  ((w.withReactive plain code scope id).rerun re id w.bindings.length).nameBinding id
    w.bindings.length |>.1

variable {re : Reentry} {w : Session}

/-- A family of one member. -/
theorem FamilyCourse.single {id : String} {draft : BindingDraft} {plain code : Code}
    {scope : Scope} (hattributes : draft.config.monitorAttributes = true)
    (hgetattr : draft.config.monitorGetattr = true)
    (hmade : w.makeDrafted draft (.rerun id [])
      = .ok (w.withReactive plain code scope id, w.bindings.length))
    (hcalls : ∀ form raw, .call form raw ∈ plain.instructions → form = .plain)
    (hconstants : ∀ v, .loadConst v ∈ plain.instructions → v.MadeOf AtHome)
    (hscope : ∀ name v, Assoc.get? name scope = some v → v.MadeOf AtHome) {r : Outcome}
    (hends : ((w.withReactive plain code scope id).evaluation re w.bindings.length
      (w.nextBinding plain code scope id)).outcome = some r) :
    FamilyCourse re w (w.withMember re plain code scope id)
      [w.nextMember plain code scope id draft.config.verifyStack] :=
  FamilyCourse.make (B := w.nextBinding plain code scope id) .start
    (fun _ hm => absurd hm List.not_mem_nil) hattributes hgetattr hmade
    List.getElem?_concat_length rfl hcalls hconstants hscope
    (ne_of_eq_of_ne hends (Option.some_ne_none r)) (makeReactive_eq hmade)

/-- An assignment in a family of one member. -/
theorem Feasible.single {m : Member} {o : ObjectRef} {schema : Schema} {attr : String} {v : Value}
    (hmodel : w.schema? o = some schema) (hvalue : v.MadeOf AtHome)
    (hends : ((w.begunBy re o schema attr v).all fun e => (m.run re e.2).outcome.isSome) = true)
    {n : Nat} (hcount : (m.after (w.begunBy re o schema attr v)).evaluations = n)
    (hbounded : n < 2 ^ 64) : Feasible re w [m] o schema attr v where
  model := hmodel
  value := hvalue
  ends := by
    intro j hj e he _
    obtain rfl := List.mem_singleton.mp hj
    exact Option.isSome_iff_ne_none.mp (List.all_eq_true.mp hends e he)
  bounded := by
    intro j hj
    obtain rfl := List.mem_singleton.mp hj
    rw [hcount]
    exact hbounded

end Single

section Point

/-- A session with a model, which is in scope. -/
def scopedPoint : Session := { pointSession with scope := [("p", .object point)] }

/-- A binding to be made of `loadX`. -/
def pointDraft : BindingDraft :=
  ⟨.ops Code.defaultName [.plain (.loadName "p"), .plain (.loadAttr "x"), .plain .returnValue],
    [], {}⟩

/-- The session in which the binding is made and `x` is 3. -/
def reactivePoint : Session :=
  scopedPoint.withMember (enter 1) loadX watchedLoadX [("p", .object point)] "b"

/-- The binding as a member. -/
def pointMember : Member :=
  scopedPoint.nextMember loadX watchedLoadX [("p", .object point)] "b" true

/-- The session after `x` was set to 4. -/
def updatedPoint : Session := reactivePoint.assigned (enter 1) point pointSchema "x" (.int 4)

/-- The binding after `x` was set to 4. -/
def updatedMember : Member :=
  (pointMember.telling (reactivePoint.Reports point pointSchema "x" (.int 4) ∨
    updatedPoint.attribute? point "x" = reactivePoint.attribute? point "x")).after
      (reactivePoint.begunBy (enter 1) point pointSchema "x" (.int 4))

theorem fallow_scopedPoint : Fallow scopedPoint := by
  refine ⟨quiet_pointSession.cells, rfl, ?_⟩
  intro i cell hcell ob hob
  obtain ⟨hi, rfl⟩ := List.getElem?_eq_some_iff.mp hcell
  obtain rfl : i = 0 := Nat.lt_one_iff.mp hi
  cases hob

theorem madeOf_pointScope (name : String) (v : Value)
    (hv : Assoc.get? name [("p", Value.object point)] = some v) : v.MadeOf AtHome := by
  by_cases hname : "p" = name
  · obtain rfl : Value.object point = v := by simpa [Assoc.get?, hname] using hv
    exact (rfl : point.address = point.id)
  · simp [Assoc.get?, hname] at hv

theorem course_reactivePoint : FamilyCourse (enter 1) scopedPoint reactivePoint [pointMember] := by
  have hinstrument : instrumentFor {} loadX [Monitor.attributes ⟨0, "attribute_binder"⟩,
      Monitor.calls ⟨1, "call_binder"⟩] = .ok (some watchedLoadX) := by cbv
  have hmade : scopedPoint.makeDrafted pointDraft (.rerun "b" [])
      = .ok (scopedPoint.withReactive loadX watchedLoadX [("p", .object point)] "b", 0) :=
    makeBinding_of_instrumentFor rfl rfl hinstrument
  have hends : ((scopedPoint.withReactive loadX watchedLoadX [("p", .object point)] "b").evaluation
      (enter 1) 0 (scopedPoint.nextBinding loadX watchedLoadX [("p", .object point)] "b")).outcome
        = some (.ok (.int 3)) := by cbv
  exact FamilyCourse.single rfl rfl hmade (by simp [loadX, Code.ofInstructions])
    (by simp [loadX, Code.ofInstructions]) madeOf_pointScope hends

theorem feasible_reactivePoint :
    Feasible (enter 1) reactivePoint [pointMember] point pointSchema "x" (.int 4) :=
  .single (by cbv) trivial (by cbv) (n := 2) (by cbv) (by decide)

theorem course_updatedPoint : FamilyCourse (enter 1) scopedPoint updatedPoint [updatedMember] :=
  course_reactivePoint.assign feasible_reactivePoint

theorem reactive_family_current_point :
    (∃ r last, (updatedPoint.execute (enter 1) loadX [("p", .object point)]
        updatedPoint.patience).outcome = some r ∧
      (updatedPoint.pushed "b").head? = some last ∧ Matches true r last) ∧
    ∃ r, updatedPoint.pushed "b" = r :: reactivePoint.pushed "b" := by
  constructor
  · have hreads : updatedMember.reads (enter 1) = [(point, "x")] := by cbv
    have hschema : updatedPoint.schema? point = some pointSchema := by cbv
    have hdeclares : ∀ x ∈ updatedMember.reads (enter 1), updatedPoint.Declares x.1 x.2 := by
      intro x hx schema hx'
      rw [hreads] at hx
      obtain rfl := List.mem_singleton.mp hx
      obtain rfl := Option.some.inj (hschema.symm.trans hx')
      rfl
    have htold : updatedMember.told := by cbv
    have hnow := (reactive_family_current fallow_scopedPoint course_updatedPoint).1 updatedMember
      List.mem_cons_self hdeclares htold
    have hwiring : updatedMember.toWiring = pointMember.toWiring := Member.after_toWiring _ _
    have hverify : updatedMember.verify = true := Member.after_verify _ _
    have hid : updatedMember.id = "b" := Member.after_id _ _
    rw [hwiring, hverify, hid] at hnow
    exact hnow
  · have hreads : pointMember.reads (enter 1) = [(point, "x")] := by cbv
    have hreports : reactivePoint.Reports point pointSchema "x" (.int 4) :=
      ⟨by cbv, by cbv, by cbv⟩
    have hread : Among (pointMember.reads (enter 1)) point.id "x" := by
      rw [hreads]
      exact ⟨(point, "x"), List.mem_cons_self, rfl, rfl⟩
    exact ((reactive_family_current fallow_scopedPoint course_reactivePoint).2 point pointSchema "x"
      (.int 4) feasible_reactivePoint pointMember List.mem_cons_self).1 ⟨hreports, hread⟩

end Point

section Departing

/-- A session with nothing in it. -/
def emptySession : Session := { patience := 100 }

/-- A binding to be made of `loadNothing`, whose code is not verified. -/
def lackingDraft : BindingDraft :=
  ⟨.ops Code.defaultName [.plain (.loadAttr "x"), .plain .returnValue], [],
    { verifyStack := false }⟩

/-- The session in which the binding of `loadNothing` is made. -/
def lackingSession : Session :=
  emptySession.withMember (enter 1) loadNothing watchedLoadNothing [] "b"

/-- The binding of `loadNothing` as a member. -/
def lackingMember : Member := emptySession.nextMember loadNothing watchedLoadNothing [] "b" false

/-- Calls `getattr` for `x` of the model, with a keyword that is not text. -/
def callKeyed : Code := Code.ofInstructions
  [.loadName "getattr", .loadName "p", .loadConst (.str "x"), .loadConst (.int 5),
    .loadConst (.int 1), .call .plain 258, .returnValue]

/-- `callKeyed` with the site of its call. -/
def watchedCallKeyed : Code := Code.ofInstructions <|
  [.loadName "getattr", .loadName "p", .loadConst (.str "x"), .loadConst (.int 5),
    .loadConst (.int 1)] ++ callSite ⟨1, "call_binder"⟩ 258 ++ [.call .plain 258, .returnValue]

/-- A binding to be made of `callKeyed`. -/
def keyedDraft : BindingDraft :=
  ⟨.ops Code.defaultName
    [.plain (.loadName "getattr"), .plain (.loadName "p"), .loadConst (.str "x"),
      .loadConst (.int 5), .loadConst (.int 1), .plain (.call .plain 258), .plain .returnValue],
    [], {}⟩

/-- The session in which the binding of `callKeyed` is made. -/
def keyedPoint : Session :=
  scopedPoint.withMember (enter 1) callKeyed watchedCallKeyed [("p", .object point)] "b"

/-- The binding of `callKeyed` as a member. -/
def keyedMember : Member :=
  scopedPoint.nextMember callKeyed watchedCallKeyed [("p", .object point)] "b" true

theorem course_lackingSession :
    FamilyCourse (enter 1) emptySession lackingSession [lackingMember] := by
  have hinstrument : instrumentFor { verifyStack := false } loadNothing
      [Monitor.attributes ⟨0, "attribute_binder"⟩, Monitor.calls ⟨1, "call_binder"⟩]
        = .ok (some watchedLoadNothing) := by cbv
  have hmade : emptySession.makeDrafted lackingDraft (.rerun "b" [])
      = .ok (emptySession.withReactive loadNothing watchedLoadNothing [] "b", 0) := by
    show emptySession.makeBinding loadNothing [] { verifyStack := false } (.rerun "b" []) = _
    exact makeBinding_of_instrumentFor rfl rfl hinstrument
  have hends : ((emptySession.withReactive loadNothing watchedLoadNothing [] "b").evaluation
      (enter 1) 0 (emptySession.nextBinding loadNothing watchedLoadNothing [] "b")).outcome
        = some (.error (.stackUnderflow 0 "DUP_TOP")) := by cbv
  exact FamilyCourse.single rfl rfl hmade (by simp [loadNothing, Code.ofInstructions])
    (by simp [loadNothing, Code.ofInstructions]) (by rintro _ _ ⟨⟩) hends

theorem course_keyedPoint : FamilyCourse (enter 1) scopedPoint keyedPoint [keyedMember] := by
  have hinstrument : instrumentFor {} callKeyed [Monitor.attributes ⟨0, "attribute_binder"⟩,
      Monitor.calls ⟨1, "call_binder"⟩] = .ok (some watchedCallKeyed) := by cbv
  have hmade : scopedPoint.makeDrafted keyedDraft (.rerun "b" [])
      = .ok (scopedPoint.withReactive callKeyed watchedCallKeyed [("p", .object point)] "b", 0) :=
    makeBinding_of_instrumentFor rfl rfl hinstrument
  have hends : ((scopedPoint.withReactive callKeyed watchedCallKeyed
      [("p", .object point)] "b").evaluation (enter 1) 0
        (scopedPoint.nextBinding callKeyed watchedCallKeyed [("p", .object point)] "b")).outcome
          = some (.error (.type (.keywordNotText "int"))) := by cbv
  have hconstants : ∀ v, .loadConst v ∈ callKeyed.instructions → v.MadeOf AtHome := by
    simp only [callKeyed, Code.ofInstructions, List.mem_cons, List.not_mem_nil, reduceCtorEq,
      Instruction.loadConst.injEq, false_or, or_false, forall_eq_or_imp, forall_eq]
    exact ⟨trivial, trivial, trivial⟩
  exact FamilyCourse.single rfl rfl hmade (by simp [callKeyed, Code.ofInstructions])
    hconstants madeOf_pointScope hends

/-- **Where code is not verified**, a reactive binding can pass on another error than its plain code
gives; **and a call of `getattr` whose keyword is not text** fails before it looks anything up, but
a change of the attribute at which it was aimed makes the binding run. -/
theorem reactive_family_departs :
    (∃ w F, Fallow emptySession ∧ FamilyCourse (enter 1) emptySession w F ∧
      ∃ m ∈ F, m.reads (enter 1) = [] ∧ m.told ∧
        (w.execute (enter 1) m.plain m.scope w.patience).outcome
          = some (.error (.stackUnderflow 0 "LOAD_ATTR")) ∧
        (w.pushed m.id).head? = some (.error (.stackUnderflow 0 "DUP_TOP"))) ∧
    ∃ w F, Fallow scopedPoint ∧ FamilyCourse (enter 1) scopedPoint w F ∧
      Feasible (enter 1) w F point pointSchema "x" (.int 4) ∧
      w.Reports point pointSchema "x" (.int 4) ∧
      ∃ m ∈ F, m.reads (enter 1) = [] ∧
        ∃ r, (w.assigned (enter 1) point pointSchema "x" (.int 4)).pushed m.id
          = r :: w.pushed m.id := by
  constructor
  · exact ⟨lackingSession, [lackingMember], ⟨nofun, rfl, nofun⟩, course_lackingSession,
      lackingMember, List.mem_cons_self, by cbv, trivial, by cbv, by cbv⟩
  · have hreports : keyedPoint.Reports point pointSchema "x" (.int 4) := ⟨by cbv, by cbv, by cbv⟩
    have hfeasible : Feasible (enter 1) keyedPoint [keyedMember] point pointSchema "x" (.int 4) :=
      .single (by cbv) trivial (by cbv) (n := 2) (by cbv) (by decide)
    exact ⟨keyedPoint, [keyedMember], fallow_scopedPoint, course_keyedPoint, hfeasible, hreports,
      keyedMember, List.mem_cons_self, by cbv, .error (.type (.keywordNotText "int")), by cbv⟩

end Departing

end Session
end TrackedExpr
