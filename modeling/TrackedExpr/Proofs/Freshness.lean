import TrackedExpr.Proofs.Making
import TrackedExpr.Session.Perform

/-!
# A clean binding is fresh

A binding that is not dirty holds what its plain code gives now, as long as the models
it has read declare what was read, and report what was changed.

**Definitions.**
* `beginning`, `evaluation`, `lookups`: an evaluation and the attributes that it looks up;
* `Course`: evaluations, resets and assignments, in any order;
* `Remembers`: a session in which a binding remembers its latest evaluation.

**Results.**
* `Known.evaluate`, `Known.reset`, `Known.assign`: what each of them preserves;
* `clean_binding_fresh`: in every session on the course of a binding;
* `unverified_underflow_moves`: why code that is not verified can lack a value at another place.
-/

namespace TrackedExpr
namespace Session

section Evaluations

/-- The session in which an evaluation of a binding begins to run its code. -/
def beginning (b : Nat) (B : Binding) (w : Session) : Session :=
  let w := resetChannel { w with pins := [.binding b] ++ w.pins } B.channel
  let w := w.modifyBinding b fun c => { c with dirty := false, evaluating := true }
  { w with pins := pinValues (B.scope.map Prod.snd ++ B.code.constants) ++ w.pins }

/-- The run of a binding's code in an evaluation. -/
def evaluation (re : Reentry) (b : Nat) (B : Binding) (w : Session) : Execution Session :=
  (host re).run B.code B.scope w.patience Frame.start (w.beginning b B)

/-- The attributes that an evaluation of a binding looks up. -/
def lookups (re : Reentry) (b : Nat) (B : Binding) (w : Session) : List (ObjectRef × String) :=
  (host re).accesses B.code B.scope w.patience Frame.start (w.beginning b B)

variable {re : Reentry} {id : String} {b : Nat} {B : Binding} {w : Session} {r : Outcome}

theorem bindingNamed_eq (hid : Assoc.get? id w.names.bindings = some b)
    (hB : w.bindings[b]? = some B) : w.bindingNamed id = .ok (b, B) := by
  unfold bindingNamed named
  rw [hid]
  simp only [bind, Except.bind]
  rw [hB]

/-- An evaluation that ends leaves the session of its run, and its result with the binding. -/
theorem evaluateNamed_eq (hid : Assoc.get? id w.names.bindings = some b)
    (hB : w.bindings[b]? = some B) (hr : (w.evaluation re b B).outcome = some r) :
    w.evaluateNamed re id = .ok (modifyBinding { (w.evaluation re b B).state with pins := w.pins } b
      fun c => { c with evaluating := false, last := some r }, .result r) := by
  unfold evaluateNamed
  rw [bindingNamed_eq hid hB]
  simp only [bind, Except.bind, holding, evaluateBinding, hB, runCode, execute]
  unfold evaluation beginning at hr
  simp only [resetChannel, modifyChannel, modifyBinding] at hr ⊢
  rw [hr]
  rfl

end Evaluations

section Courses

/-- An attribute of an object that is not a model, or that the model declares observable. -/
def Declares (w : Session) (o : ObjectRef) (attr : String) : Prop :=
  ∀ schema, w.schema? o = some schema → schema.describe attr = .observable

/-- The course of a binding: evaluations that end, resets, and assignments to any models.  With it
go the attributes that the latest evaluation has looked up, and whether every assignment since
has reported a change or has changed nothing. -/
inductive Course (re : Reentry) (id : String) (b : Nat) (start : Session) :
    Session → List (ObjectRef × String) → Prop → Prop
  | start : Course re id b start start [] True
  | evaluate {w w' : Session} {B : Binding} {reply : Reply} {reads : List (ObjectRef × String)}
      {told : Prop} :
      Course re id b start w reads told →
      w.bindings[b]? = some B →
      (w.evaluation re b B).outcome ≠ none →
      w.evaluateNamed re id = .ok (w', reply) →
      Course re id b start w' (w.lookups re b B) True
  | reset {w w' : Session} {reply : Reply} {reads : List (ObjectRef × String)} {told : Prop} :
      Course re id b start w reads told →
      w.resetBinding id = .ok (w', reply) →
      Course re id b start w' reads told
  | assign {w w' : Session} {o : ObjectRef} {schema : Schema} {attr : String} {v : Value}
      {reads : List (ObjectRef × String)} {told : Prop} :
      Course re id b start w reads told →
      w.schema? o = some schema →
      v.MadeOf AtHome →
      w' = (w.holding (pinValues [.object o, v]) (assign re o schema attr v)).1 →
      Course re id b start w' reads
        (told ∧ (w.Reports o schema attr v ∨ w'.attribute? o attr = w.attribute? o attr))

end Courses

section Memory

/-- What is known in `w` about the latest evaluation, which began in `v`: the plain code would have
given its result within `n` steps; whatever that is aimed at is listened to if it can be, and what
it looks up has not changed if every change was reported. -/
structure Remembers (re : Reentry) (k : Wiring) (verify : Bool) (v w : Session) (n : Nat)
    (reads : List (ObjectRef × String)) (told : Prop) : Prop where
  wired : Wired k v
  steps : n ≤ w.patience
  result : ∃ r last, ((host re).run k.plain k.scope n Frame.start v).outcome = some r ∧
    w.bindings[k.binding]?.map Binding.last = some (some last) ∧ Matches verify r last
  kinds : ∀ i : Nat, w.objects[i]?.map ObjectCell.kind = v.objects[i]?.map ObjectCell.kind
  reads : ∀ x ∈ (host re).accesses k.plain k.scope n Frame.start v, x ∈ reads
  heeds : ∀ x ∈ (host re).aims k.plain k.scope n Frame.start v,
    v.declared? x.1 x.2 = some .observable → Heeds k w x.1 x.2
  kept : told → ∀ x ∈ (host re).accesses k.plain k.scope n Frame.start v,
    w.Declares x.1 x.2 → w.attribute? x.1 x.2 = v.attribute? x.1 x.2

/-- What is known about a binding at any point of its course. -/
structure Known (re : Reentry) (k : Wiring) (verify : Bool) (id : String) (w : Session)
    (reads : List (ObjectRef × String)) (told : Prop) : Prop where
  wired : Wired k w
  mute : Mute w
  named : Assoc.get? id w.names.bindings = some k.binding
  latest : ¬ Dirty k w → ∃ v n, Remembers re k verify v w n reads told

variable {re : Reentry} {k : Wiring} {verify : Bool} {id : String} {v w w' : Session} {n : Nat}
  {reads : List (ObjectRef × String)} {told : Prop}

theorem schema?_congr
    (h : ∀ i : Nat, w'.objects[i]?.map ObjectCell.kind = w.objects[i]?.map ObjectCell.kind)
    (o : ObjectRef) : w'.schema? o = w.schema? o := by
  have ho := h o.id
  unfold schema? object?
  cases hcell : w.objects[o.id]? with
  | none =>
      rw [hcell] at ho
      rw [Option.map_eq_none_iff.mp ho]
  | some cell =>
      rw [hcell] at ho
      obtain ⟨cell', hcell', hkind⟩ := Option.map_eq_some_iff.mp ho
      rw [hcell']
      obtain ⟨ref, kind, attrs, observers⟩ := cell
      obtain ⟨ref', kind', attrs', observers'⟩ := cell'
      obtain rfl : kind' = kind := hkind
      cases kind' <;> rfl

theorem declared?_of_schema? {o : ObjectRef} {schema : Schema} (h : w.schema? o = some schema)
    (attr : String) : w.declared? o attr = some (schema.describe attr) := by
  unfold schema? at h
  split at h
  · next heq =>
      cases h
      rw [declared?, heq]
      rfl
  · cases h

theorem Binding.Fits.code {B : Binding} (h : B.Fits k) : B.code = k.code := by
  rw [Binding.code, h.instrumented]
  rfl

theorem Remembers.mono (h : Remembers re k verify v w n reads told) {told' : Prop}
    (htold : told' → told) : Remembers re k verify v w n reads told' :=
  ⟨h.wired, h.steps, h.result, h.kinds, h.reads, h.heeds, fun htold' => h.kept (htold htold')⟩

/-- Names, pins and the log do not matter to what is remembered. -/
theorem Remembers.beside (h : Remembers re k verify v w n reads told) (names : Names)
    (pins : List Pin) (log : List LogEntry) :
    Remembers re k verify v { w with names := names, pins := pins, log := log } n reads told :=
  ⟨h.wired, h.steps, h.result, h.kinds, h.reads, h.heeds, h.kept⟩

/-- A binding remembers its latest evaluation after an assignment, if what it has read is as it
was whenever every change was reported. -/
theorem Remembers.step (h : Remembers re k verify v w n reads told) {o : ObjectRef} {attr : String}
    (hw : Assigned k o attr w w') {told' : Prop}
    (hkept : told' → told ∧ ∀ x ∈ (host re).accesses k.plain k.scope n Frame.start v,
      w.Declares x.1 x.2 → w'.attribute? x.1 x.2 = w.attribute? x.1 x.2) :
    Remembers re k verify v w' n reads told' := by
  constructor
  · exact h.wired
  · rw [hw.patience]
    exact h.steps
  · rw [hw.last]
    exact h.result
  · exact fun i => (hw.kinds i).trans (h.kinds i)
  · exact h.reads
  · exact fun x hx hobservable => hw.heeds x.1 x.2 (h.heeds x hx hobservable)
  · intro htold' x hx hdeclares
    obtain ⟨htold, hsame⟩ := hkept htold'
    have hdeclares' : w.Declares x.1 x.2 := by
      intro s hs
      exact hdeclares s ((schema?_congr hw.kinds x.1).trans hs)
    rw [hsame x hx hdeclares', h.kept htold x hx hdeclares']

/-- An attribute that was read and then assigned to was reported, or is as it was. -/
theorem Remembers.assigned (hk : k.Proper verify) (h : Remembers re k verify v w n reads told)
    {o : ObjectRef} {schema : Schema} {attr : String} {u : Value}
    (hschema : w.schema? o = some schema) (hw : Assigned k o attr w w')
    (hunheard : w.Reports o schema attr u → ¬ Heeds k w o attr) :
    Remembers re k verify v w' n reads
      (told ∧ (w.Reports o schema attr u ∨ w'.attribute? o attr = w.attribute? o attr)) := by
  apply h.step hw
  rintro ⟨htold, hreported⟩
  refine ⟨htold, ?_⟩
  intro x hx hdeclares
  by_cases hsame : x.1.id = o.id ∧ x.2 = attr
  · obtain ⟨hid, hattr⟩ := hsame
    have hobject : ∀ s : Session, s.attribute? x.1 x.2 = s.attribute? o attr := by
      intro s
      rw [attribute?, attribute?, object?, object?, hid, hattr]
    have hschema' : w.schema? x.1 = some schema := by
      rw [← hschema, schema?, schema?, object?, object?, hid]
    have hobservable : v.declared? x.1 x.2 = some .observable := by
      rw [schema?_congr h.kinds] at hschema'
      rw [declared?_of_schema? hschema',
        hdeclares schema ((schema?_congr h.kinds x.1).trans hschema')]
    obtain ⟨p, hp, htuned⟩ :=
      h.heeds x ((Host.mem_aims_iff hk.plainCalls).mpr (Or.inl hx)) hobservable
    rcases hreported with hreports | hkept
    · rw [hid, hattr] at htuned
      exact absurd ⟨p, hp, htuned⟩ (hunheard hreports)
    · rw [hobject, hobject, hkept]
  · exact hw.elsewhere x.1 x.2 (not_and_or.mp hsame)

/-- What a binding remembers is what its plain code gives now, if every change was reported. -/
theorem Remembers.fresh (hk : k.Proper verify) (h : Remembers re k verify v w n reads told)
    (hdeclares : ∀ x ∈ reads, w.Declares x.1 x.2) (htold : told) :
    ∃ r last, (w.execute re k.plain k.scope w.patience).outcome = some r ∧
      w.bindings[k.binding]?.map Binding.last = some (some last) ∧ Matches verify r last := by
  obtain ⟨r, last, hplain, hlast, hmatches⟩ := h.result
  refine ⟨r, last, ?_, hlast, hmatches⟩
  let now := { w with pins := pinValues (k.scope.map Prod.snd ++ k.plain.constants) ++ w.pins }
  have hreads : ∀ x ∈ (host re).accesses k.plain k.scope n Frame.start v,
      (host re).read v x.1 x.2 = (host re).read now x.1 x.2 := by
    intro x hx
    exact (h.kept htold x hx (hdeclares x (h.reads x hx))).symm
  have hagain := Host.run_congr (hk.materials h.wired re) n
    (fun v hv => absurd hv List.not_mem_nil) hreads
  rw [hplain] at hagain
  exact Host.run_of_le h.steps hagain

end Memory

section Moves

variable {re : Reentry} {k : Wiring} {verify : Bool} {id : String} {w w' : Session}
  {reads : List (ObjectRef × String)} {told : Prop}

theorem Wired.outset {b : Nat} (h : Wired k { w with pins := [.binding b] ++ w.pins })
    (B : Binding) : Wired k (w.beginning b B) :=
  ((h.resetChannel B.channel).flagged Binding.last (fun _ => false) (fun _ => true) b).pinned _

theorem Wired.beginning (h : Wired k w) (b : Nat) (B : Binding) : Wired k (w.beginning b B) :=
  (h.pinned [.binding b]).outset B

/-- The session in which an evaluation of a binding in `w` has ended in another. -/
def concluded (b : Nat) (r : Outcome) (w state : Session) : Session :=
  modifyBinding { state with pins := w.pins } b fun c =>
    { c with evaluating := false, last := some r }

theorem Wired.fits (h : Wired k w) {B : Binding} (hB : w.bindings[k.binding]? = some B) :
    B.Fits k := by
  obtain ⟨B', hB', hfits⟩ := h.binding
  obtain rfl := Option.some.inj (hB.symm.trans hB')
  exact hfits

/-- An evaluation that ends retraces a run of the plain code. -/
theorem Wiring.Proper.evaluation (hk : k.Proper verify) {B : Binding} (hfits : B.Fits k)
    (h : Wired k (w.beginning k.binding B)) {last : Outcome}
    (hlast : (w.evaluation re k.binding B).outcome = some last) :
    (host re).run k.code k.scope w.patience Frame.start (w.beginning k.binding B)
        = w.evaluation re k.binding B ∧
      ∃ n r, n ≤ w.patience ∧ Retraces re k verify Frame.start (w.beginning k.binding B)
        (w.beginning k.binding B) n w.patience r last := by
  have hrun : (host re).run k.code k.scope w.patience Frame.start (w.beginning k.binding B)
      = w.evaluation re k.binding B := by
    rw [Session.evaluation, hfits.code, hfits.scope]
  refine ⟨hrun, hk.retraces re w.patience Frame.Reachable.start
    (fun v hv => absurd hv List.not_mem_nil) (Alike.refl h) ?_⟩
  rw [← hlast, ← hrun]
  rfl

/-- A binding remembers an evaluation that has ended. -/
theorem Retraces.remembers {B : Binding} (h : Wired k (w.beginning k.binding B)) {n : Nat}
    {r last : Outcome} (hn : n ≤ w.patience)
    (hretraces : Retraces re k verify Frame.start (w.beginning k.binding B)
      (w.beginning k.binding B) n w.patience r last) :
    Remembers re k verify (w.beginning k.binding B)
      (concluded k.binding last w ((host re).run k.code k.scope w.patience Frame.start
        (w.beginning k.binding B)).state) n
      ((host re).accesses k.code k.scope w.patience Frame.start (w.beginning k.binding B)) True := by
  obtain ⟨hplain, hresult, hwired, hgrows, hreads, -, hheeds⟩ := hretraces
  have hplace : Frame.start.relocate (k.insertions verify) = Frame.start := rfl
  rw [hplace] at hwired hgrows hreads hheeds
  generalize (host re).run k.code k.scope w.patience Frame.start (w.beginning k.binding B) = run
    at hwired hgrows hheeds
  obtain ⟨B', hB', -⟩ := hwired.binding
  constructor
  · exact h
  · show n ≤ run.state.patience
    rw [hgrows.rest]
    exact hn
  · exact ⟨r, last, hplain, by simp [concluded, modifyBinding, hB'], hresult⟩
  · exact hgrows.kinds
  · exact hreads
  · exact hheeds
  · exact fun _ x _ _ => congrFun (congrFun hgrows.attribute? x.1) x.2

/-- After an evaluation the binding remembers it. -/
theorem Known.evaluate (hk : k.Proper verify) (h : Known re k verify id w reads told)
    {B : Binding} (hB : w.bindings[k.binding]? = some B)
    (hends : (w.evaluation re k.binding B).outcome ≠ none) {reply : Reply}
    (heval : w.evaluateNamed re id = .ok (w', reply)) :
    Known re k verify id w' (w.lookups re k.binding B) True := by
  obtain ⟨last, hlast⟩ := Option.ne_none_iff_exists'.mp hends
  have hoverture := h.wired.beginning k.binding B
  obtain ⟨hrun, n, r, hn, hretraces⟩ := hk.evaluation (h.wired.fits hB) hoverture hlast
  have hremembers := hretraces.remembers hoverture hn
  have hwired := hretraces.wired
  have hgrows := hretraces.grows
  have hlookups : (host re).accesses k.code k.scope w.patience Frame.start
      (w.beginning k.binding B) = w.lookups re k.binding B := by
    have hfits := h.wired.fits hB
    rw [lookups, hfits.code, hfits.scope]
  have hplace : Frame.start.relocate (k.insertions verify) = Frame.start := rfl
  rw [hplace, hrun] at hwired hgrows
  rw [hlookups, hrun] at hremembers
  rw [evaluateNamed_eq h.named hB hlast] at heval
  generalize w.evaluation re k.binding B = run at hwired hgrows hremembers heval
  obtain ⟨rfl, rfl⟩ := Prod.mk.inj (Except.ok.inj heval)
  constructor
  · exact (hwired.unpinned h.wired hgrows.names).flagged (fun _ => some last) Binding.dirty
      (fun _ => false) k.binding
  · have hmute : Mute run.state := by
      rw [hgrows.rest]
      exact h.mute.flagged Binding.last (fun _ => false) (fun _ => true) k.binding
    exact hmute.flagged (fun _ => some last) Binding.dirty (fun _ => false) k.binding
  · show Assoc.get? id run.state.names.bindings = some k.binding
    rw [hgrows.names]
    exact h.named
  · exact fun _ => ⟨w.beginning k.binding B, n, hremembers⟩

/-- A binding that was reset is dirty. -/
theorem Known.reset (h : Known re k verify id w reads told) {reply : Reply}
    (hreset : w.resetBinding id = .ok (w', reply)) : Known re k verify id w' reads told := by
  obtain ⟨B, hB, hfits⟩ := h.wired.binding
  simp only [resetBinding, bindingNamed_eq h.named hB] at hreset
  cases hreset
  constructor
  · exact (h.wired.resetChannel B.channel).flagged Binding.last (fun _ => true)
      Binding.evaluating k.binding
  · exact h.mute.flagged Binding.last (fun _ => true) Binding.evaluating k.binding
  · exact h.named
  · intro hclean
    refine absurd ⟨{ B with dirty := true }, ?_, rfl⟩ hclean
    simp [modifyBinding, resetChannel, modifyChannel, hB]

/-- An assignment to any model. -/
theorem Known.assign (hk : k.Proper verify) (h : Known re k verify id w reads told)
    {o : ObjectRef} {schema : Schema} {attr : String} {u : Value}
    (hschema : w.schema? o = some schema) (hu : u.MadeOf AtHome)
    (hw' : w' = (w.holding (pinValues [.object o, u]) (Session.assign re o schema attr u)).1) :
    Known re k verify id w' reads
      (told ∧ (w.Reports o schema attr u ∨ w'.attribute? o attr = w.attribute? o attr)) := by
  subst hw'
  obtain ⟨hassigned, hmute, hdirty⟩ :=
    (h.wired.pinned (pinValues [.object o, u])).assign h.mute re o schema attr hu
  have hassigned' : Assigned k o attr w
      (w.holding (pinValues [.object o, u]) (Session.assign re o schema attr u)).1 :=
    hassigned.unpinned h.wired
  constructor
  · exact hassigned'.wired
  · exact hmute
  · rw [hassigned'.names]
    exact h.named
  · intro hclean
    obtain ⟨v, n, hremembers⟩ := h.latest fun hd => hclean (hassigned'.dirty hd)
    exact ⟨v, n, hremembers.assigned hk hschema hassigned' fun hreports hheeds =>
      hclean (hdirty hreports hheeds)⟩

/-- **On its whole course** a binding that is clean remembers its latest evaluation. -/
theorem Course.known (hk : k.Proper verify) {start : Session}
    (hstart : Known re k verify id start [] True)
    (hcourse : Course re id k.binding start w reads told) :
    Known re k verify id w reads told := by
  induction hcourse with
  | start => exact hstart
  | evaluate _ hB hends heval ih => exact ih.evaluate hk hB hends heval
  | reset _ hreset ih => exact ih.reset hreset
  | assign _ hschema hv hw' ih => exact ih.assign hk hschema hv hw'

/-- What a clean binding remembers is what its plain code gives now. -/
theorem Known.fresh (hk : k.Proper verify) (h : Known re k verify id w reads told)
    (hclean : ¬ Dirty k w) (hdeclares : ∀ x ∈ reads, w.Declares x.1 x.2) (htold : told) :
    ∃ r last, (w.execute re k.plain k.scope w.patience).outcome = some r ∧
      w.bindings[k.binding]?.map Binding.last = some (some last) ∧ Matches verify r last := by
  obtain ⟨v, n, hremembers⟩ := h.latest hclean
  exact hremembers.fresh hk hdeclares htold

end Moves

section Freshness

/-- **A clean binding is fresh.**  Make a binding with both monitors in a session with models and
records, in which callbacks do nothing, of code that makes plain calls only and takes nothing
native from its constants and its scope; and let it be instrumented.  Whenever it is clean after
evaluations that end, resets and assignments in any order, it holds exactly what its plain code
gives now, if the models that its latest evaluation has read declare what was read observable, and
every assignment since that changed an attribute has reported the change.  Only if a value is
missing in code that was not verified, it can be missing at another place. -/
theorem clean_binding_fresh {re : Reentry} {w₀ w₁ start w : Session} {code : Code} {scope : Scope}
    {config : BindingConfig} {onInvalid : Invalidation} {id : String} {b : Nat} {B : Binding}
    {reads : List (ObjectRef × String)} {told : Prop} (hquiet : Quiet w₀)
    (hmade : w₀.makeBinding code scope config onInvalid = .ok (w₁, b))
    (hnamed : w₁.nameBinding id b = (start, .instrumented true))
    (hattributes : config.monitorAttributes = true) (hgetattr : config.monitorGetattr = true)
    (hcalls : ∀ form raw, .call form raw ∈ code.instructions → form = .plain)
    (hconstants : ∀ v, .loadConst v ∈ code.instructions → v.MadeOf AtHome)
    (hscope : ∀ name v, Assoc.get? name scope = some v → v.MadeOf AtHome)
    (hidle : onInvalid.Idle) (hcourse : Course re id b start w reads told)
    (hB : w.bindings[b]? = some B) (hclean : B.dirty = false)
    (hdeclares : ∀ x ∈ reads, w.Declares x.1 x.2) (htold : told) :
    B.plain = code ∧ B.scope = scope ∧ ∃ r last,
      (w.execute re B.plain B.scope w.patience).outcome = some r ∧ B.last = some last ∧
      Matches config.verifyStack r last := by
  obtain ⟨rfl, instrumented, rfl, hinstrumented⟩ :=
    exists_of_makeBinding hattributes hgetattr hmade
  obtain ⟨c, rfl⟩ : ∃ c, instrumented = some c := by
    cases instrumented with
    | some c => exact ⟨c, rfl⟩
    | none =>
        have hnew : (w₀.withNext code none scope onInvalid).bindings[w₀.bindings.length]?
            = some _ := List.getElem?_concat_length
        simp only [nameBinding, hnew] at hnamed
        cases hnamed
  have hk : (w₀.nextWiring code c scope).Proper config.verifyStack :=
    ⟨hinstrumented c rfl, hcalls, hconstants, hscope⟩
  have halive := @bindingAlive_nameBinding (w₀.withNext code (some c) scope onInvalid) id
    w₀.bindings.length
  have hwired : Wired (w₀.nextWiring code c scope)
      ((w₀.withNext code (some c) scope onInvalid).nameBinding id w₀.bindings.length).1 :=
    hquiet.still.wired halive
  have hdirty : Dirty (w₀.nextWiring code c scope)
      ((w₀.withNext code (some c) scope onInvalid).nameBinding id w₀.bindings.length).1 :=
    ⟨_, List.getElem?_concat_length, rfl⟩
  have hmute : Mute
      ((w₀.withNext code (some c) scope onInvalid).nameBinding id w₀.bindings.length).1 :=
    Mute.withNext hquiet.bindings hidle _
  rw [hnamed] at hwired hdirty hmute
  have hid : Assoc.get? id start.names.bindings = some w₀.bindings.length := by
    rw [← (Prod.mk.inj hnamed).1]
    exact Assoc.get?_put_self id w₀.bindings.length _
  have hknown : Known re (w₀.nextWiring code c scope) config.verifyStack id w reads told :=
    Course.known hk ⟨hwired, hmute, hid, fun hc => absurd hdirty hc⟩ hcourse
  obtain ⟨B', hB', hfits⟩ := hknown.wired.binding
  obtain rfl := Option.some.inj (hB.symm.trans hB')
  have hnotDirty : ¬ Dirty (w₀.nextWiring code c scope) w := by
    rintro ⟨B', hB', hd⟩
    obtain rfl := Option.some.inj (hB.symm.trans hB')
    rw [hclean] at hd
    cases hd
  obtain ⟨r, last, hr, hlast, hmatches⟩ := hknown.fresh hk hnotDirty hdeclares htold
  refine ⟨hfits.plain, hfits.scope, r, last, ?_, ?_, hmatches⟩
  · rw [hfits.plain, hfits.scope]
    exact hr
  · rw [hB'] at hlast
    exact Option.some.inj hlast

end Freshness

section Point

/-- A model. -/
def point : ObjectRef := ⟨0, 0, "p", "Point"⟩

/-- The schema of the model, which declares `x` observable. -/
def pointSchema : Schema := (Schema.empty "Point").observable "x"

/-- A session with the model, whose `x` is 3. -/
def pointSession : Session where
  objects := [⟨point, .model pointSchema, [("x", .int 3)], []⟩]
  patience := 100

/-- Loads `x` of the model. -/
def loadX : Code := Code.ofInstructions [.loadName "p", .loadAttr "x", .returnValue]

/-- `loadX` with the site of its attribute load. -/
def watchedLoadX : Code := Code.ofInstructions <|
  .loadName "p" :: attributeSite ⟨0, "attribute_binder"⟩ "x" ++ [.loadAttr "x", .returnValue]

/-- A binding of `loadX`. -/
def pointBinding (last : Option Outcome) (dirty : Bool) : Binding where
  plain := loadX
  instrumented := some watchedLoadX
  scope := [("p", .object point)]
  channel := 0
  attributes := some 0
  getattr := some 1
  onInvalid := .script "b" []
  last := last
  dirty := dirty
  evaluating := false

/-- The session with the new binding. -/
def boundPoint : Session :=
  ((pointSession.withNext loadX (some watchedLoadX) [("p", .object point)]
    (.script "b" [])).nameBinding "b" 0).1

/-- The session after the binding was evaluated. -/
def evaluatedPoint : Session :=
  modifyBinding { (boundPoint.evaluation (enter 1) 0 (pointBinding none true)).state with
    pins := boundPoint.pins } 0 fun c => { c with evaluating := false, last := some (.ok (.int 3)) }

/-- The session after `x` was set to 3 once more. -/
def settledPoint : Session :=
  (evaluatedPoint.holding (pinValues [.object point, .int 3])
    (Session.assign (enter 1) point pointSchema "x" (.int 3))).1

theorem quiet_pointSession : Quiet pointSession := by
  constructor
  · intro i cell hcell
    obtain ⟨hi, rfl⟩ := List.getElem?_eq_some_iff.mp hcell
    obtain rfl : i = 0 := Nat.lt_one_iff.mp hi
    refine ⟨rfl, nofun, ?_, fun ob hob => absurd hob List.not_mem_nil⟩
    intro a v hv
    by_cases ha : "x" = a
    · obtain rfl : Value.int 3 = v := by simpa [pointSession, Assoc.get?, ha] using hv
      trivial
    · simp [pointSession, Assoc.get?, ha] at hv
  · intro i c hc
    simp [pointSession] at hc
  · intro i B hB
    simp [pointSession] at hB

theorem makeBinding_point :
    pointSession.makeBinding loadX [("p", .object point)] {} (.script "b" []) = .ok
      (pointSession.withNext loadX (some watchedLoadX) [("p", .object point)] (.script "b" []),
        0) := by
  have hinstrument : instrumentFor {} loadX [Monitor.attributes ⟨0, "attribute_binder"⟩,
      Monitor.calls ⟨1, "call_binder"⟩] = .ok (some watchedLoadX) := by cbv
  exact makeBinding_of_instrumentFor rfl rfl hinstrument

theorem course_point :
    Course (enter 1) "b" 0 boundPoint settledPoint [(point, "x")] (True ∧
      (evaluatedPoint.Reports point pointSchema "x" (.int 3) ∨
        settledPoint.attribute? point "x" = evaluatedPoint.attribute? point "x")) := by
  have hid : Assoc.get? "b" boundPoint.names.bindings = some 0 := by cbv
  have hout : (boundPoint.evaluation (enter 1) 0 (pointBinding none true)).outcome
      = some (.ok (.int 3)) := by cbv
  have hreads : boundPoint.lookups (enter 1) 0 (pointBinding none true) = [(point, "x")] := by
    cbv
  have hevaluated : Course (enter 1) "b" 0 boundPoint evaluatedPoint [(point, "x")] True := by
    rw [← hreads]
    exact Course.evaluate Course.start rfl (by rw [hout]; exact Option.some_ne_none _)
      (evaluateNamed_eq hid rfl hout)
  exact Course.assign hevaluated (by cbv) trivial rfl

theorem clean_binding_fresh_point :
    settledPoint.bindings[0]? = some (pointBinding (some (.ok (.int 3))) false) ∧
      ∃ r last, (settledPoint.execute (enter 1) loadX [("p", .object point)]
        settledPoint.patience).outcome = some r ∧ some (.ok (.int 3)) = some last ∧
        Matches true r last := by
  have hB : settledPoint.bindings[0]? = some (pointBinding (some (.ok (.int 3))) false) := by cbv
  have hattribute : settledPoint.attribute? point "x" = evaluatedPoint.attribute? point "x" := by
    cbv
  have hdeclares : ∀ x ∈ [(point, "x")], settledPoint.Declares x.1 x.2 := by
    intro x hx schema hschema
    obtain rfl := List.mem_singleton.mp hx
    have hpoint : settledPoint.schema? point = some pointSchema := by cbv
    obtain rfl := Option.some.inj (hpoint.symm.trans hschema)
    rfl
  have hscope : ∀ name v, Assoc.get? name [("p", Value.object point)] = some v →
      v.MadeOf AtHome := by
    intro name v hv
    by_cases hname : "p" = name
    · obtain rfl : Value.object point = v := by simpa [Assoc.get?, hname] using hv
      exact (rfl : point.address = point.id)
    · simp [Assoc.get?, hname] at hv
  refine ⟨hB, ?_⟩
  exact (clean_binding_fresh quiet_pointSession makeBinding_point rfl rfl rfl (by simp [loadX,
    Code.ofInstructions]) (by simp [loadX, Code.ofInstructions]) hscope rfl course_point hB rfl
    hdeclares ⟨trivial, Or.inr hattribute⟩).2.2

end Point

section Lacking

/-- Loads an attribute of nothing. -/
def loadNothing : Code := Code.ofInstructions [.loadAttr "x", .returnValue]

/-- `loadNothing` with the site of its attribute load. -/
def watchedLoadNothing : Code := Code.ofInstructions <|
  attributeSite ⟨0, "attribute_binder"⟩ "x" ++ [.loadAttr "x", .returnValue]

/-- A binding of `loadNothing`. -/
def lackingBinding (last : Option Outcome) (dirty : Bool) : Binding where
  plain := loadNothing
  instrumented := some watchedLoadNothing
  scope := []
  channel := 0
  attributes := some 0
  getattr := some 1
  onInvalid := .script "b" []
  last := last
  dirty := dirty
  evaluating := false

/-- The session with the new binding and nothing else. -/
def boundNothing : Session :=
  ((withNext { patience := 100 } loadNothing (some watchedLoadNothing) []
    (.script "b" [])).nameBinding "b" 0).1

/-- **Where code is not verified, a clean binding can hold another error** than its plain code
gives: the site in front of an attribute load is the first to lack the value. -/
theorem unverified_underflow_moves :
    Quiet { patience := 100 } ∧
      makeBinding loadNothing [] { verifyStack := false } (.script "b" []) { patience := 100 }
        = .ok (withNext { patience := 100 } loadNothing (some watchedLoadNothing) []
            (.script "b" []), 0) ∧
      boundNothing.bindings[0]?.map (fun B => B.instrumented.isSome) = some true ∧
      ∃ w B, Course (enter 1) "b" 0 boundNothing w [] True ∧ w.bindings[0]? = some B ∧
        B.plain = loadNothing ∧ B.dirty = false ∧
        B.last = some (.error (.stackUnderflow 0 "DUP_TOP")) ∧
        (w.execute (enter 1) B.plain B.scope w.patience).outcome
          = some (.error (.stackUnderflow 0 "LOAD_ATTR")) := by
  have hinstrument : instrumentFor { verifyStack := false } loadNothing
      [Monitor.attributes ⟨0, "attribute_binder"⟩, Monitor.calls ⟨1, "call_binder"⟩]
        = .ok (some watchedLoadNothing) := by cbv
  have hid : Assoc.get? "b" boundNothing.names.bindings = some 0 := by cbv
  have hout : (boundNothing.evaluation (enter 1) 0 (lackingBinding none true)).outcome
      = some (.error (.stackUnderflow 0 "DUP_TOP")) := by cbv
  have hreads : boundNothing.lookups (enter 1) 0 (lackingBinding none true) = [] := by cbv
  refine ⟨?_, ?_, rfl, modifyBinding
    { (boundNothing.evaluation (enter 1) 0 (lackingBinding none true)).state with
      pins := boundNothing.pins } 0 fun c => { c with
        evaluating := false, last := some (.error (.stackUnderflow 0 "DUP_TOP")) },
    lackingBinding (some (.error (.stackUnderflow 0 "DUP_TOP"))) false, ?_, by cbv, rfl, rfl, rfl,
    by cbv⟩
  · constructor
    · intro i cell hcell
      simp at hcell
    · intro i c hc
      simp at hc
    · intro i B hB
      simp at hB
  · exact makeBinding_of_instrumentFor rfl rfl hinstrument
  · rw [← hreads]
    exact Course.evaluate Course.start rfl (by rw [hout]; exact Option.some_ne_none _)
      (evaluateNamed_eq hid rfl hout)

end Lacking

end Session
end TrackedExpr
