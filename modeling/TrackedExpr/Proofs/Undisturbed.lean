import TrackedExpr.Proofs.Currency
import TrackedExpr.Proofs.Exactness
import TrackedExpr.Proofs.Undertakings

/-!
# An operation on a binding leaves the others alone

Commands that make models, native functions and bindings, set attributes and work with bindings
lead to sessions in which everything belongs to one binding.  There an evaluation, a reset, a
pruning or a dropping is work on one binding, and whatever the others show, and hear later on, is
the same with it and without it.

**Definitions.**
* `Command.Modest`, `Modest`: these commands, and sessions whose native functions carry out no
  others;
* `afterCommands`: the session in which commands have been carried out;
* `Aspect`, `aspect?`: what a binding shows of itself;
* `WritesAlone`: a binding whose callback writes where no other does;
* `lampSession`: a session with two bindings on one attribute.

**Results.**
* `Modest.attempt`, `modest_enter`, `modest_afterCommands`: what modest commands keep, however deep
  they are nested, and the sessions to which they lead;
* `Agree.aspect?_eq`: sessions that agree about a binding show the same of it;
* `neighbours_undisturbed`: an operation on a binding leaves the others alone.
-/

namespace TrackedExpr
namespace Session

section Commands

/-- An object that runs no commands when it is observed. -/
def ObjectForm.Idle : ObjectForm Command → Prop
  | .source _ _ onObserve => onObserve = []
  | _ => True

/-- A callback that only writes. -/
def SinkDraft.Idle : SinkDraft Command → Prop
  | .script actions => actions = []
  | .recorder _ => True

/-- A command of a program of models and bindings whose callbacks only write.  Native functions
carry out such commands themselves. -/
inductive Command.Modest : Command → Prop
  | schema (name : String) (s : Schema) : Modest (.schema name s)
  | object (name : String) {draft : ObjectDraft Command} :
      draft.form.Idle → Modest (.object name draft)
  | native (name : String) {draft : NativeDraft Command} :
      (∀ c ∈ draft.actions, Modest c) → Modest (.native name draft)
  | scope (name : String) (value : Literal) : Modest (.scope name value)
  | unname (id : String) : Modest (.unname id)
  | alive (id : String) : Modest (.alive id)
  | set (id attr : String) (value : Literal) : Modest (.set id attr value)
  | get (id attr : String) : Modest (.get id attr)
  | describe (id attr : String) : Modest (.describe id attr)
  | debug (what : DebugDraft) : Modest (.debug what)
  | recorderNew (id : String) : Modest (.recorderNew id)
  | recorder (id : String) : Modest (.recorder id)
  | recorderClear (id : String) : Modest (.recorderClear id)
  | bindingNew (id : String) (draft : BindingDraft) {sink : SinkDraft Command} :
      sink.Idle → Modest (.bindingNew id draft sink)
  | evaluate (id : String) : Modest (.evaluate id)
  | reset (id : String) : Modest (.reset id)
  | notifierReset (id : String) : Modest (.notifierReset id)
  | prune (id : String) : Modest (.prune id)
  | binding (id : String) : Modest (.binding id)
  | bindingClone (id copy : String) : Modest (.bindingClone id copy)
  | bindingDrop (id : String) : Modest (.bindingDrop id)

def Entry.Modest : Entry → Prop
  | .script actions => ∀ c ∈ actions, c.Modest
  | .native _ draft _ _ => ∀ c ∈ draft.actions, c.Modest

/-- A session in which everything belongs to one binding, and in which native functions carry out
modest commands. -/
structure Modest (w : Session) : Prop extends Allotted w where
  natives : ∀ draft : NativeDraft Command, .host draft ∈ w.natives → ∀ c ∈ draft.actions, c.Modest

variable {w w' : Session} {id : String} {reply : Reply} {code : Code} {scope : Scope}
  {config : BindingConfig} {onInvalid : Invalidation} {b : Nat}

theorem Modest.of_natives (h : Modest w) (hw' : Allotted w') (hnatives : w'.natives = w.natives) :
    Modest w' :=
  ⟨hw', hnatives ▸ h.natives⟩

/-- Nothing but notes is different. -/
theorem Modest.noted (h : Modest w) (pins : List Pin) (log : List LogEntry) (left : Nat)
    (stalled : Bool) :
    Modest { w with pins := pins, log := log, actionsLeft := left, stalled := stalled } :=
  h.of_natives (h.toAllotted.beside rfl rfl rfl rfl rfl) rfl

theorem Modest.holding {α : Type} {pins : List Pin} {f : Session → Session × α}
    (h : Modest (f { w with pins := pins ++ w.pins }).1) : Modest (w.holding pins f).1 :=
  h.noted w.pins _ _ _

theorem Modest.resetChannel (h : Modest w) (c : Nat) : Modest (w.resetChannel c) :=
  h.of_natives (h.toAllotted.resetChannel c) rfl

theorem Modest.modifyBinding (h : Modest w) {f : Binding → Binding}
    (hf : ∀ B, (f B).lines = B.lines) (i : Nat) : Modest (w.modifyBinding i f) :=
  h.of_natives (h.toAllotted.modifyBinding hf i) rfl

theorem Modest.sees {p : Nat} (h : Modest w) (hsees : Sees p w w') : Modest w' :=
  h.of_natives (hsees.allotted h.toAllotted) hsees.natives_eq

theorem Modest.assign (h : Modest w) (re : Reentry) (o : ObjectRef) (schema : Schema)
    (attr : String) (v : Value) : Modest (w.assign re o schema attr v).1 := by
  refine h.of_natives (h.toAllotted.assign re o schema attr v) ?_
  rcases h.toAllotted.assign_cases re o schema attr v with heq | heq | ⟨u, hstirs, heq⟩
  · rw [heq]
  · rw [heq]
    rfl
  · rw [heq, hstirs.rest]
    rfl

/-- The functions that a new binding adds are its side-calls. -/
theorem host_mem_of_makeBinding (h : w.makeBinding code scope config onInvalid = .ok (w', b))
    {draft : NativeDraft Command} (hdraft : .host draft ∈ w'.natives) :
    .host draft ∈ w.natives := by
  simp only [makeBinding, addChannel, monitorFor, attributeMonitor, callMonitor, addNative,
    addPolicy, addBinding] at h
  cases hloads : config.monitorAttributes <;> cases hcalls : config.monitorGetattr <;>
    simp only [hloads, hcalls, if_true, Bool.false_eq_true, if_false] at h <;> split at h <;>
    cases h <;> simpa using hdraft

theorem Modest.makeBinding (h : Modest w) (hidle : onInvalid.Idle)
    (hmade : w.makeBinding code scope config onInvalid = .ok (w', b)) : Modest w' := by
  have hnatives : ∀ draft : NativeDraft Command, .host draft ∈ w'.natives → ∀ c ∈ draft.actions,
      c.Modest := fun draft hd => h.natives draft (host_mem_of_makeBinding hmade hd)
  obtain ⟨-, n, B, natives, rfl, hB⟩ := makeBinding_withBinding hmade
  exact ⟨h.toAllotted.withBinding natives hB hidle, hnatives⟩

theorem Modest.prunePolicies : ∀ (ps : List Nat) {w : Session}, Modest w →
    Modest (Session.prunePolicies ps w).1
  | [], _, h => h
  | p :: ps, w, h => (h.sees (sees_prunePolicy p w)).prunePolicies ps

theorem idle_of_kindOf {form : ObjectForm Command} {typeName : String} {kind : ObjectKind}
    (hidle : form.Idle) (h : w.kindOf form = .ok (typeName, kind)) : kind.Idle := by
  cases form with
  | model name =>
      obtain ⟨s, -, heq⟩ := map_eq_ok h
      cases heq
      trivial
  | record name =>
      cases h
      trivial
  | source name described onObserve =>
      cases h
      exact hidle

theorem Modest.makeObject (h : Modest w) {name : String} {draft : ObjectDraft Command}
    (hidle : draft.form.Idle) (hmade : w.makeObject name draft = .ok (w', reply)) :
    Modest w' ∧ w'.pins = w.pins := by
  obtain ⟨⟨typeName, kind⟩, hkind, hmade⟩ := bind_eq_ok hmade
  obtain ⟨attrs, -, hmade⟩ := bind_eq_ok hmade
  cases hmade
  refine ⟨h.of_natives (h.toAllotted.furnished (fun cell hcell => ?_) rfl rfl rfl rfl rfl) rfl, rfl⟩
  obtain rfl := List.mem_singleton.mp hcell
  exact ⟨idle_of_kindOf hidle hkind, rfl⟩

theorem Modest.makeNamedBinding (h : Modest w) {draft : BindingDraft} {sink : SinkDraft Command}
    (hsink : sink.Idle) (hmade : w.makeNamedBinding id draft sink = .ok (w', reply)) :
    Modest w' ∧ w'.pins = w.pins := by
  obtain ⟨onInvalid, hcallback, hmade⟩ := bind_eq_ok hmade
  obtain ⟨⟨u, b⟩, hdrafted, hmade⟩ := bind_eq_ok hmade
  cases hmade
  obtain ⟨code, scope, hbound⟩ := makeBinding_of_makeDrafted hdrafted
  have hidle : onInvalid.Idle := by
    cases sink with
    | script actions =>
        cases hcallback
        exact hsink
    | recorder name =>
        obtain ⟨r, -, rfl⟩ := map_eq_ok hcallback
        trivial
  have hu := h.makeBinding hidle hbound
  refine ⟨hu.of_natives (hu.toAllotted.rebound _) rfl, ?_⟩
  obtain ⟨-, n, B, natives, rfl, -⟩ := makeBinding_withBinding hbound
  rfl

end Commands

section Carrying

variable {re : Reentry} {w w' : Session} {reply : Reply}
  (hre : ∀ (entry : Entry) (w : Session), entry.Modest → Modest w → Modest (re entry w).1)
include hre

theorem Modest.callNative (h : Modest w) (call : NativeCall) :
    Modest (Session.callNative re call w).1 := by
  unfold Session.callNative
  have hpinned := h.noted (pinValues (NativeCall.values call) ++ w.pins) w.log w.actionsLeft
    w.stalled
  refine Modest.holding ?_
  dsimp only
  have hshown : ∀ p v attr, Modest
      (Session.see re p v attr { w with pins := pinValues (NativeCall.values call) ++ w.pins }) :=
    fun p v attr => hpinned.sees (sees_see hpinned.kinds re p v attr)
  split
  · next draft hrole => exact hre _ _ (h.natives draft (List.mem_of_getElem? hrole)) hpinned
  · next hook _ =>
      unfold answerAttributeSide tellAttribute
      split
      · cases hook with
        | policy p => exact hshown p _ _
        | _ => exact hpinned.noted _ _ _ _
      · exact hpinned
  · next hook _ =>
      unfold answerCallSide tellCall
      split
      · exact hpinned
      · cases hook with
        | policy p =>
            dsimp only
            split
            · exact hshown p _ _
            · exact hpinned
        | _ => exact hpinned.noted _ _ _ _
      · exact hpinned
  · exact hpinned

theorem Modest.runCode (h : Modest w) (code : Code) (scope : Scope) :
    Modest (Session.runCode re code scope w).1 := by
  have hrun : ∀ {u : Session}, Modest u →
      Modest ((host re).run code scope w.patience Frame.start u).state := by
    intro u hu
    exact Host.rel_run (R := fun u v => Modest u → Modest v) (fun _ hv => hv)
      (fun huv hvt hv => hvt (huv hv)) (fun e _ he => he.callNative hre e.1) hu
  have hdone := (hrun (h.noted (pinValues (scope.map Prod.snd ++ code.constants) ++ w.pins) w.log
    w.actionsLeft w.stalled)).noted w.pins
  unfold Session.runCode execute
  dsimp only
  split
  · exact hdone _ _ _
  · exact hdone _ _ _

theorem Modest.evaluateBinding (h : Modest w) (b : Nat) :
    Modest (Session.evaluateBinding re b w).1 := by
  unfold Session.evaluateBinding
  split
  · exact h
  · next B _ =>
      have hbegun := (h.resetChannel B.channel).modifyBinding
        (f := fun c => { c with dirty := false, evaluating := true }) (fun _ => rfl) b
      have hrun := hbegun.runCode hre B.code B.scope
      dsimp only
      generalize Session.runCode re B.code B.scope _ = done at hrun ⊢
      exact hrun.modifyBinding (f := fun c => { c with evaluating := false, last := some done.2 })
        (fun _ => rfl) b

/-- **A modest command** keeps what belongs to which binding. -/
theorem Modest.attempt (h : Modest w) {c : Command} (hc : c.Modest)
    (hattempt : Session.attempt re w c = .ok (w', reply)) : Modest w' ∧ w'.pins = w.pins := by
  have hrenamed : ∀ (f : Names → Names), (f w.names).subscriptions = w.names.subscriptions →
      (f w.names).handles = w.names.handles → Modest (w.rename f) := by
    intro f hsubscriptions hhandles
    refine h.of_natives (h.toAllotted.beside rfl rfl rfl rfl ?_) rfl
    simp only [namedSubscriptions, rename, hsubscriptions, hhandles]
  cases hc with
  | schema | unname | bindingDrop =>
      cases hattempt
      exact ⟨hrenamed _ rfl rfl, rfl⟩
  | object name hidle => exact h.makeObject hidle hattempt
  | native name hactions =>
      cases hattempt
      refine ⟨⟨h.toAllotted.beside rfl rfl rfl rfl rfl, fun draft hdraft => ?_⟩, rfl⟩
      rcases List.mem_append.mp hdraft with hold | hnew
      · exact h.natives draft hold
      · obtain rfl := NativeRole.host.inj (List.mem_singleton.mp hnew)
        exact hactions
  | scope name value =>
      obtain ⟨v, -, hattempt⟩ := bind_eq_ok hattempt
      cases hattempt
      exact ⟨h.of_natives (h.toAllotted.beside rfl rfl rfl rfl rfl) rfl, rfl⟩
  | alive =>
      cases hattempt
      exact ⟨h, rfl⟩
  | set id attr value =>
      obtain ⟨o, schema, v, -, -, -, rfl⟩ := setAttr_ok hattempt
      have hpinned := h.noted (pinValues [.object o, v] ++ w.pins) w.log w.actionsLeft w.stalled
      exact ⟨(hpinned.assign re o schema attr v).noted w.pins _ _ _, rfl⟩
  | get id attr =>
      rw [getAttr_ok hattempt]
      exact ⟨h, rfl⟩
  | describe id attr =>
      rw [describeAttr_ok hattempt]
      exact ⟨h, rfl⟩
  | debug what =>
      obtain ⟨text, -, heq⟩ := map_eq_ok hattempt
      cases heq
      exact ⟨h, rfl⟩
  | recorderNew id =>
      cases hattempt
      exact ⟨h.of_natives (h.toAllotted.beside rfl rfl rfl rfl rfl) rfl, rfl⟩
  | recorder id =>
      obtain ⟨r, -, hattempt⟩ := bind_eq_ok hattempt
      cases hattempt
      exact ⟨h, rfl⟩
  | recorderClear id =>
      obtain ⟨r, -, hattempt⟩ := bind_eq_ok hattempt
      cases hattempt
      exact ⟨h.of_natives (h.toAllotted.beside rfl rfl rfl rfl rfl) rfl, rfl⟩
  | bindingNew id draft hidle => exact h.makeNamedBinding hidle hattempt
  | evaluate id =>
      obtain ⟨b, B, u, r, -, -, heval, rfl, -⟩ := evaluateNamed_ok hattempt
      have hpinned := h.noted ([.binding b] ++ w.pins) w.log w.actionsLeft w.stalled
      have hdone := hpinned.evaluateBinding hre b
      rw [heval] at hdone
      exact ⟨hdone.noted w.pins _ _ _, rfl⟩
  | reset id =>
      obtain ⟨⟨b, B⟩, -, hattempt⟩ := bind_eq_ok hattempt
      cases hattempt
      exact ⟨(h.resetChannel B.channel).modifyBinding (f := fun c => { c with dirty := true })
        (fun _ => rfl) b, rfl⟩
  | notifierReset id =>
      obtain ⟨⟨b, B⟩, -, hattempt⟩ := bind_eq_ok hattempt
      cases hattempt
      exact ⟨h.resetChannel B.channel, rfl⟩
  | prune id =>
      obtain ⟨⟨b, B⟩, -, hattempt⟩ := bind_eq_ok hattempt
      cases hattempt
      exact ⟨h.prunePolicies B.policies, pins_prunePolicies B.policies w⟩
  | binding id =>
      rw [viewBinding_ok hattempt]
      exact ⟨h, rfl⟩
  | bindingClone id copy =>
      obtain ⟨b, -, hattempt⟩ := bind_eq_ok hattempt
      cases hattempt
      exact ⟨hrenamed _ rfl rfl, rfl⟩

theorem Modest.perform (h : Modest w) {c : Command} (hc : c.Modest) :
    Modest (w.perform re c).1 ∧ (w.perform re c).1.pins = w.pins := by
  unfold Session.perform
  split
  · next after hattempt => exact h.attempt hre hc hattempt
  · exact ⟨h, rfl⟩

theorem Modest.runActions : ∀ {actions : Script} {w : Session}, Modest w →
    (∀ c ∈ actions, c.Modest) → Modest (w.runActions re actions)
  | [], _, h, _ => h
  | c :: rest, w, h, hactions => by
      rw [Session.runActions]
      split
      · exact h.noted w.pins _ _ _
      · have hspent := h.noted w.pins w.log (w.actionsLeft - 1) w.stalled
        obtain ⟨hdone, -⟩ := hspent.perform hre (hactions c List.mem_cons_self)
        exact runActions (hdone.noted _ _ _ _)
          fun c' hc' => hactions c' (List.mem_cons_of_mem _ hc')

omit hre in
theorem Modest.behave (h : Modest w) (behavior : Behavior) (args : List Value) (kwargs : Kwargs) :
    Modest (w.behave re behavior args kwargs).1 := by
  rcases behave_cases re behavior args kwargs w with heq | ⟨o, schema, attr, v, heq⟩
  · rw [heq]
    exact h
  · rw [heq]
    exact h.assign re o schema attr v

theorem Modest.carryOut (h : Modest w) {entry : Entry} (hentry : entry.Modest) :
    Modest (w.carryOut re entry).1 := by
  cases entry with
  | script actions => exact h.runActions hre hentry
  | native name draft args kwargs =>
      exact ((h.noted w.pins _ w.actionsLeft w.stalled).runActions hre hentry).behave
        draft.behavior args kwargs

end Carrying

section Reaching

/-- **Scripts and native calls**, however deep they are nested. -/
theorem modest_enter : ∀ (depth : Nat) (entry : Entry) (w : Session), entry.Modest → Modest w →
    Modest (enter depth entry w).1
  | 0, _, w, _, h => h.noted w.pins w.log w.actionsLeft true
  | depth + 1, _, _, hentry, h => h.carryOut (modest_enter depth) hentry

/-- The session in which commands from outside have been carried out, one after the other. -/
def afterCommands (patience : Nat) (commands : List Command) : Session :=
  commands.foldl (fun w c => (w.respond c).1) { patience := patience }

theorem modest_empty (patience : Nat) : Modest { patience := patience } where
  layout := ⟨nofun, nofun, nofun, nofun⟩
  kinds := nofun
  observers := nofun
  owned := nofun
  listeners := nofun
  named := nofun
  natives := nofun

theorem Modest.respond {w : Session} (h : Modest w) {c : Command} (hc : c.Modest) :
    Modest (w.respond c).1 ∧ (w.respond c).1.pins = w.pins :=
  (h.noted w.pins [] maxActions w.stalled).perform (modest_enter maxDepth) hc

/-- **Every session that modest commands lead to.** -/
theorem modest_afterCommands (patience : Nat) {commands : List Command}
    (hcommands : ∀ c ∈ commands, c.Modest) :
    Modest (afterCommands patience commands) ∧ (afterCommands patience commands).pins = [] := by
  have hgoes : ∀ {cs : List Command} {w : Session}, (∀ c ∈ cs, c.Modest) → Modest w →
      Modest (cs.foldl (fun w c => (w.respond c).1) w) ∧
        (cs.foldl (fun w c => (w.respond c).1) w).pins = w.pins := by
    intro cs
    induction cs with
    | nil => exact fun _ hw => ⟨hw, rfl⟩
    | cons c cs ih =>
        intro w hcs hw
        obtain ⟨hfirst, hpins⟩ := hw.respond (hcs c List.mem_cons_self)
        obtain ⟨hrest, hpins'⟩ := ih (fun c' hc' => hcs c' (List.mem_cons_of_mem _ hc')) hfirst
        exact ⟨hrest, hpins'.trans hpins⟩
  exact hgoes hcommands (modest_empty patience)

end Reaching

section Aspects

/-- What a binding shows of itself. -/
structure Aspect where
  dirty : Bool
  value : Option Outcome
  generation : UInt64
  dependencies : Nat
  listened : List (ObjectRef × String)

/-- The attributes of objects to which a binding listens in its present generation. -/
def listened (w : Session) (B : Binding) : List (ObjectRef × String) :=
  (B.policies.filterMap fun p => w.policies[p]?).flatMap fun P =>
    if w.connected P.registry.token then P.registry.pairs else []

def aspect? (w : Session) (b : Nat) : Option Aspect :=
  w.bindings[b]?.map fun B =>
    ⟨B.dirty, B.last, w.generation B.channel, w.dependencyCount B, w.listened B⟩

variable {own : Prop} {b : Nat} {k : Lines} {w w' : Session} {B : Binding}

/-- No other callback writes where that of a binding does. -/
def WritesAlone (w : Session) (b : Nat) (B : Binding) : Prop :=
  ∀ (c : Nat) (C : Binding), c ≠ b → w.bindings[c]? = some C → B.onInvalid.Apart C.onInvalid

theorem Allotted.resident (h : Allotted w) {id : String}
    (hid : Assoc.get? id w.names.bindings = some b) (hB : w.bindings[b]? = some B) :
    Resident (w.WritesAlone b B) b B.lines w where
  toAllotted := h
  lines := by simp [Session.layout, hB]
  apart := by
    intro halone c k' hne hk'
    obtain ⟨C, hC, rfl⟩ := exists_binding_of_lines hk'
    exact halone c C hne hC
  hasName := ⟨id, hid⟩

/-- **Sessions that agree about a binding** show the same of it. -/
theorem Agree.aspect?_eq (h : Agree own b k w w') (hw : Resident own b k w)
    (hw' : Resident own b k w') : w'.aspect? b = w.aspect? b := by
  obtain ⟨B, hB, rfl⟩ := exists_binding_of_lines hw.lines
  have hheld : (B.policies.filterMap fun p => w'.policies[p]?)
      = B.policies.filterMap fun p => w.policies[p]? := List.filterMap_congr h.policies
  have hissue : w'.generation B.channel = w.generation B.channel :=
    (Token.mk.inj h.issue).2
  have hconnected : ∀ P ∈ B.policies.filterMap (fun p => w.policies[p]?),
      w'.connected P.registry.token = w.connected P.registry.token := by
    intro P hP
    obtain ⟨p, hp, hP⟩ := List.mem_filterMap.mp hP
    have hchannel : P.registry.token.channel = B.channel := (hw.mem_policies hw.lines hP).mp hp
    rw [connected, connected, hchannel, hissue, show w'.channelAlive B.channel = true from
      hw'.channelAlive, show w.channelAlive B.channel = true from hw.channelAlive]
  have hcount : w'.dependencyCount B = w.dependencyCount B := by
    rw [dependencyCount, dependencyCount, hheld]
    refine List.foldl_ext _ _ 0 fun n P hP => ?_
    rw [policySize, policySize, hconnected P hP]
  have hlistened : w'.listened B = w.listened B := by
    rw [listened, listened, hheld]
    refine List.flatMap_congr fun P hP => ?_
    rw [hconnected P hP]
  rw [aspect?, aspect?, h.binding, hB]
  simp only [Option.map_some, hissue, hcount, hlistened]

end Aspects

section Company

variable {patience a b : Nat} {commands : List Command} {w w' : Session} {re : Reentry}
  {op : Operation} {id other : String} {A B : Binding}

/-- **An operation on a binding leaves the others alone.**  Evaluate, reset, prune or drop a binding
in any session that commands lead to which make models, native functions and bindings, set
attributes and work with bindings.  If the evaluation sets no attribute and does not touch another
binding, this shows what it showed; and whatever attributes are set from then on, it shows, and is
told, what it would without the operation.  Its callback has written the same if it writes alone. -/
theorem neighbours_undisturbed (hcommands : ∀ c ∈ commands, c.Modest)
    (hw : w = afterCommands patience commands)
    (hA : w.bindingNamed id = .ok (a, A)) (hB : w.bindingNamed other = .ok (b, B)) (hne : a ≠ b)
    (hcalls : op = .evaluate → ∀ e ∈ w.callsMade re a A,
      e.2.ShowsTo A.policies e.1.function ∨
        Works (w.WritesAlone b B) (· ≠ b) e.2 (callNative re e.1 e.2).1)
    (hw' : w' = (w.perform re (op.command id)).1) :
    w'.aspect? b = w.aspect? b ∧ ∀ (re' : Reentry) (settings : List Setting),
      (w'.setEach re' settings).aspect? b = (w.setEach re' settings).aspect? b ∧
      w'.tidingsEach re' b settings = w.tidingsEach re' b settings ∧
      (w.WritesAlone b B → (w'.setEach re' settings).written B.onInvalid
        = (w.setEach re' settings).written B.onInvalid) := by
  obtain ⟨hmodest, hpins⟩ := modest_afterCommands patience hcommands
  rw [← hw] at hmodest hpins
  obtain ⟨hid, hbinding⟩ := bindingNamed_ok hB
  have hthere : Resident (w.WritesAlone b B) b B.lines w := hmodest.toAllotted.resident hid hbinding
  have howns : Owns (· ≠ b) a A.lines w :=
    ⟨hmodest.toAllotted, by simp [layout, (bindingNamed_ok hA).2], hne⟩
  have hworks := howns.operate hA hcalls
  rw [← hw'] at hworks
  have hthere' := hworks.resident (not_not_intro rfl) hthere
  have hagree := hworks.agree (not_not_intro rfl) hthere
  -- nothing is held on to between two commands
  have hfree : ∀ pin ∈ w.pins, pin.subscription? = none := by simp [hpins]
  have hfree' : ∀ pin ∈ w'.pins, pin.subscription? = none := by simp [hw', pins_operate, hpins]
  refine ⟨hagree.aspect?_eq hthere hthere', fun re' settings => ?_⟩
  have hafter : Agree (w.WritesAlone b B) b B.lines (w.setEach re' settings)
      (w'.setEach re' settings) := hagree.setEach re' hthere hthere' hfree hfree'
  exact ⟨hafter.aspect?_eq (hthere.setEach re' settings) (hthere'.setEach re' settings),
    hagree.tidingsEach_eq re' hthere hthere' hfree hfree', hafter.written⟩

end Company

section Lamp

def lampSchema : Schema := (Schema.empty "Lamp").observable "level"

/-- A lamp, a native function that answers its argument, and two bindings: one hands the level of
the lamp to the function, and the other one just looks it up.  Both are evaluated, and the
level is changed. -/
def lampCommands : List Command :=
  [ .schema "Lamp" lampSchema,
    .object "lamp" ⟨.model "Lamp", [("level", .int 1)]⟩,
    .native "same" ⟨.first, []⟩,
    .scope "lamp" (.object "lamp"),
    .scope "same" (.native "same"),
    .recorderNew "levels",
    .bindingNew "a" ⟨.ops "a" ([.loadName "same", .loadName "lamp", .loadAttr "level",
      .call .plain 1, .returnValue].map .plain), [], {}⟩ (.script []),
    .bindingNew "b" ⟨.ops "b" ([.loadName "lamp", .loadAttr "level",
      .returnValue].map .plain), [], {}⟩ (.recorder "levels"),
    .evaluate "a",
    .evaluate "b",
    .set "lamp" "level" (.int 2) ]

def lampSession : Session := afterCommands 100 lampCommands

def lamp : ObjectRef := ⟨0, 0, "lamp", "Lamp"⟩

theorem modest_lampCommands : ∀ c ∈ lampCommands, c.Modest := by
  have hnone : ∀ c ∈ ([] : List Command), c.Modest := fun c hc => absurd hc List.not_mem_nil
  simp only [lampCommands, List.forall_mem_cons]
  exact ⟨.schema _ _, .object _ trivial, .native _ hnone, .scope _ _, .scope _ _, .recorderNew _,
    .bindingNew _ _ rfl, .bindingNew _ _ trivial, .evaluate _, .evaluate _, .set _ _ _, hnone⟩

set_option maxRecDepth 10000 in
/-- The evaluation of the first binding calls two side-calls and the native function.  The second
binding hears of the next change whether or not the first one is evaluated again. -/
theorem lampSession_eq : (Assoc.get? "a" lampSession.names.bindings = some 0 ∧
    Assoc.get? "b" lampSession.names.bindings = some 1 ∧
    lampSession.bindings.map Binding.onInvalid = [.script "a" [], .record 0]) ∧
    (lampSession.bindings[0]?.any fun A =>
      (lampSession.callsMade (enter 1) 0 A).all (fun e =>
        (e.2.natives[e.1.function.id]?.map (NativeRole.keepsTo A.policies)).getD false) &&
      (lampSession.callsMade (enter 1) 0 A).length == 3) = true ∧
    (lampSession.tidingsEach (enter 1) 1 [⟨lamp, "level", .int 3⟩]).map List.length = [1] ∧
    (lampSession.setEach (enter 1) [⟨lamp, "level", .int 3⟩]).recorders.map List.length = [2] := by
  cbv

/-- Another evaluation of the first binding leaves the second one alone. -/
theorem neighbours_undisturbed_lamp :
    let w := (lampSession.perform (enter 1) (.evaluate "a")).1
    w.aspect? 1 = lampSession.aspect? 1 ∧
    (w.tidingsEach (enter 1) 1 [⟨lamp, "level", .int 3⟩]).map List.length = [1] ∧
    (w.setEach (enter 1) [⟨lamp, "level", .int 3⟩]).recorders[0]?.map List.length = some 2 := by
  obtain ⟨⟨ha, hb, hcallbacks⟩, hsome, htidings, hevents⟩ := lampSession_eq
  obtain ⟨A, hA, hcalls⟩ := (Option.any_eq_true _ _).mp hsome
  obtain ⟨hquiet, -⟩ := Bool.and_eq_true_iff.mp hcalls
  have hcallback : ∀ (c : Nat) (C : Binding), lampSession.bindings[c]? = some C →
      [Invalidation.script "a" [], .record 0][c]? = some C.onInvalid := by
    intro c C hC
    rw [← hcallbacks, List.getElem?_map, hC]
    rfl
  obtain ⟨B, hB⟩ : ∃ B, lampSession.bindings[1]? = some B := by
    have hlength := congrArg List.length hcallbacks
    rw [List.length_map] at hlength
    exact ⟨_, List.getElem?_eq_getElem (by rw [hlength]; decide)⟩
  have hrecords : B.onInvalid = .record 0 := (Option.some.inj (hcallback 1 B hB)).symm
  have halone : lampSession.WritesAlone 1 B := by
    intro c C hne hC
    have hother := hcallback c C hC
    rw [hrecords]
    match c with
    | 0 =>
        rw [← Option.some.inj hother]
        trivial
    | 1 => exact absurd rfl hne
    | _ + 2 => cases hother
  have hkept : ∀ e ∈ lampSession.callsMade (enter 1) 0 A, e.2.ShowsTo A.policies e.1.function ∨
      Works (lampSession.WritesAlone 1 B) (· ≠ 1) e.2 (callNative (enter 1) e.1 e.2).1 := by
    intro e he
    have hkeeps := List.all_eq_true.mp hquiet e he
    cases hrole : e.2.natives[e.1.function.id]? with
    | none => simp [hrole] at hkeeps
    | some role =>
        simp only [hrole, Option.map_some, Option.getD_some] at hkeeps
        exact showsTo_or_works hrole hkeeps 0
  obtain ⟨haspect, hafter⟩ := @neighbours_undisturbed 100 0 1 lampCommands lampSession _ (enter 1)
    .evaluate "a" "b" A B modest_lampCommands rfl (bindingNamed_eq ha hA) (bindingNamed_eq hb hB)
    (by decide) (fun _ => hkept) rfl
  obtain ⟨-, htold, hwritten⟩ := hafter (enter 1) [⟨lamp, "level", .int 3⟩]
  refine ⟨haspect, (congrArg (List.map List.length) htold).trans htidings, ?_⟩
  have hsame := hwritten halone
  rw [hrecords] at hsame
  have hrecorded := (Prod.mk.inj hsame).2
  refine (congrArg (Option.map List.length) hrecorded).trans ?_
  rw [← List.getElem?_map, hevents]
  rfl

end Lamp

end Session
end TrackedExpr
