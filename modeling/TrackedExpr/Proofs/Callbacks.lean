import TrackedExpr.Proofs.Dealings
import TrackedExpr.Session.Perform

/-!
# A binding keeps silent while it is evaluated

A change that reaches a binding under evaluation marks it dirty and calls nobody.  One
flag says that an evaluation is under way, and every evaluation lowers it when it ends.  So
the callback is silent until an evaluation of the same binding that was begun meanwhile has
returned, and from then on it may run although the outer evaluation goes on.

**Definitions.**
* `Command.Tame`, `Docile`: commands that make, forget and rename nothing, and a session in
  which callbacks and native functions carry out only such commands;
* `Invalidation.Writes`, `Invalidation.Apart`: what a callback writes to the log, and callbacks
  that cannot be taken for each other;
* `Returned`, `Prompted`: an evaluation of a binding has returned, and callbacks that run only
  after that;
* `Follows`: what may happen while a binding is evaluated.

**Results.**
* `Docile.dispatch`, `Docile.act`: a change, and a command of a script;
* `enter_follows`: scripts and native calls, however deep they are nested;
* `silent_until_returned`: the callback of a binding under evaluation;
* `callback_within_evaluation`: the callback may run inside of an evaluation.
-/

namespace TrackedExpr
namespace Session

section Tameness

/-- A command that works with objects and bindings, and makes, forgets and renames nothing. -/
def Command.Tame : Command → Prop
  | .alive _ | .set .. | .get .. | .describe .. | .emit .. | .evaluate _ | .reset _
  | .notifierReset _ | .prune _ | .binding _ => True
  | _ => False

def TameScript (actions : Script) : Prop := ∀ c ∈ actions, c.Tame

def Reaction.Tame : Reaction → Prop
  | .script _ actions => TameScript actions
  | .forward _ _ => True

def Sink.Tame : Sink → Prop
  | .script _ actions => TameScript actions
  | _ => True

def Invalidation.Tame : Invalidation → Prop
  | .script _ actions => TameScript actions
  | .record _ => True
  | .rerun _ actions => TameScript actions

def ObjectKind.Tame : ObjectKind → Prop
  | .source _ onObserve => TameScript onObserve
  | _ => True

def Entry.Tame : Entry → Prop
  | .script actions => TameScript actions
  | .native _ draft _ _ => TameScript draft.actions

end Tameness

section Callbacks

/-- The entries that a callback writes to the log. -/
def Invalidation.Writes : Invalidation → LogEntry → Prop
  | .script name _, .invalid id _ _ => id = name
  | .rerun name _, .sink id _ => id = name
  | _, _ => False

/-- Callbacks that write under different names, or to different recorders. -/
def Invalidation.Apart : Invalidation → Invalidation → Prop
  | .script name _, .script other _ => other ≠ name
  | .rerun name _, .rerun other _ => other ≠ name
  | .record r, .record other => other ≠ r
  | _, _ => True

/-- A receiver of events that does not write to the recorder of a callback. -/
def Sink.Apart (onInvalid : Invalidation) (sink : Sink) : Prop :=
  ∀ r, sink = .record r → onInvalid ≠ .record r

/-- A session in which callbacks and native functions carry out tame commands, and in which
nothing else writes what the callback of a binding writes. -/
structure Docile (b : Nat) (onInvalid : Invalidation) (w : Session) : Prop where
  natives : ∀ (i : Nat) (draft : NativeDraft Command), w.natives[i]? = some (.host draft) →
    TameScript draft.actions
  cells : ∀ (i : Nat) (cell : ObjectCell), w.objects[i]? = some cell →
    cell.kind.Tame ∧ ∀ ob ∈ cell.observers, ob.action.Tame
  sinks : ∀ (i : Nat) (c : Channel), w.channels[i]? = some c →
    c.sink.Tame ∧ c.sink.Apart onInvalid
  callbacks : ∀ (i : Nat) (B : Binding), w.bindings[i]? = some B →
    B.onInvalid.Tame ∧ (i ≠ b → onInvalid.Apart B.onInvalid)
  self : ∃ B, w.bindings[b]? = some B ∧ B.onInvalid = onInvalid

/-- An evaluation of a binding that a script had begun has returned. -/
def Returned (names : Names) (b : Nat) (entries : List LogEntry) : Prop :=
  ∃ id r, .act (.evaluate id) (.result r) ∈ entries ∧ Assoc.get? id names.bindings = some b

/-- What a callback has written was written after an evaluation of the binding had returned; the
newest entry comes first. -/
def Prompted (names : Names) (b : Nat) (onInvalid : Invalidation) : List LogEntry → Prop
  | [] => True
  | e :: earlier =>
      (onInvalid.Writes e → Returned names b earlier) ∧ Prompted names b onInvalid earlier

/-- An evaluation of a binding is under way. -/
def UnderWay (b : Nat) (w : Session) : Prop :=
  ∃ B, w.bindings[b]? = some B ∧ B.evaluating = true

/-- Nothing has happened to a binding and its recorder but that it was made dirty. -/
def OnlyRaised (b : Nat) (onInvalid : Invalidation) (w w' : Session) : Prop :=
  (∃ raised, w'.bindings[b]? = w.bindings[b]?.map
    fun (B : Binding) => ({ B with dirty := B.dirty || raised } : Binding)) ∧
  ∀ r, onInvalid = .record r → w'.recorders[r]? = w.recorders[r]?

/-- What happens in a docile session: entries are added to the log. -/
structure Goes (b : Nat) (onInvalid : Invalidation) (w w' : Session) : Prop where
  docile : Docile b onInvalid w'
  names : w'.names = w.names
  log : w.log <:+ w'.log

/-- What may happen while a binding is evaluated: its callback is silent until an evaluation of the
binding has returned, and until then nothing happens to the binding but that it is made dirty. -/
structure Follows (b : Nat) (onInvalid : Invalidation) (w w' : Session) : Prop
    extends Goes b onInvalid w w' where
  silent : UnderWay b w → ∀ entries, w'.log = entries ++ w.log →
    Prompted w.names b onInvalid entries ∧
      (Returned w.names b entries ∨ OnlyRaised b onInvalid w w')

end Callbacks

section Entries

variable {names : Names} {b : Nat} {onInvalid : Invalidation} {entries more : List LogEntry}

theorem Returned.append (h : Returned names b entries) (more : List LogEntry) :
    Returned names b (more ++ entries) := by
  obtain ⟨id, r, hmem, hid⟩ := h
  exact ⟨id, r, List.mem_append_right _ hmem, hid⟩

theorem Returned.of_append (h : Returned names b more) (entries : List LogEntry) :
    Returned names b (more ++ entries) := by
  obtain ⟨id, r, hmem, hid⟩ := h
  exact ⟨id, r, List.mem_append_left _ hmem, hid⟩

theorem Prompted.append (h : Prompted names b onInvalid entries)
    (hmore : Prompted names b onInvalid more) : Prompted names b onInvalid (more ++ entries) := by
  induction more with
  | nil => exact h
  | cons e earlier ih =>
      exact ⟨fun hwrites => (hmore.1 hwrites).of_append entries, ih hmore.2⟩

/-- Once an evaluation has returned, anything may be written. -/
theorem Prompted.after (h : Prompted names b onInvalid entries)
    (hreturned : Returned names b entries) (more : List LogEntry) :
    Prompted names b onInvalid (more ++ entries) := by
  induction more with
  | nil => exact h
  | cons e earlier ih => exact ⟨fun _ => hreturned.append earlier, ih⟩

theorem Prompted.split {later earlier : List LogEntry} {e : LogEntry}
    (h : Prompted names b onInvalid (later ++ e :: earlier)) (hwrites : onInvalid.Writes e) :
    Returned names b earlier := by
  induction later with
  | nil => exact h.1 hwrites
  | cons _ later ih => exact ih h.2

/-- Callbacks that are apart write different entries. -/
theorem Invalidation.Apart.not_writes {other : Invalidation} (h : onInvalid.Apart other)
    {e : LogEntry} (he : other.Writes e) : ¬ onInvalid.Writes e := by
  intro hwrites
  cases e with
  | invalid id dirty change =>
      cases onInvalid with
      | script name _ =>
          cases other with
          | script name' _ => exact h (he.symm.trans hwrites)
          | _ => exact he
      | _ => exact hwrites
  | sink id r =>
      cases onInvalid with
      | rerun name _ =>
          cases other with
          | rerun name' _ => exact h (he.symm.trans hwrites)
          | _ => exact he
      | _ => exact hwrites
  | _ => cases onInvalid <;> exact hwrites

/-- Callbacks write that a binding is invalid or what a reactive binding has passed on. -/
theorem not_writes {e : LogEntry} (hinvalid : ∀ id dirty change, e ≠ .invalid id dirty change)
    (hsink : ∀ id r, e ≠ .sink id r) : ¬ onInvalid.Writes e := by
  intro hwrites
  cases e with
  | invalid id dirty change => exact hinvalid id dirty change rfl
  | sink id r => exact hsink id r rfl
  | _ => cases onInvalid <;> exact hwrites

end Entries

section Relations

variable {b : Nat} {onInvalid : Invalidation} {w w' w'' : Session}

theorem OnlyRaised.refl (b : Nat) (onInvalid : Invalidation) (w : Session) :
    OnlyRaised b onInvalid w w := by
  refine ⟨⟨false, ?_⟩, fun _ _ => rfl⟩
  cases w.bindings[b]? <;> simp

theorem OnlyRaised.trans (h : OnlyRaised b onInvalid w w') (h' : OnlyRaised b onInvalid w' w'') :
    OnlyRaised b onInvalid w w'' := by
  obtain ⟨⟨raised, hraised⟩, hrecorder⟩ := h
  obtain ⟨⟨raised', hraised'⟩, hrecorder'⟩ := h'
  refine ⟨⟨raised || raised', ?_⟩, fun r hr => (hrecorder' r hr).trans (hrecorder r hr)⟩
  rw [hraised', hraised]
  cases w.bindings[b]? <;> simp [Bool.or_assoc]

theorem OnlyRaised.underWay (h : OnlyRaised b onInvalid w w') (hw : UnderWay b w) :
    UnderWay b w' := by
  obtain ⟨⟨raised, hraised⟩, -⟩ := h
  obtain ⟨B, hB, hevaluating⟩ := hw
  exact ⟨{ B with dirty := B.dirty || raised }, by rw [hraised, hB]; rfl, hevaluating⟩

theorem Goes.trans (h : Goes b onInvalid w w') (h' : Goes b onInvalid w' w'') :
    Goes b onInvalid w w'' :=
  ⟨h'.docile, h'.names.trans h.names, h.log.trans h'.log⟩

/-- While the binding is not evaluated, its callback may run. -/
theorem Goes.follows (h : Goes b onInvalid w w') (hidle : ¬ UnderWay b w) :
    Follows b onInvalid w w' :=
  ⟨h, fun hw => absurd hw hidle⟩

theorem Follows.trans (h : Follows b onInvalid w w') (h' : Follows b onInvalid w' w'') :
    Follows b onInvalid w w'' := by
  refine ⟨h.toGoes.trans h'.toGoes, ?_⟩
  intro hw entries hentries
  obtain ⟨first, hfirst⟩ := h.log
  obtain ⟨rest, hrest⟩ := h'.log
  obtain rfl : entries = rest ++ first := by
    rw [← hrest, ← hfirst, ← List.append_assoc] at hentries
    exact (List.append_cancel_right hentries).symm
  obtain ⟨hprompted, hreturned | hraised⟩ := h.silent hw first hfirst.symm
  · exact ⟨hprompted.after hreturned rest, Or.inl (hreturned.append rest)⟩
  · obtain ⟨hprompted', hthen⟩ := h'.silent (hraised.underWay hw) rest hrest.symm
    rw [h.names] at hprompted' hthen
    refine ⟨hprompted.append hprompted', ?_⟩
    rcases hthen with hreturned | hraised'
    · exact Or.inl (hreturned.of_append first)
    · exact Or.inr (hraised.trans hraised')

/-- Nothing is written, and the binding is at most made dirty. -/
theorem Follows.of_raised (h : Docile b onInvalid w') (hnames : w'.names = w.names)
    (hlog : w'.log = w.log) (hraised : OnlyRaised b onInvalid w w') : Follows b onInvalid w w' := by
  refine ⟨⟨h, hnames, hlog ▸ List.suffix_refl _⟩, ?_⟩
  intro _ entries hentries
  obtain rfl : entries = [] := by
    rw [hlog] at hentries
    exact List.self_eq_append_left.mp hentries
  exact ⟨trivial, Or.inr hraised⟩

/-- Neither the log nor the bindings nor the recorders change. -/
theorem Follows.of_still (h : Docile b onInvalid w') (hnames : w'.names = w.names)
    (hlog : w'.log = w.log) (hbindings : w'.bindings = w.bindings)
    (hrecorders : w'.recorders = w.recorders) : Follows b onInvalid w w' := by
  apply Follows.of_raised h hnames hlog
  obtain ⟨hraised, -⟩ := OnlyRaised.refl b onInvalid w
  rw [OnlyRaised, hbindings, hrecorders]
  exact ⟨hraised, fun _ _ => rfl⟩

theorem Follows.refl (h : Docile b onInvalid w) : Follows b onInvalid w w :=
  Follows.of_still h rfl rfl rfl rfl

/-- An entry is written that is not the callback's, or the binding is not evaluated. -/
theorem Docile.note (h : Docile b onInvalid w) {e : LogEntry}
    (he : UnderWay b w → ¬ onInvalid.Writes e) : Follows b onInvalid w (w.note e) := by
  refine ⟨⟨⟨h.natives, h.cells, h.sinks, h.callbacks, h.self⟩, rfl, List.suffix_cons e w.log⟩, ?_⟩
  intro hw entries hentries
  have hsame : [e] ++ w.log = entries ++ w.log := hentries
  obtain rfl : entries = [e] := (List.append_cancel_right hsame).symm
  exact ⟨⟨fun hwrites => absurd hwrites (he hw), trivial⟩, Or.inr (OnlyRaised.refl b onInvalid w)⟩

theorem Docile.repinned (h : Docile b onInvalid w) (pins : List Pin) :
    Follows b onInvalid w { w with pins := pins } :=
  Follows.of_still ⟨h.natives, h.cells, h.sinks, h.callbacks, h.self⟩ rfl rfl rfl rfl

/-- Whatever is done while more is held on to. -/
theorem Follows.keeping (hw : Docile b onInvalid w) (pins : List Pin)
    (h : Follows b onInvalid { w with pins := pins ++ w.pins } w') :
    Follows b onInvalid w { w' with pins := w.pins } :=
  ((hw.repinned (pins ++ w.pins)).trans h).trans (h.docile.repinned w.pins)

/-- Policies may change in any way. -/
theorem Docile.withPolicies (h : Docile b onInvalid w) (policies : List Policy) :
    Follows b onInvalid w { w with policies := policies } :=
  Follows.of_still ⟨h.natives, h.cells, h.sinks, h.callbacks, h.self⟩ rfl rfl rfl rfl

/-- Objects may change in attributes, and in observers that are tame. -/
theorem Docile.modifyObject (h : Docile b onInvalid w) {f : ObjectCell → ObjectCell}
    (hkind : ∀ cell, (f cell).kind = cell.kind)
    (hobservers : ∀ cell, (∀ ob ∈ cell.observers, ob.action.Tame) →
      ∀ ob ∈ (f cell).observers, ob.action.Tame) (id : Nat) :
    Follows b onInvalid w (w.modifyObject id f) := by
  refine Follows.of_still ⟨h.natives, ?_, h.sinks, h.callbacks, h.self⟩ rfl rfl rfl rfl
  intro i cell hcell
  obtain ⟨cell', hcell', rfl | rfl⟩ := getElem?_modify_some hcell
  · obtain ⟨htame, hobs⟩ := h.cells i cell' hcell'
    exact ⟨by rw [hkind]; exact htame, hobservers cell' hobs⟩
  · exact h.cells i cell hcell'

theorem Docile.subscribe (h : Docile b onInvalid w) (id : Nat) (attr : String)
    {reaction : Reaction} (hreaction : reaction.Tame) :
    Follows b onInvalid w (w.subscribe (.object id) attr reaction).1 := by
  have hobserved := h.modifyObject
    (f := fun cell => { cell with
      observers := cell.observers ++ [⟨attr, w.subscriptions, reaction⟩] })
    (fun _ => rfl) (fun cell hobs ob hob => (List.mem_append.mp hob).elim (hobs ob)
      fun hnew => List.mem_singleton.mp hnew ▸ hreaction) id
  obtain ⟨hnatives, hcells, hsinks, hcallbacks, hself⟩ := hobserved.docile
  exact Follows.of_still ⟨hnatives, hcells, hsinks, hcallbacks, hself⟩ rfl rfl rfl rfl

theorem Docile.resetChannel (h : Docile b onInvalid w) (c : Nat) :
    Follows b onInvalid w (w.resetChannel c) := by
  refine Follows.of_still ⟨h.natives, h.cells, ?_, h.callbacks, h.self⟩ rfl rfl rfl rfl
  intro i d hd
  obtain ⟨d', hd', rfl | rfl⟩ := getElem?_modify_some hd
  · exact h.sinks i d' hd'
  · exact h.sinks i d hd'

/-- Bindings keep their callbacks. -/
theorem Docile.modifyBinding (h : Docile b onInvalid w) {f : Binding → Binding}
    (hf : ∀ B, (f B).onInvalid = B.onInvalid) (i : Nat) :
    Docile b onInvalid (w.modifyBinding i f) := by
  refine ⟨h.natives, h.cells, h.sinks, ?_, ?_⟩
  · intro j B hB
    obtain ⟨B', hB', rfl | rfl⟩ := getElem?_modify_some hB
    · rw [hf]
      exact h.callbacks j B' hB'
    · exact h.callbacks j B hB'
  · obtain ⟨B, hB, hself⟩ := h.self
    by_cases hi : i = b
    · subst hi
      exact ⟨f B, by simp [Session.modifyBinding, hB], (hf B).trans hself⟩
    · exact ⟨B, (List.getElem?_modify_ne f w.bindings hi).trans hB, hself⟩

theorem Docile.raise (h : Docile b onInvalid w) (i : Nat) :
    Follows b onInvalid w (w.modifyBinding i fun c => { c with dirty := true }) := by
  have hdocile := h.modifyBinding (f := fun c => { c with dirty := true }) (fun _ => rfl) i
  obtain ⟨raised, hraised⟩ := (Stirs.raise w i).bindings
  exact Follows.of_raised hdocile rfl rfl ⟨⟨raised b, hraised b⟩, fun _ _ => rfl⟩

/-- Another binding may change in any way but its callback. -/
theorem Docile.modifyOther (h : Docile b onInvalid w) {f : Binding → Binding}
    (hf : ∀ B, (f B).onInvalid = B.onInvalid) {i : Nat} (hi : i ≠ b) :
    Follows b onInvalid w (w.modifyBinding i f) := by
  refine Follows.of_raised (h.modifyBinding hf i) rfl rfl ⟨⟨false, ?_⟩, fun _ _ => rfl⟩
  rw [Session.modifyBinding, List.getElem?_modify_ne f w.bindings hi]
  cases w.bindings[b]? <;> simp

end Relations

section Reentry

variable {re : Reentry} {b : Nat} {onInvalid : Invalidation} {w : Session}
  (hre : ∀ (entry : Entry) (w : Session), entry.Tame → Docile b onInvalid w →
    Follows b onInvalid w (re entry w).1)
include hre

theorem Docile.runScript (h : Docile b onInvalid w) {actions : Script}
    (hactions : TameScript actions) : Follows b onInvalid w (w.runScript re actions) := by
  unfold Session.runScript
  split
  · exact Follows.refl h
  · exact hre _ w hactions h

/-- An object may run a script when it is observed, and gains an observer. -/
theorem Docile.observe (h : Docile b onInvalid w) (o : ObjectRef) (attr : String)
    {reaction : Reaction} (hreaction : reaction.Tame) :
    Follows b onInvalid w (w.observe re o attr reaction).1 := by
  unfold Session.observe
  split
  · next onObserve _ _ hcell =>
      have hscript := h.runScript hre (h.cells _ _ hcell).1
      exact hscript.trans (hscript.docile.subscribe o.id attr hreaction)
  · exact h.subscribe o.id attr hreaction

theorem Docile.attachListener (h : Docile b onInvalid w) (p : Nat) (r : Registry)
    (subject : SlotKey) (o : ObjectRef) (attr : String) :
    Follows b onInvalid w (w.attachListener re p r subject o attr).1 := by
  have hbusy := h.withPolicies (w.policies.modify p fun policy =>
    { policy with registry := r, busy := true })
  have htame : Reaction.Tame (.forward (some r.listeners.nextKey) r.token) := trivial
  have hobserved := hbusy.docile.observe hre o attr htame
  exact (hbusy.trans hobserved).trans (hobserved.docile.withPolicies _)

theorem Docile.listen (h : Docile b onInvalid w) (p : Nat) (o : ObjectRef) (attr : String) :
    Follows b onInvalid w (w.listen re p o attr).1 := by
  unfold Session.listen
  cases w.policies[p]? with
  | none => exact Follows.refl h
  | some policy =>
      dsimp only
      split
      · exact h.withPolicies _
      · split
        · exact h.withPolicies _
        · exact h.attachListener hre p _ _ o attr

theorem Docile.hookUp (h : Docile b onInvalid w) (p : Nat) (v : Value) (attr : String) :
    Follows b onInvalid w (w.hookUp re p v attr).1 := by
  unfold Session.hookUp
  split
  · split
    · exact h.listen hre p _ attr
    · exact Follows.refl h
    · exact Follows.refl h
  · exact Follows.refl h

/-- An access that is shown to a policy. -/
theorem Docile.see (h : Docile b onInvalid w) (p : Nat) (v : Value) (attr : String) :
    Follows b onInvalid w (w.see re p v attr) := by
  unfold Session.see
  split
  · exact Follows.keeping h _ ((h.repinned _).docile.hookUp hre p v attr)
  · exact Follows.refl h

theorem Docile.answerAttributeSide (h : Docile b onInvalid w) (hook : Hook) (args : List Value) :
    Follows b onInvalid w (w.answerAttributeSide re hook args).1 := by
  unfold Session.answerAttributeSide
  split
  · cases hook with
    | log => exact h.note fun _ => not_writes nofun nofun
    | policy p => exact h.see hre p _ _
    | none => exact Follows.refl h
  · exact Follows.refl h

theorem Docile.answerCallSide (h : Docile b onInvalid w) (hook : Hook) (args : List Value) :
    Follows b onInvalid w (w.answerCallSide re hook args).1 := by
  unfold Session.answerCallSide
  split
  · exact Follows.refl h
  · cases hook with
    | log => exact h.note fun _ => not_writes nofun nofun
    | policy p =>
        unfold tellCall
        dsimp only
        split
        · exact h.see hre p _ _
        · exact Follows.refl h
    | none => exact Follows.refl h
  · exact Follows.refl h

/-- A call of a native function, side-calls included. -/
theorem Docile.callNative (h : Docile b onInvalid w) (call : NativeCall) :
    Follows b onInvalid w (w.callNative re call).1 := by
  have hpinned := (h.repinned (pinValues (NativeCall.values call) ++ w.pins)).docile
  unfold Session.callNative holding
  refine Follows.keeping h (pinValues (NativeCall.values call)) ?_
  cases hnative : w.natives[call.function.id]? with
  | none => exact Follows.refl hpinned
  | some role =>
      cases role with
      | host draft =>
          have hdraft : (Entry.native call.function.name draft call.args call.kwargs).Tame :=
            h.natives _ draft hnative
          exact hre _ _ hdraft hpinned
      | attributeSite hook => exact hpinned.answerAttributeSide hre hook call.args
      | callSite hook => exact hpinned.answerCallSide hre hook call.args

/-- A run of code is a sequence of native calls. -/
theorem Docile.run (code : Code) (scope : Scope) : ∀ (limit : Nat) (f : Frame) {w : Session},
    Docile b onInvalid w → Follows b onInvalid w ((host re).run code scope limit f w).state
  | 0, _, _, h => Follows.refl h
  | limit + 1, f, w, h => by
      rw [Host.run_succ]
      cases hturn : (host re).turn code scope f w with
      | goes g u =>
          rcases Host.turn_goes hturn with ⟨-, rfl⟩ | ⟨call, below, v, -, hanswer, rfl⟩
          · exact run code scope limit g h
          · have hcall := h.callNative hre call
            rw [show w.callNative re call = (u, .ok v) from hanswer] at hcall
            exact hcall.trans (run code scope limit _ hcall.docile)
      | ends r u =>
          rcases Host.turn_ends hturn with ⟨v, -, -, rfl⟩ | ⟨e, -, -, rfl⟩ |
            ⟨call, below, e, -, hanswer, -⟩
          · exact Follows.refl h
          · exact Follows.refl h
          · have hcall := h.callNative hre call
            rwa [show w.callNative re call = (u, .error e) from hanswer] at hcall

theorem Docile.runCode (h : Docile b onInvalid w) (code : Code) (scope : Scope) :
    Follows b onInvalid w (w.runCode re code scope).1 := by
  have hrun : Follows b onInvalid w (w.execute re code scope w.patience).state :=
    Follows.keeping h _
      ((h.repinned _).docile.run hre code scope w.patience Frame.start)
  unfold Session.runCode
  dsimp only
  split
  · exact hrun
  · exact hrun.trans (Follows.of_still ⟨hrun.docile.natives, hrun.docile.cells, hrun.docile.sinks,
      hrun.docile.callbacks, hrun.docile.self⟩ rfl rfl rfl rfl)

/-- An evaluation of another binding. -/
theorem Docile.evaluateOther (h : Docile b onInvalid w) {i : Nat} (hi : i ≠ b) :
    Follows b onInvalid w (w.evaluateBinding re i).1 := by
  unfold Session.evaluateBinding
  cases w.bindings[i]? with
  | none => exact Follows.refl h
  | some B =>
      have hreset := h.resetChannel B.channel
      have hbegun := hreset.docile.modifyOther
        (f := fun c => { c with dirty := false, evaluating := true }) (fun _ => rfl) hi
      have hrun := hbegun.docile.runCode hre B.code B.scope
      exact ((hreset.trans hbegun).trans hrun).trans
        (hrun.docile.modifyOther (f := fun c => { c with evaluating := false, last := some _ })
          (fun _ => rfl) hi)

/-- **An evaluation of the binding itself.**  Its run follows on the flag that it raises; when it
ends it lowers the flag. -/
theorem Docile.evaluateSelf (h : Docile b onInvalid w) {B : Binding}
    (hB : w.bindings[b]? = some B) {w' : Session} {r : Outcome}
    (heval : w.evaluateBinding re b = (w', r)) :
    Goes b onInvalid w w' ∧ ¬ UnderWay b w' ∧ ∀ entries, w'.log = entries ++ w.log →
      Prompted w.names b onInvalid entries ∧ (Returned w.names b entries ∨
        (∃ dirty, w'.bindings[b]?
          = some { B with dirty := dirty, evaluating := false, last := some r }) ∧
        ∀ r, onInvalid = .record r → w'.recorders[r]? = w.recorders[r]?) := by
  let w₁ := (w.resetChannel B.channel).modifyBinding b fun c =>
    { c with dirty := false, evaluating := true }
  have hdocile : Docile b onInvalid w₁ :=
    (h.resetChannel B.channel).docile.modifyBinding
      (f := fun c => { c with dirty := false, evaluating := true }) (fun _ => rfl) b
  have hself : w₁.bindings[b]? = some { B with dirty := false, evaluating := true } := by
    simp only [w₁, Session.modifyBinding, Session.resetChannel, modifyChannel,
      List.getElem?_modify_eq, hB]
    rfl
  have hrun := hdocile.runCode hre B.code B.scope
  have heq : w.evaluateBinding re b = ((w₁.runCode re B.code B.scope).1.modifyBinding b fun c =>
      { c with evaluating := false, last := some (w₁.runCode re B.code B.scope).2 },
        (w₁.runCode re B.code B.scope).2) := by
    simp only [Session.evaluateBinding, hB]
    rfl
  rw [heq] at heval
  generalize w₁.runCode re B.code B.scope = run at hrun heval
  obtain ⟨w₂, r₂⟩ := run
  cases heval
  have hended := hrun.docile.modifyBinding
    (f := fun c => { c with evaluating := false, last := some r₂ }) (fun _ => rfl) b
  refine ⟨⟨hended, hrun.names, hrun.log⟩, ?_, ?_⟩
  · rintro ⟨C, hC, hevaluating⟩
    rw [Session.modifyBinding, List.getElem?_modify_eq] at hC
    obtain ⟨C', -, rfl⟩ := Option.map_eq_some_iff.mp hC
    cases hevaluating
  · intro entries hentries
    obtain ⟨hprompted, hthen⟩ := hrun.silent ⟨_, hself, rfl⟩ entries hentries
    refine ⟨hprompted, hthen.imp_right ?_⟩
    rintro ⟨⟨raised, hraised⟩, hrecorder⟩
    refine ⟨⟨raised, ?_⟩, hrecorder⟩
    rw [Session.modifyBinding, List.getElem?_modify_eq, hraised, hself]
    simp

end Reentry

section Notification

variable {re : Reentry} {b : Nat} {onInvalid : Invalidation} {w : Session}
  (hre : ∀ (entry : Entry) (w : Session), entry.Tame → Docile b onInvalid w →
    Follows b onInvalid w (re entry w).1)

/-- An event is kept by a recorder that the callback does not use, or the binding is not
evaluated. -/
theorem Docile.record (h : Docile b onInvalid w) {r : Nat}
    (hr : UnderWay b w → onInvalid ≠ .record r) (change : Change) :
    Follows b onInvalid w (w.record r change) := by
  refine ⟨⟨⟨h.natives, h.cells, h.sinks, h.callbacks, h.self⟩, rfl, List.suffix_refl _⟩, ?_⟩
  intro hw entries hentries
  obtain rfl : entries = [] := List.self_eq_append_left.mp hentries
  refine ⟨trivial, Or.inr ⟨(OnlyRaised.refl b onInvalid w).1, ?_⟩⟩
  intro s hs
  have hne : r ≠ s := by
    rintro rfl
    exact hr hw hs
  exact List.getElem?_modify_ne _ w.recorders hne

include hre

theorem Docile.passOn (h : Docile b onInvalid w) {id : String} {actions : Script}
    (hactions : TameScript actions) {r : Outcome}
    (hsink : UnderWay b w → ¬ onInvalid.Writes (.sink id r)) :
    Follows b onInvalid w (w.passOn re id actions r) := by
  have hnoted := h.note hsink
  have hscript := fun pins => (hnoted.docile.repinned pins).docile.runScript hre hactions
  exact hnoted.trans (Follows.keeping hnoted.docile _ (hscript _))

/-- The callback of another binding writes nothing that the callback of this one does; the callback
of this one only runs while it is not evaluated. -/
theorem Docile.reactToInvalidation (h : Docile b onInvalid w) {i : Nat} {B : Binding}
    (hB : w.bindings[i]? = some B) (hidle : i = b → B.evaluating = false) (change : Change) :
    Follows b onInvalid w (w.reactToInvalidation re i B change) := by
  obtain ⟨htame, hother⟩ := h.callbacks i B hB
  have hapart : UnderWay b w → onInvalid.Apart B.onInvalid := by
    rintro ⟨C, hC, hevaluating⟩
    apply hother
    rintro rfl
    obtain rfl := Option.some.inj (hB.symm.trans hC)
    rw [hidle rfl] at hevaluating
    cases hevaluating
  unfold Session.reactToInvalidation
  cases hinvalid : B.onInvalid with
  | script id actions =>
      rw [hinvalid] at htame hapart
      have hnoted : Follows b onInvalid w (w.note (.invalid id B.dirty change)) := by
        exact h.note fun hw => (hapart hw).not_writes rfl
      exact hnoted.trans (hnoted.docile.runScript hre htame)
  | record r =>
      rw [hinvalid] at hapart
      apply h.record
      rintro hw rfl
      exact hapart hw rfl
  | rerun id actions =>
      rw [hinvalid] at htame hapart
      dsimp only
      by_cases hi : i = b
      · subst hi
        have hgone : ¬ UnderWay i w := by
          rintro ⟨C, hC, hevaluating⟩
          obtain rfl := Option.some.inj (hB.symm.trans hC)
          rw [hidle rfl] at hevaluating
          cases hevaluating
        obtain ⟨hgoes, hended, -⟩ := h.evaluateSelf hre hB rfl
        exact (hgoes.follows hgone).trans
          (hgoes.docile.passOn hre htame fun hw => absurd hw hended)
      · have heval := h.evaluateOther hre hi
        rw [hinvalid] at hother
        exact heval.trans (heval.docile.passOn hre htame fun _ => (hother hi).not_writes rfl)

theorem Docile.invalidate (h : Docile b onInvalid w) (i : Nat) (change : Change) :
    Follows b onInvalid w (w.invalidate re i change) := by
  have hraised := h.raise i
  unfold Session.invalidate
  dsimp only
  split
  · exact hraised
  · next B hB =>
      split
      · exact hraised
      · next hidle =>
          exact hraised.trans (hraised.docile.reactToInvalidation hre hB
            (fun _ => Bool.eq_false_iff.mpr hidle) change)

theorem Docile.receive (h : Docile b onInvalid w) (event : Event) {sink : Sink}
    (htame : sink.Tame) (hapart : sink.Apart onInvalid) :
    Follows b onInvalid w (w.receive re event sink) := by
  cases sink with
  | script id actions =>
      have hnoted : Follows b onInvalid w
          (w.note (.event id (w.emitterOrdinal id event.emitter) event.change)) :=
        h.note fun _ => not_writes nofun nofun
      exact hnoted.trans (hnoted.docile.runScript hre htame)
  | record r => exact h.record (fun _ => hapart r rfl) event.change
  | binding i =>
      unfold Session.receive
      dsimp only
      split
      · exact Follows.keeping h _ ((h.repinned _).docile.invalidate hre i event.change)
      · exact Follows.refl h

theorem Docile.notify (h : Docile b onInvalid w) (token : Token) (event : Event) :
    Follows b onInvalid w (w.notify re token event).1 := by
  unfold Session.notify
  split
  · unfold Session.deliver
    split
    · exact Follows.refl h
    · next c hc =>
        obtain ⟨htame, hapart⟩ := h.sinks _ c hc
        exact Follows.keeping h _ ((h.repinned _).docile.receive hre event htame hapart)
  · exact Follows.refl h

theorem Docile.react (h : Docile b onInvalid w) (change : Change) {reaction : Reaction}
    (htame : reaction.Tame) : Follows b onInvalid w (w.react re change reaction) := by
  cases reaction with
  | script id actions =>
      have hnoted : Follows b onInvalid w (w.note (.change id change)) :=
        h.note fun _ => not_writes nofun nofun
      exact hnoted.trans (hnoted.docile.runScript hre htame)
  | forward listener token => exact h.notify hre token ⟨listener, change⟩

/-- Observers react in turn. -/
theorem Docile.reactAll (change : Change) : ∀ {obs : List (Observer Reaction)} {w : Session},
    Docile b onInvalid w → (∀ ob ∈ obs, ob.action.Tame) →
      Follows b onInvalid w (w.reactAll re change obs)
  | [], _, h, _ => Follows.refl h
  | first :: rest, w, h, hobs => by
      let pins := (first :: rest).map fun ob => Pin.subscription ob.subscription
      have hreact := (h.repinned (pins ++ w.pins)).docile.react hre change
        (hobs first List.mem_cons_self)
      have hfirst := Follows.keeping h pins hreact
      exact hfirst.trans (reactAll change hfirst.docile
        fun ob hob => hobs ob (List.mem_cons_of_mem _ hob))

/-- **A change is reported** to the observers that it reaches. -/
theorem Docile.dispatch (h : Docile b onInvalid w) (id : Nat) (change : Change) :
    Follows b onInvalid w (w.dispatch re (.object id) change) := by
  have hpruned : Follows b onInvalid w (w.pruneAt id) :=
    h.modifyObject (f := fun cell => { cell with
      observers := Observers.prune (fun s => s ∈ w.heldSubscriptions) cell.observers })
      (fun _ => rfl) (fun _ hobs ob hob => hobs ob (List.mem_of_mem_filter hob)) id
  have hobs : ∀ ob ∈ w.reached id change.attr, ob.action.Tame := by
    intro ob hob
    obtain ⟨-, -, cell, hcell, hmem⟩ := mem_reached.mp hob
    exact (h.cells id cell hcell).2 ob hmem
  rw [dispatch_eq]
  exact hpruned.trans (Follows.keeping hpruned.docile _
    ((hpruned.docile.repinned _).docile.reactAll hre change hobs))

theorem Docile.assign (h : Docile b onInvalid w) (o : ObjectRef) (schema : Schema) (attr : String)
    (v : Value) : Follows b onInvalid w (w.assign re o schema attr v).1 := by
  have hput : Follows b onInvalid w (w.putAt o attr v) :=
    h.modifyObject (f := fun cell => { cell with attrs := Assoc.put attr v cell.attrs })
      (fun _ => rfl) (fun _ hobs => hobs) o.id
  by_cases hreports : w.Reports o schema attr v
  · rw [assign_of_reports re hreports]
    exact hput.trans (hput.docile.dispatch hre o.id _)
  · rcases assign_of_not_reports re hreports with heq | heq
    · rw [heq]
      exact Follows.refl h
    · rw [heq]
      exact hput

end Notification

section Commands

/-- An assignment by name. -/
theorem setAttr_ok {re : Reentry} {w w' : Session} {id attr : String} {value : Literal}
    {reply : Reply} (h : w.setAttr re id attr value = .ok (w', reply)) :
    ∃ o schema v, named w.names.objects id = .ok o ∧ w.schema? o = some schema ∧
      w.literal value = .ok v ∧ w' = w.assigned re o schema attr v := by
  obtain ⟨o, hname, h⟩ := bind_eq_ok h
  cases hschema : w.schema? o with
  | none => simp only [hschema] at h; cases h
  | some schema =>
      simp only [hschema] at h
      obtain ⟨v, hvalue, h⟩ := bind_eq_ok h
      refine ⟨o, schema, v, hname, hschema, hvalue, ?_⟩
      unfold assigned
      generalize w.holding (pinValues [.object o, v]) (assign re o schema attr v) = result at h
      obtain ⟨u, answer⟩ := result
      cases answer with
      | ok _ => cases h; rfl
      | error e => cases h

/-- A change that a source reports. -/
theorem emitChange_ok {re : Reentry} {w w' : Session} {id attr : String} {old new : Literal}
    {reply : Reply} (h : w.emitChange re id attr old new = .ok (w', reply)) :
    ∃ o change, w' = w.dispatch re (.object o) change := by
  obtain ⟨o, -, h⟩ := bind_eq_ok h
  obtain ⟨u, -, h⟩ := bind_eq_ok h
  obtain ⟨v, -, h⟩ := bind_eq_ok h
  cases h
  exact ⟨o.id, _, rfl⟩

/-- An evaluation by name. -/
theorem evaluateNamed_ok {re : Reentry} {w w' : Session} {id : String} {reply : Reply}
    (h : w.evaluateNamed re id = .ok (w', reply)) :
    ∃ b B u r, Assoc.get? id w.names.bindings = some b ∧ w.bindings[b]? = some B ∧
      evaluateBinding re b { w with pins := [.binding b] ++ w.pins } = (u, r) ∧
      w' = { u with pins := w.pins } ∧ reply = .result r := by
  obtain ⟨⟨b, B⟩, hB, h⟩ := bind_eq_ok h
  obtain ⟨hb, hB⟩ := bindingNamed_ok hB
  cases h
  exact ⟨b, B, _, _, hb, hB, rfl, rfl, rfl⟩

/-- What only answers leaves the session as it is. -/
theorem getAttr_ok {w w' : Session} {id attr : String} {reply : Reply}
    (h : w.getAttr id attr = .ok (w', reply)) : w' = w := by
  obtain ⟨o, -, h⟩ := bind_eq_ok h
  cases h
  rfl

theorem describeAttr_ok {w w' : Session} {id attr : String} {reply : Reply}
    (h : w.describeAttr id attr = .ok (w', reply)) : w' = w := by
  obtain ⟨o, -, h⟩ := bind_eq_ok h
  cases h
  rfl

theorem viewBinding_ok {w w' : Session} {id : String} {reply : Reply}
    (h : w.viewBinding id = .ok (w', reply)) : w' = w := by
  obtain ⟨B, -, h⟩ := bind_eq_ok h
  cases h
  rfl

/-- The behavior of a native function changes nothing, unless it sets an attribute of a model. -/
theorem behave_cases (re : Reentry) (behavior : Behavior) (args : List Value) (kwargs : Kwargs)
    (w : Session) : (w.behave re behavior args kwargs).1 = w ∨ ∃ o schema attr v,
      (w.behave re behavior args kwargs).1 = (w.assign re o schema attr v).1 := by
  cases behavior with
  | set =>
      unfold behave
      dsimp only
      split
      · next o attr v =>
          unfold setFromCall
          split
          · exact Or.inl rfl
          · next schema _ =>
              split
              · refine Or.inr ⟨o, schema, attr, v, ?_⟩
                split
                · next heq => rw [heq]
                · next heq => rw [heq]
              · exact Or.inl rfl
      · exact Or.inl rfl
  | const l =>
      unfold behave
      dsimp only
      split <;> exact Or.inl rfl
  | _ => exact Or.inl rfl

variable {re : Reentry} {b : Nat} {onInvalid : Invalidation} {w w' : Session} {reply : Reply}

theorem Docile.prunePolicies (h : Docile b onInvalid w) : ∀ ps : List Nat,
    Follows b onInvalid w (Session.prunePolicies ps w).1 := by
  intro ps
  induction ps generalizing w with
  | nil => exact Follows.refl h
  | cons p ps ih =>
      have hfirst : Follows b onInvalid w (w.prunePolicy p).1 := by
        unfold prunePolicy
        split
        · split
          · exact Follows.refl h
          · exact h.withPolicies _
        · exact Follows.refl h
      exact hfirst.trans (ih hfirst.docile)

variable (hre : ∀ (entry : Entry) (w : Session), entry.Tame → Docile b onInvalid w →
    Follows b onInvalid w (re entry w).1)
include hre

/-- A tame command that does not evaluate the binding. -/
theorem Docile.attempt (h : Docile b onInvalid w) {c : Command} (hc : c.Tame)
    (hother : ∀ id, c = .evaluate id → Assoc.get? id w.names.bindings ≠ some b)
    (hattempt : Session.attempt re w c = .ok (w', reply)) : Follows b onInvalid w w' := by
  cases c with
  | alive id =>
      cases hattempt
      exact Follows.refl h
  | set id attr value =>
      obtain ⟨o, schema, v, -, -, -, rfl⟩ := setAttr_ok hattempt
      exact Follows.keeping h _ ((h.repinned _).docile.assign hre o schema attr v)
  | get id attr =>
      rw [getAttr_ok hattempt]
      exact Follows.refl h
  | describe id attr =>
      rw [describeAttr_ok hattempt]
      exact Follows.refl h
  | emit id attr old new =>
      obtain ⟨o, change, rfl⟩ := emitChange_ok hattempt
      exact h.dispatch hre o change
  | evaluate id =>
      obtain ⟨i, B, u, r, hid, -, heval, rfl, -⟩ := evaluateNamed_ok hattempt
      have hi : i ≠ b := by
        rintro rfl
        exact hother id rfl hid
      have hevaluated := (h.repinned ([.binding i] ++ w.pins)).docile.evaluateOther hre hi
      rw [heval] at hevaluated
      exact Follows.keeping h _ hevaluated
  | reset id =>
      obtain ⟨⟨i, B⟩, -, hattempt⟩ := bind_eq_ok hattempt
      cases hattempt
      have hreset := h.resetChannel B.channel
      exact hreset.trans (hreset.docile.raise i)
  | notifierReset id =>
      obtain ⟨⟨i, B⟩, -, hattempt⟩ := bind_eq_ok hattempt
      cases hattempt
      exact h.resetChannel B.channel
  | prune id =>
      obtain ⟨⟨i, B⟩, -, hattempt⟩ := bind_eq_ok hattempt
      cases hattempt
      exact h.prunePolicies B.policies
  | binding id =>
      rw [viewBinding_ok hattempt]
      exact Follows.refl h
  | _ => exact hc.elim

/-- An evaluation of the binding by its name has returned when it is written down. -/
theorem Docile.evaluateNamed (h : Docile b onInvalid w) {id : String}
    (hid : Assoc.get? id w.names.bindings = some b)
    (hnamed : w.evaluateNamed re id = .ok (w', reply)) :
    Follows b onInvalid w (w'.note (.act (.evaluate id) reply)) := by
  obtain ⟨i, B, u, r, hi, hB, heval, rfl, rfl⟩ := evaluateNamed_ok hnamed
  obtain rfl := Option.some.inj (hi.symm.trans hid)
  obtain ⟨hgoes, -, hthen⟩ := (h.repinned ([.binding i] ++ w.pins)).docile.evaluateSelf hre hB heval
  let e : LogEntry := .act (.evaluate id) (.result r)
  have hdocile := hgoes.docile
  refine ⟨⟨⟨hdocile.natives, hdocile.cells, hdocile.sinks, hdocile.callbacks, hdocile.self⟩,
    hgoes.names, hgoes.log.trans (List.suffix_cons e _)⟩, ?_⟩
  intro _ entries hentries
  obtain ⟨first, hfirst⟩ := hgoes.log
  obtain rfl : entries = e :: first := by
    have hwritten : e :: u.log = entries ++ w.log := hentries
    rw [← hfirst, ← List.cons_append] at hwritten
    exact (List.append_cancel_right hwritten).symm
  obtain ⟨hprompted, -⟩ := hthen first hfirst.symm
  exact ⟨⟨fun hwrites => absurd hwrites (not_writes nofun nofun), hprompted⟩,
    Or.inl ⟨id, _, List.mem_cons_self, hid⟩⟩

/-- **A command of a script**, written down after it was carried out. -/
theorem Docile.act (h : Docile b onInvalid w) {c : Command} (hc : c.Tame) :
    Follows b onInvalid w ((w.perform re c).1.note (.act c (w.perform re c).2)) := by
  have hact : ∀ {w : Session} {reply : Reply}, UnderWay b w → ¬ onInvalid.Writes (.act c reply) :=
    fun _ => not_writes nofun nofun
  unfold perform
  cases hattempt : Session.attempt re w c with
  | error f => exact h.note hact
  | ok after =>
      obtain ⟨w', reply⟩ := after
      by_cases hself : ∃ id, c = .evaluate id ∧ Assoc.get? id w.names.bindings = some b
      · obtain ⟨id, rfl, hid⟩ := hself
        exact h.evaluateNamed hre hid hattempt
      · have hother : ∀ id, c = .evaluate id → Assoc.get? id w.names.bindings ≠ some b :=
          fun id hid hb => hself ⟨id, hid, hb⟩
        have hdone := h.attempt hre hc hother hattempt
        exact hdone.trans (hdone.docile.note hact)

/-- A script, as long as there are actions left. -/
theorem Docile.runActions : ∀ {actions : Script} {w : Session}, Docile b onInvalid w →
    TameScript actions → Follows b onInvalid w (w.runActions re actions)
  | [], _, h, _ => Follows.refl h
  | c :: rest, w, h, hactions => by
      rw [Session.runActions]
      split
      · exact h.note fun _ => not_writes (by rintro _ _ _ ⟨⟩) (by rintro _ _ ⟨⟩)
      · have hspent : Follows b onInvalid w { w with actionsLeft := w.actionsLeft - 1 } :=
          Follows.of_still ⟨h.natives, h.cells, h.sinks, h.callbacks, h.self⟩ rfl rfl rfl rfl
        have hfirst := hspent.docile.act hre (hactions c List.mem_cons_self)
        exact (hspent.trans hfirst).trans (runActions hfirst.docile
          fun c' hc' => hactions c' (List.mem_cons_of_mem _ hc'))

/-- A native function may set an attribute after its script. -/
theorem Docile.behave (h : Docile b onInvalid w) (behavior : Behavior) (args : List Value)
    (kwargs : Kwargs) : Follows b onInvalid w (w.behave re behavior args kwargs).1 := by
  rcases behave_cases re behavior args kwargs w with heq | ⟨o, schema, attr, v, heq⟩
  · rw [heq]
    exact Follows.refl h
  · rw [heq]
    exact h.assign hre o schema attr v

theorem Docile.carryOut (h : Docile b onInvalid w) {entry : Entry} (hentry : entry.Tame) :
    Follows b onInvalid w (w.carryOut re entry).1 := by
  cases entry with
  | script actions => exact h.runActions hre hentry
  | native name draft args kwargs =>
      have hnoted := h.note (e := .call name args kwargs) fun _ => not_writes nofun nofun
      have hscript := hnoted.docile.runActions hre hentry
      exact (hnoted.trans hscript).trans (hscript.docile.behave hre draft.behavior args kwargs)

end Commands

section Depth

variable {b : Nat} {onInvalid : Invalidation}

/-- **Scripts and native calls**, however deep they are nested. -/
theorem enter_follows : ∀ (depth : Nat) (entry : Entry) (w : Session), entry.Tame →
    Docile b onInvalid w → Follows b onInvalid w (enter depth entry w).1
  | 0, _, _, _, h =>
      Follows.of_still ⟨h.natives, h.cells, h.sinks, h.callbacks, h.self⟩ rfl rfl rfl rfl
  | depth + 1, _, _, hentry, h => h.carryOut (enter_follows depth) hentry

/-- **The callback of a binding under evaluation is silent until a nested evaluation has
returned.**  Evaluate a binding in a session in which native functions, observers and callbacks
may set attributes and evaluate, reset and read any bindings, nested to any depth.  Whatever the
binding's callback writes to the log meanwhile is written after an evaluation of the same binding
has returned that was begun meanwhile.  If there was none, the callback has not even been
recorded, and the evaluation has changed nothing about the binding but its result and whether it
is dirty. -/
theorem silent_until_returned {depth : Nat} {w w' : Session} {B : Binding} {r : Outcome}
    (hB : w.bindings[b]? = some B) (hdocile : Docile b B.onInvalid w)
    (heval : w.evaluateBinding (enter depth) b = (w', r)) :
    ∃ entries, w'.log = entries ++ w.log ∧
      (∀ later e earlier, entries = later ++ e :: earlier → B.onInvalid.Writes e →
        Returned w.names b earlier) ∧
      (Returned w.names b entries ∨
        (∃ dirty, w'.bindings[b]?
          = some { B with dirty := dirty, evaluating := false, last := some r }) ∧
        ∀ recorder, B.onInvalid = .record recorder →
          w'.recorders[recorder]? = w.recorders[recorder]?) := by
  obtain ⟨hgoes, -, hthen⟩ := hdocile.evaluateSelf (enter_follows depth) hB heval
  obtain ⟨entries, hentries⟩ := hgoes.log
  obtain ⟨hprompted, hrest⟩ := hthen entries hentries.symm
  refine ⟨entries, hentries.symm, ?_, hrest⟩
  rintro later e earlier rfl hwrites
  exact hprompted.split hwrites

end Depth

section Gate

/-- A model. -/
def gate : ObjectRef := ⟨0, 0, "m", "Gate"⟩

def gateSchema : Schema := ((Schema.empty "Gate").observable "x").observable "y"

/-- What the native function does: it closes the gate, evaluates the binding, which comes past the
closed gate without calling the function again, and then changes what that has read. -/
def gateActions : Script :=
  [.set "m" "x" (.bool false), .evaluate "b", .set "m" "y" (.int 2)]

/-- A session with the model and the native function. -/
def gateSession : Session where
  objects := [⟨gate, .model gateSchema, [("x", .bool true), ("y", .int 1)], []⟩]
  natives := [.host ⟨.sum, gateActions⟩]
  names := { objects := [("m", gate)] }
  scope := [("f", .native ⟨0, "f"⟩), ("m", .object gate)]
  patience := 100
  actionsLeft := 100

/-- Calls the function if `x` of the model holds, and returns `y` of the model. -/
def gateOps : List Instruction :=
  [.loadName "m", .loadAttr "x", .jump .popIfFalse ⟨0⟩, .loadName "f", .call .plain 0, .popTop,
    .setLabel ⟨0⟩, .loadName "m", .loadAttr "y", .returnValue]

/-- The session with a binding of that code. -/
def boundGate : Session :=
  (gateSession.perform (enter 1)
    (.bindingNew "b" ⟨.ops "gate" (gateOps.map OpDraft.plain), [], {}⟩ (.script []))).1

theorem boundGate_eq :
    boundGate.objects = gateSession.objects ∧
      boundGate.natives = [.host ⟨.sum, gateActions⟩, .attributeSite (.policy 0),
        .callSite (.policy 1)] ∧
      boundGate.channels = [⟨0, .binding 0⟩] ∧
      boundGate.bindings.map Binding.onInvalid = [.script "b" []] ∧
      boundGate.names.bindings = [("b", 0)] ∧ boundGate.log = [] := by
  cbv

theorem exists_binding_boundGate :
    ∃ B, boundGate.bindings[0]? = some B ∧ B.onInvalid = .script "b" [] := by
  obtain ⟨-, -, -, hbindings, -, -⟩ := boundGate_eq
  have hfirst : (boundGate.bindings.map Binding.onInvalid)[0]? = some (.script "b" []) := by
    rw [hbindings]
    rfl
  rw [List.getElem?_map] at hfirst
  exact Option.map_eq_some_iff.mp hfirst

theorem docile_boundGate : Docile 0 (.script "b" []) boundGate := by
  obtain ⟨hobjects, hnatives, hchannels, hbindings, -, -⟩ := boundGate_eq
  have hcallback : ∀ i B, boundGate.bindings[i]? = some B → i = 0 ∧ B.onInvalid = .script "b" [] := by
    intro i B hB
    have hi : (boundGate.bindings.map Binding.onInvalid)[i]? = some B.onInvalid := by
      rw [List.getElem?_map, hB, Option.map_some]
    rw [hbindings] at hi
    obtain ⟨hlt, heq⟩ := List.getElem?_eq_some_iff.mp hi
    obtain rfl : i = 0 := Nat.lt_one_iff.mp hlt
    exact ⟨rfl, heq.symm⟩
  constructor
  · intro i draft hdraft
    rw [hnatives] at hdraft
    have hmem := List.mem_of_getElem? hdraft
    simp only [List.mem_cons, NativeRole.host.injEq, reduceCtorEq, List.not_mem_nil, or_self,
      or_false] at hmem
    subst hmem
    intro c hc
    simp only [gateActions, List.mem_cons, List.not_mem_nil, or_false] at hc
    rcases hc with rfl | rfl | rfl <;> trivial
  · intro i cell hcell
    rw [hobjects] at hcell
    obtain rfl := List.mem_singleton.mp (List.mem_of_getElem? hcell)
    exact ⟨trivial, fun ob hob => absurd hob List.not_mem_nil⟩
  · intro i c hc
    rw [hchannels] at hc
    obtain rfl := List.mem_singleton.mp (List.mem_of_getElem? hc)
    exact ⟨trivial, nofun⟩
  · intro i B hB
    obtain ⟨rfl, hinvalid⟩ := hcallback i B hB
    rw [hinvalid]
    exact ⟨fun c hc => absurd hc List.not_mem_nil, fun hne => absurd rfl hne⟩
  · obtain ⟨B, hB⟩ := exists_binding_boundGate
    exact ⟨B, hB⟩

theorem log_boundGate : (boundGate.evaluateBinding (enter 4) 0).1.log =
    [.act (.set "m" "y" (.int 2)) .nothing,
      .invalid "b" true ⟨gate, "y", .int 1, .int 2⟩,
      .act (.evaluate "b") (.result (.ok (.int 1))),
      .act (.set "m" "x" (.bool false)) .nothing,
      .call "f" [] []] := by
  cbv

/-- **The callback may run inside of an evaluation**: here a nested evaluation has returned before a
change reaches the binding. -/
theorem callback_within_evaluation :
    ¬ ∀ (depth b : Nat) (w : Session) (B : Binding), w.bindings[b]? = some B →
      Docile b B.onInvalid w → ∀ entries, (w.evaluateBinding (enter depth) b).1.log
        = entries ++ w.log → ∀ e ∈ entries, ¬ B.onInvalid.Writes e := by
  intro hsilent
  obtain ⟨B, hB, hinvalid⟩ := exists_binding_boundGate
  obtain ⟨-, -, -, -, -, hlog⟩ := boundGate_eq
  have hlater := hsilent 4 0 boundGate B hB (hinvalid ▸ docile_boundGate) _
    (log_boundGate.trans (by rw [hlog, List.append_nil]))
  refine hlater (.invalid "b" true ⟨gate, "y", .int 1, .int 2⟩)
    (List.mem_cons_of_mem _ List.mem_cons_self) ?_
  rw [hinvalid]
  rfl

/-- In the session of the gate the callback runs once, after the nested evaluation has returned. -/
theorem silent_until_returned_gate : Docile 0 (.script "b" []) boundGate ∧
    ∃ later earlier, (boundGate.evaluateBinding (enter 4) 0).1.log
      = later ++ .invalid "b" true ⟨gate, "y", .int 1, .int 2⟩ :: earlier ∧
    Returned boundGate.names 0 earlier := by
  obtain ⟨B, hB, hinvalid⟩ := exists_binding_boundGate
  obtain ⟨-, -, -, -, -, hlog⟩ := boundGate_eq
  obtain ⟨entries, hentries, hprompted, -⟩ :=
    @silent_until_returned 0 4 boundGate _ B _ hB (hinvalid ▸ docile_boundGate) rfl
  rw [hlog, List.append_nil] at hentries
  have hsplit : entries = [.act (.set "m" "y" (.int 2)) .nothing]
      ++ .invalid "b" true ⟨gate, "y", .int 1, .int 2⟩ ::
        [.act (.evaluate "b") (.result (.ok (.int 1))),
          .act (.set "m" "x" (.bool false)) .nothing, .call "f" [] []] :=
    hentries.symm.trans log_boundGate
  have hreturned := hprompted _ _ _ hsplit (by rw [hinvalid]; rfl)
  exact ⟨docile_boundGate, _, _, hentries.trans hsplit, hreturned⟩

end Gate

end Session
end TrackedExpr
