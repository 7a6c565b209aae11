import TrackedExpr.Proofs.Attention
import TrackedExpr.Proofs.Freshness

/-!
# Dealings with a binding

A binding is evaluated, reset and pruned, and attributes of models are set, in any
order.  All of this comes down to what may be done around a binding, if what native
functions and callbacks do comes down to it.

**Definitions.**
* `callsOut`: the native calls of an evaluation other than its side-calls;
* `Responds`: observers that react in ways which a binding can stand;
* `Dealings`: evaluations, resets, prunings and assignments, with the number of resets;
* `Ready`: a session in which code can be bound.

**Results.**
* `Tended.evaluate`, `Tended.assigned`, `Tended.prunePolicies`: each of them;
* `Responds.of_idle`, `Dealings.set_of_idle`: callbacks that do nothing leave a binding alone;
* `Dealings.tended`: a binding stays tended through all dealings;
* `Ready.tended`: a new binding is tended.
-/

namespace TrackedExpr
namespace Session

section Pieces

variable {k : Wiring} {n m : Nat} {w w' w'' : Session} {B : Binding} {id : String} {b : Nat}

theorem Handles.before (h : Untouched k w w') (h' : Handles k w' w'' n) : Handles k w w'' n := by
  have hboth := (Handles.elsewhere h).trans h'
  rwa [Nat.zero_add] at hboth

theorem Handles.after (h : Handles k w w' n) (h' : Untouched k w' w'') : Handles k w w'' n :=
  h.trans (Handles.elsewhere h')

/-- Whatever is done while more is held on to. -/
theorem Handles.keeping {pins : List Pin} (hw : Tended k n w)
    (h : Handles k { w with pins := pins ++ w.pins } w' m) :
    Handles k w { w' with pins := w.pins } m := by
  have hpinned := hw.repinned (pins ++ w.pins)
  obtain ⟨hw', -⟩ := h.tended (hpinned.tended hw)
  exact (h.before hpinned).after (hw'.repinned w.pins)

/-- A binding with other flags or another result. -/
theorem Furnished.modifyBinding (h : Furnished k w) {f : Binding → Binding}
    (hfits : ∀ B : Binding, B.Fits k → (f B).Fits k) (b : Nat) :
    Untouched k w (w.modifyBinding b f) := by
  refine ⟨⟨h.numbered, h.home, h.kinds, h.stock, ?_, h.loads, h.calls⟩, Lasts.refl w, rfl,
    fun _ _ => rfl⟩
  obtain ⟨B, hB, hB'⟩ := h.binding
  by_cases hb : b = k.binding
  · subst hb
    exact ⟨f B, by simp [Session.modifyBinding, hB], hfits B hB'⟩
  · exact ⟨B, (List.getElem?_modify_ne f w.bindings hb).trans hB, hB'⟩

theorem Furnished.flagged (h : Furnished k w) (last : Binding → Option Outcome)
    (dirty evaluating : Binding → Bool) (b : Nat) :
    Untouched k w (w.modifyBinding b fun B =>
      { B with last := last B, dirty := dirty B, evaluating := evaluating B }) := by
  apply h.modifyBinding
  exact fun B hB =>
    ⟨hB.plain, hB.instrumented, hB.scope, hB.channel, hB.attributes, hB.getattr⟩

theorem Furnished.fits (h : Furnished k w) (hB : w.bindings[k.binding]? = some B) : B.Fits k := by
  obtain ⟨B', hB', hfits⟩ := h.binding
  obtain rfl := Option.some.inj (hB.symm.trans hB')
  exact hfits

theorem bindingNamed_ok (h : w.bindingNamed id = .ok (b, B)) :
    Assoc.get? id w.names.bindings = some b ∧ w.bindings[b]? = some B := by
  unfold bindingNamed named at h
  cases hid : Assoc.get? id w.names.bindings with
  | none =>
      rw [hid] at h
      cases h
  | some c =>
      rw [hid] at h
      simp only [bind, Except.bind] at h
      cases hB : w.bindings[c]? with
      | none =>
          rw [hB] at h
          cases h
      | some C =>
          rw [hB] at h
          cases h
          exact ⟨rfl, hB⟩

/-- Callbacks that do nothing leave a binding alone. -/
theorem Stirs.untouched (h : Stirs w w') (hw : Furnished k w) : Untouched k w w' := by
  have hbinding := h.fits hw.binding
  rw [h.rest]
  exact ⟨⟨hw.numbered, hw.home, hw.kinds, hw.stock, hbinding, hw.loads, hw.calls⟩, Lasts.refl w,
    rfl, fun _ _ => rfl⟩

/-- A native function that runs no commands and assigns nothing is written down and answers. -/
theorem callNative_quiet {call : NativeCall} {behavior : Behavior}
    (hnative : w.natives[call.function.id]? = some (.host ⟨behavior, []⟩))
    (hset : behavior ≠ .set) (depth : Nat) : (callNative (enter (depth + 1)) call w).1
      = w.note (.call call.function.name call.args call.kwargs) := by
  simp only [callNative, holding, hnative, enter, carryOut, runActions]
  cases behavior with
  | set => exact absurd rfl hset
  | const l =>
      simp only [behave]
      split <;> rfl
  | _ => rfl

/-- Such a function leaves a binding alone. -/
theorem Furnished.untouched_native (h : Furnished k w) {call : NativeCall} {behavior : Behavior}
    (hnative : w.natives[call.function.id]? = some (.host ⟨behavior, []⟩))
    (hset : behavior ≠ .set) (depth : Nat) :
    Untouched k w (callNative (enter (depth + 1)) call w).1 := by
  rw [callNative_quiet hnative hset depth]
  exact ⟨h.beside w.names w.pins _ w.recorders, Lasts.refl w, rfl, fun _ _ => rfl⟩

end Pieces

section Evaluations

variable {re : Reentry} {k : Wiring} {verify : Bool} {n : Nat} {w w' : Session} {B : Binding}
  {id : String} {r : Outcome} {reply : Reply} {resets : NativeCall × Session → Nat}

/-- The native calls that an evaluation of a binding makes, other than its side-calls, each with
the session in which it is made. -/
def callsOut (re : Reentry) (k : Wiring) (B : Binding) (w : Session) :
    List (NativeCall × Session) :=
  (host re).nativeCalls k.Outer B.code B.scope w.patience Frame.start (w.beginning k.binding B)

/-- An evaluation begins with a reset. -/
theorem Tended.beginning (h : Tended k n w) (hB : w.bindings[k.binding]? = some B) :
    Tended k n { w with pins := [.binding k.binding] ++ w.pins } ∧
      Untouched k (resetChannel { w with pins := [.binding k.binding] ++ w.pins } k.channel)
        (w.beginning k.binding B) := by
  have hpinned := (h.repinned ([.binding k.binding] ++ w.pins)).tended h
  have hflagged := hpinned.reset.flagged Binding.last (fun _ => false) (fun _ => true) k.binding
  have hbegun := hflagged.trans ((hflagged.tended hpinned.reset).repinned
    (pinValues (B.scope.map Prod.snd ++ B.code.constants)
      ++ ([.binding k.binding] ++ w.pins)))
  rw [Session.beginning, (h.fits hB).channel]
  exact ⟨hpinned, hbegun⟩

/-- **An evaluation** resets the channel once, and then does what its run does. -/
theorem Tended.evaluate
    (hinstrumented : instrument verify k.plain (k.monitors.map StockMonitor.monitor) = .ok k.code)
    (h : Tended k n w) (hB : w.bindings[k.binding]? = some B)
    (hr : (w.evaluation re k.binding B).outcome = some r)
    (hbears : ∀ e ∈ w.callsOut re k B, Bears re k e (resets e)) :
    Stretch k (Spares re k (w.callsOut re k B)) ((w.callsOut re k B).map resets).sum
        (fun p => ((host re).visited B.code B.scope w.patience Frame.start
          (w.beginning k.binding B)).filterMap (k.shown? p B.code))
        (w.beginning k.binding B) (w.evaluation re k.binding B).state ∧
      Untouched k (w.evaluation re k.binding B).state
        (concluded k.binding r w (w.evaluation re k.binding B).state) := by
  have hfits := h.fits hB
  obtain ⟨hpinned, hbegun⟩ := h.beginning hB
  have htended := hbegun.tended hpinned.reset
  have hplace : Frame.start.relocate (k.insertions verify) = Frame.start := rfl
  unfold evaluation at hr ⊢
  unfold callsOut at hbears ⊢
  rw [hfits.code, hfits.scope] at hr hbears ⊢
  have hrun := htended.run hinstrumented re resets w.patience Frame.Reachable.start
    (fun v hv => absurd hv List.not_mem_nil) (hplace ▸ hr) (hplace ▸ hbears)
  rw [hplace] at hrun
  refine ⟨hrun, ?_⟩
  obtain ⟨hended, -⟩ := hrun.handles.tended htended
  have hunpinned := hended.repinned w.pins
  exact hunpinned.trans ((hunpinned.tended hended).flagged (fun _ => some r) Binding.dirty
    (fun _ => false) k.binding)

/-- An evaluation is one of the things that may be done around a binding. -/
theorem Tended.handles_evaluate
    (hinstrumented : instrument verify k.plain (k.monitors.map StockMonitor.monitor) = .ok k.code)
    (h : Tended k n w) (hB : w.bindings[k.binding]? = some B)
    (hr : (w.evaluation re k.binding B).outcome = some r)
    (hbears : ∀ e ∈ w.callsOut re k B, Bears re k e (resets e)) :
    Handles k w (concluded k.binding r w (w.evaluation re k.binding B).state)
      (1 + ((w.callsOut re k B).map resets).sum) := by
  obtain ⟨hpinned, hbegun⟩ := h.beginning hB
  obtain ⟨hrun, hended⟩ := h.evaluate hinstrumented hB hr hbears
  have hreset : Handles k w (w.beginning k.binding B) 1 :=
    (Handles.reset.after hbegun).before (h.repinned _)
  exact (hreset.trans hrun.handles).after hended

end Evaluations

section Assignments

variable {re : Reentry} {k : Wiring} {n m i : Nat} {w : Session} {o : ObjectRef} {attr : String}
  {v : Value} {change : Change} {obs : List (Observer Reaction)}

theorem Furnished.putAt (h : Furnished k w) (hv : v.Among w.HasObject k.Outer) :
    Untouched k w (w.putAt o attr v) := by
  have hshapes : SameShapes w.objects (w.putAt o attr v).objects :=
    SameShapes.modify _ _ fun _ => rfl
  have hlasts : Lasts w (w.putAt o attr v) := hshapes.lasts
  have hback : Lasts (w.putAt o attr v) w := hshapes.symm.lasts
  refine ⟨⟨hshapes.numbered h.numbered, fun x hx => h.home x (hback.hasObject hx), ?_, ?_,
    h.binding, h.loads, h.calls⟩, hlasts, rfl, fun _ _ => rfl⟩
  · intro i cell' hcell'
    obtain ⟨cell, hcell, -, hkind⟩ := hback i cell' hcell'
    rw [← hkind]
    exact h.kinds i cell hcell
  · refine h.stock.mono (fun x hx => hlasts.hasObject hx) ?_
    intro x a u hu
    have hmade : u.Among w.HasObject k.Outer := by
      by_cases hsame : x.id = o.id ∧ a = attr
      · obtain ⟨hid, rfl⟩ := hsame
        have hobject : w.object? o ≠ none := by
          intro hnone
          have hgone : (w.putAt o a v).attribute? x a = none := by
            rw [attribute?, object?, hid, Session.putAt, modifyObject, List.getElem?_modify_eq,
              ← object?, hnone]
            rfl
          rw [hgone] at hu
          cases hu
        obtain rfl := Option.some.inj ((attribute?_putAt_self hid hobject).symm.trans hu)
        exact hv
      · rw [attribute?_putAt_ne (not_and_or.mp hsame)] at hu
        exact h.stock.read x a u hu
    exact hmade.mono (fun x hx => hlasts.hasObject hx) fun _ hf => hf

theorem Furnished.pruneAt (h : Furnished k w) (id : Nat) : Untouched k w (w.pruneAt id) := by
  have hshapes : SameShapes w.objects (w.pruneAt id).objects :=
    SameShapes.modify _ _ fun _ => rfl
  have hattrs : (w.pruneAt id).attribute? = w.attribute? := by
    funext x a
    simp only [attribute?, object?, Session.pruneAt, modifyObservers, modifyObject,
      List.getElem?_modify]
    cases w.objects[x.id]? with
    | none => rfl
    | some cell => by_cases hx : id = x.id <;> simp [hx]
  exact ⟨h.reshaped hshapes hattrs w.policies w.subscriptions, hshapes.lasts, rfl, fun _ _ => rfl⟩

/-- Observers that react in turn to a change, each in a way that a binding can stand, with the
number of resets. -/
inductive Responds (re : Reentry) (k : Wiring) (change : Change) :
    List (Observer Reaction) → Session → Nat → Prop
  | nil {w : Session} : Responds re k change [] w 0
  | cons {first : Observer Reaction} {rest : List (Observer Reaction)} {w : Session}
      {pins : List Pin} {n m : Nat} :
      pins = (first :: rest).map (fun ob => Pin.subscription ob.subscription) →
      (∀ {i : Nat}, Tended k i { w with pins := pins ++ w.pins } →
        Handles k { w with pins := pins ++ w.pins }
          (react re change { w with pins := pins ++ w.pins } first.action) n) →
      Responds re k change rest (w.keeping pins fun w => w.react re change first.action) m →
      Responds re k change (first :: rest) w (n + m)

theorem Responds.handles (h : Responds re k change obs w i) : ∀ {n : Nat}, Tended k n w →
    Handles k w (w.reactAll re change obs) i := by
  induction h with
  | nil => exact fun hw => Handles.elsewhere (Untouched.refl hw.toFurnished)
  | @cons first rest w pins i j hpins hfirst _ ih =>
      intro n hw
      subst hpins
      have hkept := Handles.keeping hw (hfirst ((hw.repinned _).tended hw))
      exact hkept.trans (ih (hkept.tended hw).1)

/-- Where callbacks do nothing, observers leave a binding alone. -/
theorem Responds.of_idle (re : Reentry) (change : Change) :
    ∀ {obs : List (Observer Reaction)} {w : Session}, Hushed w →
      (∀ ob ∈ obs, ob.action.Idle) → Responds re k change obs w 0
  | [], _, _, _ => Responds.nil
  | first :: rest, w, hw, hidle => by
      let pins := (first :: rest).map fun ob => Pin.subscription ob.subscription
      have hhushed : Hushed { w with pins := pins ++ w.pins } := ⟨hw.sinks, hw.mute⟩
      obtain ⟨hstirs, -⟩ := hhushed.react (k := k) re change (hidle first List.mem_cons_self)
      have hkept : Stirs w (w.keeping pins fun w => w.react re change first.action) :=
        hstirs.unpinned
      exact Responds.cons rfl (fun h => Handles.elsewhere (hstirs.untouched h.toFurnished))
        (of_idle re change (hkept.hushed hw) fun ob hob => hidle ob (List.mem_cons_of_mem _ hob))

/-- The session in which observers begin to react to an assignment. -/
def announcing (o : ObjectRef) (attr : String) (v : Value) (w : Session) : Session :=
  let w := { w with pins := pinValues [.object o, v] ++ w.pins }
  let change := w.changeTo o attr v
  let w := (w.putAt o attr v).pruneAt o.id
  { w with pins := pinValues change.values ++ w.pins }

/-- The observers that react to an assignment. -/
def audience (o : ObjectRef) (attr : String) (v : Value) (w : Session) : List (Observer Reaction) :=
  let w := { w with pins := pinValues [.object o, v] ++ w.pins }
  (w.putAt o attr v).reached o.id attr

/-- **An assignment** does what its observers do, if it reports a change. -/
theorem Tended.assigned (h : Tended k n w) {schema : Schema}
    (hv : v.Among w.HasObject k.Outer)
    (hresponds : w.Reports o schema attr v →
      Responds re k (w.changeTo o attr v) (w.audience o attr v) (w.announcing o attr v) i)
    (hsilent : ¬ w.Reports o schema attr v → i = 0) :
    Handles k w (w.assigned re o schema attr v) i := by
  let w₁ : Session := { w with pins := pinValues [.object o, v] ++ w.pins }
  have hpinned : Untouched k w w₁ := h.repinned _
  have hw₁ : Tended k n w₁ := hpinned.tended h
  have hput : Untouched k w₁ (w₁.putAt o attr v) := hw₁.putAt hv
  suffices hassign : Handles k w₁ (w₁.assign re o schema attr v).1 i from
    @Handles.keeping k n i w (w₁.assign re o schema attr v).1 (pinValues [.object o, v]) h hassign
  by_cases hreports : w.Reports o schema attr v
  · have hpruned := hput.trans (hput.furnished.pruneAt o.id)
    have hw₂ := hpruned.tended hw₁
    rw [assign_of_reports re (w := w₁) hreports, dispatch_eq]
    have hannounced := (hw₂.repinned (pinValues (w₁.changeTo o attr v).values
      ++ ((w₁.putAt o attr v).pruneAt o.id).pins)).tended hw₂
    have hreact := (hresponds hreports).handles hannounced
    exact (Handles.keeping hw₂ hreact).before hpruned
  · obtain rfl := hsilent hreports
    rcases assign_of_not_reports re (w := w₁) hreports with heq | heq
    · rw [heq]
      exact Handles.elsewhere (Untouched.refl hw₁.toFurnished)
    · rw [heq]
      exact Handles.elsewhere hput

end Assignments

section Histories

/-- Dealings with a binding, and how often they have reset its channel: evaluations that end,
resets of the binding or of its channel alone, prunings, assignments to attributes of models, and
whatever else may be done around the binding.  Native functions and callbacks take part in ways
that the binding can stand. -/
inductive Dealings (re : Reentry) (k : Wiring) (start : Session) : Session → Nat → Prop
  | start : Dealings re k start start 0
  | evaluate {w w' : Session} {n : Nat} {id : String} {B : Binding} {reply : Reply}
      {resets : NativeCall × Session → Nat} :
      Dealings re k start w n →
      w.bindingNamed id = .ok (k.binding, B) →
      (w.evaluation re k.binding B).outcome ≠ none →
      (∀ e ∈ w.callsOut re k B, Bears re k e (resets e)) →
      w.evaluateNamed re id = .ok (w', reply) →
      Dealings re k start w' (n + (1 + ((w.callsOut re k B).map resets).sum))
  | reset {w w' : Session} {n : Nat} {id : String} {B : Binding} {reply : Reply} :
      Dealings re k start w n →
      w.bindingNamed id = .ok (k.binding, B) →
      w.resetBinding id = .ok (w', reply) →
      Dealings re k start w' (n + 1)
  | resetNotifier {w w' : Session} {n : Nat} {id : String} {B : Binding} {reply : Reply} :
      Dealings re k start w n →
      w.bindingNamed id = .ok (k.binding, B) →
      w.resetNotifier id = .ok (w', reply) →
      Dealings re k start w' (n + 1)
  | prune {w w' : Session} {n : Nat} {id : String} {B : Binding} {reply : Reply} :
      Dealings re k start w n →
      w.bindingNamed id = .ok (k.binding, B) →
      w.pruneBinding id = .ok (w', reply) →
      Dealings re k start w' n
  | set {w : Session} {n i : Nat} {o : ObjectRef} {schema : Schema} {attr : String} {v : Value} :
      Dealings re k start w n →
      w.schema? o = some schema →
      v.Among w.HasObject k.Outer →
      (w.Reports o schema attr v →
        Responds re k (w.changeTo o attr v) (w.audience o attr v) (w.announcing o attr v) i) →
      (¬ w.Reports o schema attr v → i = 0) →
      Dealings re k start (w.assigned re o schema attr v) (n + i)
  | meanwhile {w w' : Session} {n i : Nat} :
      Dealings re k start w n →
      (∀ {m : Nat}, Tended k m w → Handles k w w' i) →
      Dealings re k start w' (n + i)

variable {re : Reentry} {k : Wiring} {verify : Bool} {n m i : Nat} {start w w' : Session}
  {B : Binding} {id : String} {reply : Reply}

/-- An evaluation resets the channel once if its native functions do not reset it. -/
theorem Dealings.evaluate_once (h : Dealings re k start w n)
    (hB : w.bindingNamed id = .ok (k.binding, B))
    (hends : (w.evaluation re k.binding B).outcome ≠ none)
    (hbears : ∀ e ∈ w.callsOut re k B, Bears re k e 0)
    (heval : w.evaluateNamed re id = .ok (w', reply)) : Dealings re k start w' (n + 1) := by
  have hzero : ((w.callsOut re k B).map fun _ => 0).sum = 0 := by simp
  have hdone := h.evaluate hB hends hbears heval
  rwa [hzero] at hdone

/-- An assignment resets nothing where callbacks do nothing. -/
theorem Dealings.set_of_idle {o : ObjectRef} {schema : Schema} {attr : String} {v : Value}
    (h : Dealings re k start w n) (hschema : w.schema? o = some schema)
    (hv : v.Among w.HasObject k.Outer) (hw : Hushed w)
    (hidle : ∀ ob ∈ w.audience o attr v, ob.action.Idle) :
    Dealings re k start (w.assigned re o schema attr v) n := by
  have hannouncing : Hushed (w.announcing o attr v) := ⟨hw.sinks, hw.mute⟩
  exact h.set hschema hv (fun _ => Responds.of_idle re _ hannouncing hidle) fun _ => rfl

theorem Binding.Fits.policies (h : B.Fits k) : B.policies = k.policies := by
  rw [Binding.policies, h.attributes, h.getattr]
  rfl

theorem Tended.prunePolicies : ∀ {ps : List Nat} {w : Session}, Tended k n w →
    (∀ p ∈ ps, p ∈ k.policies) → Handles k w (Session.prunePolicies ps w).1 0
  | [], _, h, _ => Handles.elsewhere (Untouched.refl h.toFurnished)
  | p :: ps, w, h, hps => by
      have hfirst : Handles k w (w.prunePolicy p).1 0 := Handles.prune (hps p List.mem_cons_self)
      exact hfirst.trans (prunePolicies (hfirst.tended h).1
        fun q hq => hps q (List.mem_cons_of_mem _ hq))

theorem Tended.resetBinding (h : Tended k n w) (hB : w.bindingNamed id = .ok (k.binding, B))
    (hreset : w.resetBinding id = .ok (w', reply)) : Handles k w w' 1 := by
  simp only [Session.resetBinding, hB, bind, Except.bind, pure, Except.pure] at hreset
  cases hreset
  rw [(h.fits (bindingNamed_ok hB).2).channel]
  exact Handles.reset.after
    (h.reset.flagged Binding.last (fun _ => true) Binding.evaluating k.binding)

theorem Tended.resetNotifier (h : Tended k n w) (hB : w.bindingNamed id = .ok (k.binding, B))
    (hreset : w.resetNotifier id = .ok (w', reply)) : Handles k w w' 1 := by
  simp only [Session.resetNotifier, hB, bind, Except.bind, pure, Except.pure] at hreset
  cases hreset
  rw [(h.fits (bindingNamed_ok hB).2).channel]
  exact Handles.reset

theorem Tended.pruneBinding (h : Tended k n w) (hB : w.bindingNamed id = .ok (k.binding, B))
    (hprune : w.pruneBinding id = .ok (w', reply)) : Handles k w w' 0 := by
  simp only [Session.pruneBinding, hB, bind, Except.bind, pure, Except.pure] at hprune
  cases hprune
  rw [(h.fits (bindingNamed_ok hB).2).policies]
  exact h.prunePolicies fun _ hp => hp

/-- **A binding stays tended through all dealings** with it. -/
theorem Dealings.tended
    (hinstrumented : instrument verify k.plain (k.monitors.map StockMonitor.monitor) = .ok k.code)
    (hstart : Tended k 0 start) (h : Dealings re k start w n) : Tended k n w := by
  induction h with
  | start => exact hstart
  | @evaluate w w' n id B reply resets _ hB hends hbears heval ih =>
      obtain ⟨hid, hB⟩ := bindingNamed_ok hB
      obtain ⟨r, hr⟩ := Option.ne_none_iff_exists'.mp hends
      rw [evaluateNamed_eq hid hB hr] at heval
      cases heval
      exact ((ih.handles_evaluate hinstrumented hB hr hbears).tended ih).1
  | reset _ hB hreset ih => exact ((ih.resetBinding hB hreset).tended ih).1
  | resetNotifier _ hB hreset ih => exact ((ih.resetNotifier hB hreset).tended ih).1
  | prune _ hB hprune ih => exact ((ih.pruneBinding hB hprune).tended ih).1
  | set _ _ hv hresponds hsilent ih => exact ((ih.assigned hv hresponds hsilent).tended ih).1
  | meanwhile _ hhandles ih => exact ((hhandles ih).tended ih).1

end Histories

section Making

/-- A session in which code can be bound: objects are kept under their numbers and run nothing when
they are observed, and values refer to nothing but what is there. -/
structure Ready (w : Session) (code : Code) (scope : Scope) : Prop where
  numbered : Numbered w
  home : ∀ o, w.HasObject o → AtHome o
  kinds : ∀ (i : Nat) (cell : ObjectCell), w.objects[i]? = some cell → cell.kind.Idle
  stock : Stock w.HasObject (fun f => f.id < w.natives.length) code scope w.attribute?

variable {w : Session} {plain code : Code} {scope : Scope}

theorem Orderly.of_empty (c : Nat) (w : Session) : Orderly c 0 w (Registry.empty ⟨c, 0⟩) where
  channel := rfl
  exact := Registry.Exact.of_empty _
  known := fun _ _ hx => by cases hx
  stamped := ⟨0, Nat.le_refl 0, rfl⟩

/-- A session with one object, which runs nothing when it is observed. -/
theorem Ready.of_single {cell : ObjectCell} (hobjects : w.objects = [cell])
    (hid : cell.ref.id = 0) (hhome : AtHome cell.ref) (hkind : cell.kind.Idle)
    (hconstants : ∀ v, .loadConst v ∈ plain.instructions →
      v.Among w.HasObject fun f => f.id < w.natives.length)
    (hscope : ∀ e ∈ scope, e.2.Among w.HasObject fun f => f.id < w.natives.length)
    (hattrs : ∀ e ∈ cell.attrs, e.2.Among w.HasObject fun f => f.id < w.natives.length) :
    Ready w plain scope := by
  have hcell : ∀ (i : Nat) (cell' : ObjectCell), w.objects[i]? = some cell' →
      i = 0 ∧ cell' = cell := by
    intro i cell' h
    rw [hobjects, List.getElem?_singleton] at h
    split at h
    · next hi => exact ⟨hi, (Option.some.inj h).symm⟩
    · cases h
  refine ⟨?_, ?_, ?_, hconstants, ?_, ?_⟩
  · intro i cell' h
    obtain ⟨rfl, rfl⟩ := hcell i cell' h
    exact hid
  · rintro o ⟨cell', h, rfl⟩
    obtain ⟨-, rfl⟩ := hcell _ cell' h
    exact hhome
  · intro i cell' h
    obtain ⟨-, rfl⟩ := hcell i cell' h
    exact hkind
  · intro name v hv
    exact hscope _ (Assoc.mem_of_get? hv)
  · intro o a v hv
    obtain ⟨cell', h, hattr⟩ := Option.bind_eq_some_iff.mp hv
    obtain ⟨-, rfl⟩ := hcell _ cell' h
    exact hattrs _ (Assoc.mem_of_get? hattr)

/-- **A new binding is tended.** -/
theorem Ready.tended (h : Ready w plain scope) (code : Code) (onInvalid : Invalidation) :
    Tended (w.nextWiring plain code scope) 0
      (w.withNext plain (some code) scope onInvalid) := by
  have houter : ∀ f : NativeRef, f.id < w.natives.length →
      (w.nextWiring plain code scope).Outer f :=
    fun f hf => ⟨Nat.ne_of_lt hf, Nat.ne_of_lt (Nat.lt_succ_of_lt hf)⟩
  have hstock : Stock w.HasObject (w.nextWiring plain code scope).Outer plain scope
      w.attribute? :=
    ⟨fun v hv => (h.stock.constants v hv).mono (fun _ ho => ho) houter,
      fun name v hv => (h.stock.scope name v hv).mono (fun _ ho => ho) houter,
      fun o a v hv => (h.stock.read o a v hv).mono (fun _ ho => ho) houter⟩
  refine ⟨⟨h.numbered, h.home, h.kinds, hstock, ?_, ?_, ?_⟩, ?_, ?_⟩
  · exact ⟨_, List.getElem?_concat_length, rfl, rfl, rfl, rfl, rfl, rfl⟩
  · simp [nextWiring, withNext]
  · simp [nextWiring, withNext]
  · exact ⟨_, List.getElem?_concat_length⟩
  · intro p hp
    simp only [Wiring.policies, nextWiring, List.mem_cons, List.not_mem_nil, or_false] at hp
    refine ⟨⟨Registry.empty ⟨w.channels.length, 0⟩, [], false⟩, ?_, rfl, Orderly.of_empty _ _⟩
    rcases hp with rfl | rfl <;> simp [withNext]

end Making

end Session
end TrackedExpr
