import Mathlib
import TrackedExpr.Proofs.Dealings

/-!
# Dependencies are what was read

Right after an evaluation the policies of a binding listen to exactly the observable
attributes that this evaluation read, whatever was done with the binding before.

**Definitions.**
* `Instruction.loaded?`, `Instruction.asked?`: the attribute of an object that an attribute
  load, or a plain call of `getattr`, is executed on;
* `loads`, `asks`: all of these in an evaluation;
* `contains`: whether a policy listens to an attribute.

**Results.**
* `Wiring.shown?_attributes`, `Wiring.shown?_getattr`: what the policies are shown;
* `Tended.contains_iff`, `Tended.policySize_eq`: what a policy answers;
* `Tended.attends_evaluate`: what is listened to after an evaluation;
* `dependencies_exact`: the dependencies of a binding.
-/

namespace TrackedExpr

section Reading

/-- The attribute of an object on which an attribute load is executed. -/
def Instruction.loaded? : Instruction → List Value → Option (ObjectRef × String)
  | .loadAttr a, .object o :: _ => some (o, a)
  | _, _ => none

/-- Two or three arguments, of which the first is an object and the second is text. -/
def objectAndText? : List Value → Option (ObjectRef × String)
  | [.object o, .str a] => some (o, a)
  | [.object o, .str a, _] => some (o, a)
  | _ => none

/-- The attribute of an object on which a plain call of `getattr` is executed, with two or three
positional arguments, of which the second is text, and no keyword arguments. -/
def Instruction.asked? : Instruction → List Value → Option (ObjectRef × String)
  | .call .plain raw, stack =>
      match stack.drop (ArgSpec.decode raw).slots with
      | .builtin .getattr :: _ =>
          if (ArgSpec.decode raw).keyword = 0 then objectAndText? (callSlots raw stack) else none
      | _ => none
  | _, _ => none

/-- The attribute of an object on which the next step executes an attribute load. -/
def Frame.loaded? (c : Code) (f : Frame) : Option (ObjectRef × String) :=
  c.instructions[f.pc]?.bind fun op => op.loaded? f.stack

/-- The attribute of an object on which the next step executes a plain call of `getattr`. -/
def Frame.asked? (c : Code) (f : Frame) : Option (ObjectRef × String) :=
  c.instructions[f.pc]?.bind fun op => op.asked? f.stack

/-- Slots of keywords that are accepted make keyword arguments. -/
theorem textPairs_ne_nil {slots : List Value} (hok : (keywordSlots slots).isOk = true)
    (hlen : 2 ≤ slots.length) : textPairs slots ≠ [] := by
  cases hnamed : keywordSlots slots with
  | error e =>
      rw [hnamed] at hok
      cases hok
  | ok kwargs =>
      match slots, hlen with
      | name :: value :: rest, _ =>
          cases name with
          | str n => exact List.cons_ne_nil _ _
          | _ => cases hnamed

theorem getattrAccess?_of_kwargs {function : Value} {args : List Value} {kwargs : Kwargs}
    (h : kwargs ≠ []) : getattrAccess? function args kwargs = none := by
  unfold getattrAccess?
  split
  · exact absurd rfl h
  · exact absurd rfl h
  · rfl

theorem length_callSlots {raw : UInt16} {stack below : List Value} {function : Value}
    (hdrop : stack.drop (ArgSpec.decode raw).slots = function :: below) :
    (callSlots raw stack).length = (ArgSpec.decode raw).slots := by
  have hlen := congrArg List.length hdrop
  rw [List.length_drop, List.length_cons] at hlen
  rw [callSlots, List.length_reverse, List.length_take]
  omega

theorem objectAndText?_eq (args : List Value) :
    objectAndText? args = objectAccess? (getattrAccess? (.builtin .getattr) args []) := by
  rcases args with _ | ⟨v, _ | ⟨u, _ | ⟨t, _ | ⟨x, rest⟩⟩⟩⟩
  · rfl
  · cases v <;> rfl
  · cases u <;> cases v <;> rfl
  · cases u <;> cases v <;> rfl
  · cases u <;> cases v <;> rfl

theorem getattrAccess?_of_ne {function : Value} (h : function ≠ .builtin .getattr)
    (args : List Value) (kwargs : Kwargs) : getattrAccess? function args kwargs = none := by
  unfold getattrAccess?
  split
  · exact absurd rfl h
  · exact absurd rfl h
  · rfl

/-- A plain call whose keywords are text is aimed at what it asks `getattr` for. -/
theorem Instruction.asked?_eq {raw : UInt16} {stack : List Value}
    (hbalks : (Instruction.call .plain raw).balks stack = false) :
    (Instruction.call .plain raw).asked? stack = (Instruction.call .plain raw).aim? stack := by
  cases hdrop : stack.drop (ArgSpec.decode raw).slots with
  | nil => simp [asked?, aim?, hdrop]
  | cons function below =>
      have hlen := length_callSlots hdrop
      simp only [balks, Bool.not_eq_false'] at hbalks
      rw [aim?_call hdrop, splitArguments]
      by_cases hfunction : function = .builtin .getattr
      · subst hfunction
        simp only [asked?, hdrop]
        split
        · next hkeyword =>
            have hslots : (callSlots raw stack).length ≤ (ArgSpec.decode raw).positional.toNat := by
              rw [hlen, ArgSpec.slots, hkeyword]
              exact Nat.le_refl _
            rw [List.take_of_length_le hslots, List.drop_of_length_le hslots, objectAndText?_eq]
            rfl
        · next hkeyword =>
            have hnamed : 2 ≤ ((callSlots raw stack).drop
                (ArgSpec.decode raw).positional.toNat).length := by
              have hpos : (ArgSpec.decode raw).keyword.toNat ≠ 0 := fun hzero =>
                hkeyword (UInt8.toNat_inj.mp hzero)
              rw [List.length_drop, hlen, ArgSpec.slots]
              omega
            rw [getattrAccess?_of_kwargs (textPairs_ne_nil hbalks hnamed)]
            rfl
      · rw [getattrAccess?_of_ne hfunction]
        simp only [asked?, hdrop]
        split
        · next heq => exact absurd (List.cons.inj heq).1 hfunction
        · rfl

end Reading

namespace Session

section Showing

variable {k : Wiring} (hne : k.attributes ≠ k.getattr) {c : Code} {f : Frame}
include hne

/-- The one policy is shown the attribute loads. -/
theorem Wiring.shown?_attributes : k.shown? k.attributes c f = f.loaded? c := by
  unfold shown? Frame.loaded?
  cases c.instructions[f.pc]? with
  | none => rfl
  | some op =>
      rw [Option.bind_some, Option.bind_some]
      cases op with
      | loadAttr a =>
          refine (if_pos rfl).trans ?_
          cases f.stack with
          | nil => rfl
          | cons v below => cases v <;> rfl
      | _ => exact if_neg hne

/-- The other policy is shown the calls of `getattr`, unless keywords are not text. -/
theorem Wiring.shown?_getattr (hbalks : f.balks c = false) :
    k.shown? k.getattr c f = f.asked? c := by
  unfold shown? Frame.asked?
  unfold Frame.balks at hbalks
  cases hop : c.instructions[f.pc]? with
  | none => rfl
  | some op =>
      rw [hop, Option.any_some] at hbalks
      rw [Option.bind_some, Option.bind_some]
      cases op with
      | loadAttr a => exact if_neg hne.symm
      | call form raw =>
          refine (if_pos rfl).trans ?_
          cases form with
          | plain => exact (Instruction.asked?_eq hbalks).symm
          | _ => rfl
      | _ => exact if_pos rfl

end Showing

section Answers

/-- Whether a policy listens to an attribute of an object. -/
def contains (w : Session) (p : Nat) (o : ObjectRef) (attr : String) : Bool :=
  match w.policies[p]? with
  | some P => w.connected P.registry.token && P.registry.contains w.objectAlive o attr
  | none => false

variable {k : Wiring} {n p : Nat} {w : Session} {P : Policy} {o : ObjectRef} {attr : String}

/-- A policy contains what it attends to, of objects that exist. -/
theorem Tended.contains_iff (h : Tended k n w) (hp : p ∈ k.policies)
    (hchannel : w.channelAlive k.channel = true) (ho : w.Present o) :
    w.contains p o attr = true ↔ Attends w p o attr := by
  obtain ⟨P, hP, -, horderly⟩ := h.policies p hp
  rw [← horderly.channel] at hchannel
  have hplace : ∀ key x, P.registry.subjects.slots.get? key = some x →
      x.address = o.address → x = o :=
    fun key x hx haddr => h.eq_of_address (horderly.known key x hx) ho.1 haddr
  rw [attends_iff hP, contains, hP]
  dsimp only
  rw [Bool.and_eq_true, connected_iff hchannel, horderly.exact.contains_iff ho.2 hplace]

/-- A policy counts what it attends to. -/
theorem Tended.policySize_eq (h : Tended k n w) (hp : p ∈ k.policies)
    (hP : w.policies[p]? = some P) (hchannel : w.channelAlive k.channel = true)
    {xs : List (ObjectRef × String)} (hxs : ∀ x a, Attends w p x a ↔ (x, a) ∈ xs) :
    w.policySize P = xs.toFinset.card := by
  obtain ⟨P', hP', -, horderly⟩ := h.policies p hp
  obtain rfl := Option.some.inj (hP.symm.trans hP')
  rw [← horderly.channel] at hchannel
  have hcovered : ∀ e, e ∈ xs ↔
      w.connected P.registry.token = true ∧ e ∈ P.registry.pairs := by
    rintro ⟨x, a⟩
    rw [← hxs, attends_iff hP, connected_iff hchannel, Registry.mem_pairs]
  obtain ⟨hnodup, hlength⟩ := horderly.exact.pairs
  unfold policySize
  split
  · next hconnected =>
      have hsame : xs.toFinset = P.registry.pairs.toFinset := by
        ext e
        simp [hcovered, hconnected]
      rw [hsame, List.toFinset_card_of_nodup hnodup, hlength]
  · next hgone =>
      have hnone : xs.toFinset = ∅ := by
        ext e
        simp [hcovered, hgone]
      rw [hnone, Finset.card_empty]

end Answers

section Evaluations

/-- The attribute loads that an evaluation of a binding executes, with their objects. -/
def loads (re : Reentry) (b : Nat) (B : Binding) (w : Session) : List (ObjectRef × String) :=
  ((host re).visited B.code B.scope w.patience Frame.start (w.beginning b B)).filterMap
    (Frame.loaded? B.code)

/-- The attributes that an evaluation of a binding asks `getattr` for, with their objects. -/
def asks (re : Reentry) (b : Nat) (B : Binding) (w : Session) : List (ObjectRef × String) :=
  ((host re).visited B.code B.scope w.patience Frame.start (w.beginning b B)).filterMap
    (Frame.asked? B.code)

/-- The attributes in a list that their objects declare observable. -/
def observables (w : Session) (xs : List (ObjectRef × String)) : List (ObjectRef × String) :=
  xs.filter fun x => w.declared? x.1 x.2 = some .observable

variable {re : Reentry} {k : Wiring} {verify : Bool} {n p : Nat} {w : Session} {B : Binding}
  {r : Outcome}

theorem mem_observables {xs : List (ObjectRef × String)} {x : ObjectRef} {a : String} :
    (x, a) ∈ w.observables xs ↔ (x, a) ∈ xs ∧ w.declared? x a = some .observable := by
  rw [observables, List.mem_filter, decide_eq_true_iff]

/-- **What is listened to after an evaluation** is what it has shown and can be observed. -/
theorem Tended.attends_evaluate
    (hinstrumented : instrument verify k.plain (k.monitors.map StockMonitor.monitor) = .ok k.code)
    (h : Tended k n w) (hn : n + 1 < 2 ^ 64) (hB : w.bindings[k.binding]? = some B)
    (hr : (w.evaluation re k.binding B).outcome = some r)
    (hnatives : ∀ e ∈ w.callsOut re k B, Bears re k e 0) (hspares : Spares re k (w.callsOut re k B))
    (hp : p ∈ k.policies) (x : ObjectRef) (a : String) :
    Attends (concluded k.binding r w (w.evaluation re k.binding B).state) p x a ↔
      (x, a) ∈ observables (concluded k.binding r w (w.evaluation re k.binding B).state)
        (((host re).visited B.code B.scope w.patience Frame.start
          (w.beginning k.binding B)).filterMap (k.shown? p B.code)) := by
  obtain ⟨hpinned, hbegun⟩ := h.beginning hB
  obtain ⟨hrun, hended⟩ := h.evaluate hinstrumented hB hr hnatives
  have hbeginning := hbegun.tended hpinned.reset
  obtain ⟨hstate, -⟩ := hrun.handles.tended hbeginning
  have hheld : .binding k.binding ∈ (w.beginning k.binding B).pins :=
    List.mem_append_right _ (List.mem_append_left _ List.mem_cons_self)
  have hnothing : ¬ Attends (w.beginning k.binding B) p x a := by
    rw [hpinned.reset.attends_congr hp hbegun.channel (hbegun.policies p hp)]
    exact hpinned.unattended hn hp
  rw [hstate.attends_congr hp hended.channel (hended.policies p hp),
    hrun.attends hspares hheld p hp, mem_observables]
  exact or_iff_right hnothing

/-- The binding that was evaluated, and its channel, exist as long as something holds it. -/
theorem Furnished.channelAlive (h : Furnished k w) (halive : w.bindingAlive k.binding = true) :
    w.channelAlive k.channel = true := by
  obtain ⟨B, hB, hfits⟩ := h.binding
  have hchannel := channelAlive_of_binding (mem_liveBindings hB halive)
  rwa [hfits.channel] at hchannel

/-- A binding counts what its policies attend to. -/
theorem Tended.dependencyCount_eq (h : Tended k n w) (hB : w.bindings[k.binding]? = some B)
    (hchannel : w.channelAlive k.channel = true) {xs ys : List (ObjectRef × String)}
    (hxs : ∀ x a, Attends w k.attributes x a ↔ (x, a) ∈ xs)
    (hys : ∀ x a, Attends w k.getattr x a ↔ (x, a) ∈ ys) :
    w.dependencyCount B = xs.toFinset.card + ys.toFinset.card := by
  have hattributes : k.attributes ∈ k.policies := List.mem_cons_self
  have hgetattr : k.getattr ∈ k.policies := List.mem_cons_of_mem _ List.mem_cons_self
  obtain ⟨P, hP, -⟩ := h.policies _ hattributes
  obtain ⟨Q, hQ, -⟩ := h.policies _ hgetattr
  rw [← h.policySize_eq hattributes hP hchannel hxs, ← h.policySize_eq hgetattr hQ hchannel hys,
    dependencyCount, (h.fits hB).policies, Wiring.policies]
  simp [hP, hQ]

/-- What the policies contain after an evaluation, and what the binding counts. -/
theorem Tended.dependencies
    (hinstrumented : instrument verify k.plain (k.monitors.map StockMonitor.monitor) = .ok k.code)
    (hne : k.attributes ≠ k.getattr) (h : Tended k n w) (hn : n + 1 < 2 ^ 64)
    (hB : w.bindings[k.binding]? = some B)
    (hr : (w.evaluation re k.binding B).outcome = some r)
    (hnatives : ∀ e ∈ w.callsOut re k B, Bears re k e 0) (hspares : Spares re k (w.callsOut re k B))
    (hkeywords : ∀ f ∈ (host re).visited B.code B.scope w.patience Frame.start
      (w.beginning k.binding B), f.balks B.code = false) {w' : Session}
    (hw' : w' = concluded k.binding r w (w.evaluation re k.binding B).state)
    (halive : w'.bindingAlive k.binding = true) :
    ∃ B', w'.bindings[k.binding]? = some B' ∧ B'.Fits k ∧
      (∀ o attr, w'.Present o → (w'.contains k.attributes o attr = true ↔
        (o, attr) ∈ w'.observables (w.loads re k.binding B))) ∧
      (∀ o attr, w'.Present o → (w'.contains k.getattr o attr = true ↔
        (o, attr) ∈ w'.observables (w.asks re k.binding B))) ∧
      w'.dependencyCount B' = (w'.observables (w.loads re k.binding B)).toFinset.card
        + (w'.observables (w.asks re k.binding B)).toFinset.card := by
  have hpolicy : k.attributes ∈ k.policies := List.mem_cons_self
  have hpolicy' : k.getattr ∈ k.policies := List.mem_cons_of_mem _ List.mem_cons_self
  have hloads : ∀ x a, Attends w' k.attributes x a ↔
      (x, a) ∈ w'.observables (w.loads re k.binding B) := by
    intro x a
    rw [hw', h.attends_evaluate hinstrumented hn hB hr hnatives hspares hpolicy, loads,
      List.filterMap_congr fun f _ => Wiring.shown?_attributes hne]
  have hasks : ∀ x a, Attends w' k.getattr x a ↔
      (x, a) ∈ w'.observables (w.asks re k.binding B) := by
    intro x a
    rw [hw', h.attends_evaluate hinstrumented hn hB hr hnatives hspares hpolicy', asks,
      List.filterMap_congr fun f hf => Wiring.shown?_getattr hne (hkeywords f hf)]
  obtain ⟨htended, -⟩ := (h.handles_evaluate hinstrumented hB hr hnatives).tended h
  rw [← hw'] at htended
  have hchannel := htended.channelAlive halive
  obtain ⟨B', hB', hfits⟩ := htended.binding
  refine ⟨B', hB', hfits, ?_, ?_, htended.dependencyCount_eq hB' hchannel hloads hasks⟩
  · intro o attr ho
    rw [htended.contains_iff hpolicy hchannel ho, hloads]
  · intro o attr ho
    rw [htended.contains_iff hpolicy' hchannel ho, hasks]

/-- **The dependencies of a binding are what its latest evaluation read.**  Bind code for both
monitors in a session where objects run nothing when they are observed, and let it be
instrumented; then evaluate it, reset it, prune it and set attributes in any order, as long as
its channel is reset less often than generations run over.  Right after an evaluation that ends,
whose native functions leave the binding alone and whose plain calls have no keywords but text,
the attribute policy contains an attribute of an object just if this evaluation has loaded it and
it is declared observable, the other policy just if this evaluation has asked `getattr` for it and
it is, and the binding counts exactly these. -/
theorem dependencies_exact {re : Reentry} {w₀ w₁ w w' : Session} {code instrumented : Code}
    {scope : Scope} {config : BindingConfig} {onInvalid : Invalidation} {b n : Nat} {B : Binding}
    {id : String} {r : Outcome} {reply : Reply} (hready : Ready w₀ code scope)
    (hmade : w₀.makeBinding code scope config onInvalid = .ok (w₁, b))
    (hattributes : config.monitorAttributes = true) (hgetattr : config.monitorGetattr = true)
    (hinstrumented : w₁.bindings[b]?.bind Binding.instrumented = some instrumented)
    (hdealings : Dealings re (w₀.nextWiring code instrumented scope) w₁ w n)
    (hn : n + 1 < 2 ^ 64) (hB : w.bindingNamed id = .ok (b, B))
    (hr : (w.evaluation re b B).outcome = some r)
    (hnatives : ∀ e ∈ w.callsOut re (w₀.nextWiring code instrumented scope) B,
      Furnished (w₀.nextWiring code instrumented scope) e.2 →
      Untouched (w₀.nextWiring code instrumented scope) e.2 (callNative re e.1 e.2).1 ∧
        ResultAmong (callNative re e.1 e.2).1.HasObject
          (w₀.nextWiring code instrumented scope).Outer (callNative re e.1 e.2).2)
    (hkeywords : ∀ f ∈ (host re).visited B.code B.scope w.patience Frame.start
      (w.beginning b B), f.balks B.code = false)
    (heval : w.evaluateNamed re id = .ok (w', reply)) (halive : w'.bindingAlive b = true) :
    reply = .result r ∧ ∃ B' p q, w'.bindings[b]? = some B' ∧
      B'.attributes = some p ∧ B'.getattr = some q ∧
      (∀ o attr, w'.Present o → (w'.contains p o attr = true ↔
        (o, attr) ∈ w.loads re b B ∧ w'.declared? o attr = some .observable)) ∧
      (∀ o attr, w'.Present o → (w'.contains q o attr = true ↔
        (o, attr) ∈ w.asks re b B ∧ w'.declared? o attr = some .observable)) ∧
      w'.dependencyCount B' = (w'.observables (w.loads re b B)).toFinset.card
        + (w'.observables (w.asks re b B)).toFinset.card := by
  obtain ⟨rfl, rfl, hcode⟩ := eq_of_makeBinding hattributes hgetattr hmade hinstrumented
  have hne := nextWiring_apart w₀ code instrumented scope
  have htended := hdealings.tended hcode (hready.tended instrumented onInvalid)
  obtain ⟨hid, hB⟩ := bindingNamed_ok hB
  rw [evaluateNamed_eq hid hB hr] at heval
  obtain ⟨hw', hreply⟩ := Prod.mk.inj (Except.ok.inj heval)
  obtain ⟨B', hB', hfits, hloads, hasks, hcount⟩ :=
    htended.dependencies hcode hne hn hB hr
      (fun e he => ⟨fun h => Handles.elsewhere (hnatives e he h.toFurnished).1,
        fun h => (hnatives e he h).2⟩)
      (fun e he h => (hnatives e he h).1) hkeywords hw'.symm halive
  refine ⟨hreply.symm, B', _, _, hB', hfits.attributes, hfits.getattr, ?_, ?_, hcount⟩
  · intro o attr ho
    rw [hloads o attr ho, mem_observables]
    exact Iff.rfl
  · intro o attr ho
    rw [hasks o attr ho, mem_observables]
    exact Iff.rfl

end Evaluations

section Pair

/-- A model. -/
def pair : ObjectRef := ⟨0, 0, "p", "Pair"⟩

/-- The schema of the model, which declares `x` and `y` observable. -/
def pairSchema : Schema := ((Schema.empty "Pair").observable "x").observable "y"

/-- A session with the model and a native function that adds. -/
def pairSession : Session where
  objects := [⟨pair, .model pairSchema, [("x", .int 1), ("y", .int 2)], []⟩]
  natives := [.host ⟨.sum, []⟩]
  patience := 100

/-- The scope of the code, with both. -/
def pairScope : Scope := [("f", .native ⟨0, "f"⟩), ("p", .object pair)]

/-- Calls the function with `x` of the model and what `getattr` gives for `y`. -/
def addPair : Code := Code.ofInstructions
  [.loadName "f", .loadName "p", .loadAttr "x", .loadName "getattr", .loadName "p",
    .loadConst (.str "y"), .call .plain 2, .call .plain 2, .returnValue]

/-- `addPair` with its sites. -/
def watchedAddPair : Code := Code.ofInstructions <|
  [.loadName "f", .loadName "p"] ++ attributeSite ⟨1, "attribute_binder"⟩ "x"
    ++ [.loadAttr "x", .loadName "getattr", .loadName "p", .loadConst (.str "y")]
    ++ callSite ⟨2, "call_binder"⟩ 2 ++ [.call .plain 2]
    ++ callSite ⟨2, "call_binder"⟩ 2 ++ [.call .plain 2, .returnValue]

/-- A binding of `addPair`. -/
def pairBinding (last : Option Outcome) (dirty : Bool) : Binding where
  plain := addPair
  instrumented := some watchedAddPair
  scope := pairScope
  channel := 0
  attributes := some 0
  getattr := some 1
  onInvalid := .script "b" []
  last := last
  dirty := dirty
  evaluating := false

/-- The session with the new binding. -/
def boundPair : Session :=
  ((pairSession.withNext addPair (some watchedAddPair) pairScope
    (.script "b" [])).nameBinding "b" 0).1

/-- The session after the binding was evaluated. -/
def evaluatedPair : Session :=
  concluded 0 (.ok (.int 3)) boundPair
    (boundPair.evaluation (enter 1) 0 (pairBinding none true)).state

/-- The session after `x` was set to 4, which makes the binding dirty. -/
def changedPair : Session := evaluatedPair.assigned (enter 1) pair pairSchema "x" (.int 4)

/-- The session after the binding was evaluated once more. -/
def reevaluatedPair : Session :=
  concluded 0 (.ok (.int 6)) changedPair
    (changedPair.evaluation (enter 1) 0 (pairBinding (some (.ok (.int 3))) true)).state

/-- The wiring of the binding of `addPair`. -/
def pairWiring : Wiring := pairSession.nextWiring addPair watchedAddPair pairScope

theorem makeBinding_pair :
    pairSession.makeBinding addPair pairScope {} (.script "b" []) = .ok
      (pairSession.withNext addPair (some watchedAddPair) pairScope (.script "b" []), 0) := by
  have hinstrument : instrumentFor {} addPair [Monitor.attributes ⟨1, "attribute_binder"⟩,
      Monitor.calls ⟨2, "call_binder"⟩] = .ok (some watchedAddPair) := by cbv
  exact makeBinding_of_instrumentFor rfl rfl hinstrument

theorem ready_pairSession : Ready pairSession addPair pairScope := by
  refine .of_single rfl rfl rfl trivial ?_ ?_ ?_
  · intro v hv
    obtain rfl : v = .str "y" := by simpa [addPair, Code.ofInstructions] using hv
    trivial
  · exact List.forall_mem_cons.mpr ⟨Nat.one_pos, List.forall_mem_singleton.mpr ⟨_, rfl, rfl⟩⟩
  · exact List.forall_mem_cons.mpr ⟨trivial, List.forall_mem_singleton.mpr trivial⟩

/-- The native calls of `addPair` leave its binding alone. -/
theorem natives_pair {w : Session} {B : Binding}
    (hnatives : (w.callsOut (enter 1) pairWiring B).map
      (fun e => e.2.natives[e.1.function.id]?) = [some (.host ⟨.sum, []⟩)]) :
    ∀ e ∈ w.callsOut (enter 1) pairWiring B, Furnished pairWiring e.2 →
      Untouched pairWiring e.2 (callNative (enter 1) e.1 e.2).1 ∧
        ResultAmong (callNative (enter 1) e.1 e.2).1.HasObject pairWiring.Outer
          (callNative (enter 1) e.1 e.2).2 := by
  intro e he hfurnished
  have hnative : e.2.natives[e.1.function.id]? = some (.host ⟨.sum, []⟩) := by
    have hmem := List.mem_map_of_mem (f := fun e : NativeCall × Session =>
      e.2.natives[e.1.function.id]?) he
    rw [hnatives] at hmem
    exact List.mem_singleton.mp hmem
  refine ⟨hfurnished.untouched_native hnative (by nofun) 0, ?_⟩
  intro v hv
  simp only [callNative, holding, hnative, enter, carryOut, behave] at hv
  cases hv
  trivial

theorem evaluation_boundPair : Assoc.get? "b" boundPair.names.bindings = some 0 ∧
    (boundPair.evaluation (enter 1) 0 (pairBinding none true)).outcome = some (.ok (.int 3)) ∧
    (boundPair.callsOut (enter 1) pairWiring (pairBinding none true)).map
      (fun e => e.2.natives[e.1.function.id]?) = [some (.host ⟨.sum, []⟩)] := by
  cbv

theorem assignment_evaluatedPair :
    evaluatedPair.channels = [⟨1, .binding 0⟩] ∧
      evaluatedPair.bindings = [pairBinding (some (.ok (.int 3))) false] ∧
      evaluatedPair.schema? pair = some pairSchema ∧
      (evaluatedPair.audience pair "x" (.int 4)).map Observer.action
        = [.forward (some ⟨0, 0⟩) ⟨0, 1⟩] := by
  cbv

theorem dealings_evaluatedPair : Dealings (enter 1) pairWiring
    (pairSession.withNext addPair (some watchedAddPair) pairScope (.script "b" []))
    evaluatedPair 1 := by
  obtain ⟨hid, hout, hcalls⟩ := evaluation_boundPair
  have hB : boundPair.bindings[0]? = some (pairBinding none true) := rfl
  have heval : boundPair.evaluateNamed (enter 1) "b"
      = .ok (evaluatedPair, .result (.ok (.int 3))) := evaluateNamed_eq hid hB hout
  have hends : (boundPair.evaluation (enter 1) 0 (pairBinding none true)).outcome ≠ none := by
    rw [hout]
    nofun
  have hbears : ∀ e ∈ boundPair.callsOut (enter 1) pairWiring (pairBinding none true),
      Bears (enter 1) pairWiring e 0 := fun e he =>
    ⟨fun h => Handles.elsewhere (natives_pair hcalls e he h.toFurnished).1,
      fun h => (natives_pair hcalls e he h).2⟩
  have hnamed : Dealings (enter 1) pairWiring
      (pairSession.withNext addPair (some watchedAddPair) pairScope (.script "b" [])) boundPair 0 :=
    Dealings.start.meanwhile fun h => Handles.elsewhere
      ⟨h.beside boundPair.names _ _ _, Lasts.refl _, rfl, fun _ _ => rfl⟩
  exact hnamed.evaluate_once (bindingNamed_eq hid hB) hends hbears heval

theorem dealings_changedPair : Dealings (enter 1) pairWiring
    (pairSession.withNext addPair (some watchedAddPair) pairScope (.script "b" []))
    changedPair 1 := by
  obtain ⟨hchannels, hbindings, hschema, haudience⟩ := assignment_evaluatedPair
  have hhushed : Hushed evaluatedPair := by
    constructor
    · intro i c hc
      rw [hchannels] at hc
      rw [List.mem_singleton.mp (List.mem_of_getElem? hc)]
      exact trivial
    · intro i B hB
      rw [hbindings] at hB
      rw [List.mem_singleton.mp (List.mem_of_getElem? hB)]
      exact rfl
  refine dealings_evaluatedPair.set_of_idle hschema trivial hhushed ?_
  intro ob hob
  have hmem := List.mem_map_of_mem (f := Observer.action) hob
  rw [haudience] at hmem
  rw [List.mem_singleton.mp hmem]
  exact trivial

theorem evaluation_changedPair :
    changedPair.bindings[0]? = some (pairBinding (some (.ok (.int 3))) true) ∧
      Assoc.get? "b" changedPair.names.bindings = some 0 ∧
      (changedPair.evaluation (enter 1) 0 (pairBinding (some (.ok (.int 3))) true)).outcome
        = some (.ok (.int 6)) ∧
      (changedPair.callsOut (enter 1) pairWiring (pairBinding (some (.ok (.int 3))) true)).map
        (fun e => e.2.natives[e.1.function.id]?) = [some (.host ⟨.sum, []⟩)] ∧
      ((host (enter 1)).visited watchedAddPair pairScope changedPair.patience Frame.start
        (changedPair.beginning 0 (pairBinding (some (.ok (.int 3))) true))).any
          (fun f => f.balks watchedAddPair) = false ∧
      changedPair.loads (enter 1) 0 (pairBinding (some (.ok (.int 3))) true) = [(pair, "x")] ∧
      changedPair.asks (enter 1) 0 (pairBinding (some (.ok (.int 3))) true) = [(pair, "y")] := by
  cbv

theorem reevaluatedPair_alive :
    reevaluatedPair.bindingAlive 0 = true ∧ reevaluatedPair.objectAlive pair = true ∧
      (reevaluatedPair.object? pair).map ObjectCell.ref = some pair ∧
      reevaluatedPair.declared? pair "x" = some .observable ∧
      reevaluatedPair.declared? pair "y" = some .observable := by
  cbv

theorem dependencies_exact_pair :
    changedPair.evaluateNamed (enter 1) "b" = .ok (reevaluatedPair, .result (.ok (.int 6))) ∧
      ∃ B p q, reevaluatedPair.bindings[0]? = some B ∧ B.attributes = some p ∧
        B.getattr = some q ∧ reevaluatedPair.contains p pair "x" = true ∧
        reevaluatedPair.contains p pair "y" = false ∧
        reevaluatedPair.contains q pair "x" = false ∧
        reevaluatedPair.contains q pair "y" = true ∧ reevaluatedPair.dependencyCount B = 2 := by
  obtain ⟨hB, hid, hout, hcalls, hbalks, hloads, hasks⟩ := evaluation_changedPair
  obtain ⟨halive, hexists, hobject, hx, hy⟩ := reevaluatedPair_alive
  have hpresent : reevaluatedPair.Present pair := by
    obtain ⟨cell, hcell, href⟩ := Option.map_eq_some_iff.mp hobject
    exact ⟨⟨cell, hcell, href⟩, hexists⟩
  have heval : changedPair.evaluateNamed (enter 1) "b"
      = .ok (reevaluatedPair, .result (.ok (.int 6))) := evaluateNamed_eq hid hB hout
  have hkeywords : ∀ f ∈ (host (enter 1)).visited watchedAddPair pairScope changedPair.patience
      Frame.start (changedPair.beginning 0 (pairBinding (some (.ok (.int 3))) true)),
      f.balks watchedAddPair = false :=
    fun f hf => Bool.eq_false_iff.mpr (List.any_eq_false.mp hbalks f hf)
  obtain ⟨-, B', p, q, hB', hp, hq, hcontains, hcontains', hcount⟩ :=
    dependencies_exact ready_pairSession makeBinding_pair rfl rfl rfl dealings_changedPair (by decide)
      (bindingNamed_eq hid hB) hout (natives_pair hcalls) hkeywords heval halive
  refine ⟨heval, B', p, q, hB', hp, hq, ?_, ?_, ?_, ?_, ?_⟩
  · rw [hcontains pair "x" hpresent, hloads]
    exact ⟨List.mem_singleton_self _, hx⟩
  · rw [Bool.eq_false_iff, Ne, hcontains pair "y" hpresent, hloads]
    simp
  · rw [Bool.eq_false_iff, Ne, hcontains' pair "x" hpresent, hasks]
    simp
  · rw [hcontains' pair "y" hpresent, hasks]
    exact ⟨List.mem_singleton_self _, hy⟩
  · rw [hcount, hloads, hasks]
    simp [observables, hx, hy]

end Pair

end Session
end TrackedExpr
