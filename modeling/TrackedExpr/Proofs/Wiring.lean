import TrackedExpr.Proofs.Lifetimes
import TrackedExpr.Proofs.Materials
import TrackedExpr.Proofs.Registries
import TrackedExpr.Session.Hookup

/-!
# How a binding is wired up

A binding with both monitors has a channel, a policy for each monitor, and the
side-calls that feed them.  A hookup leaves all of this in place: it only adds an
observer, and afterwards the policy is tuned to the attribute.

**Definitions.**
* `Wiring`: what never changes about such a binding;
* `Session.Still`, `Session.Quiet`: a session with models and records, in which observers and
  channels, and bindings too, do nothing of their own;
* `Session.Wired`: a still session in which a binding is wired up;
* `Session.Tuned`: a policy has a listener of the present generation at an attribute;
* `Session.Grows`: what hookups may change.

**Results.**
* `Session.Wired.retune`: a policy with another sound registry;
* `Session.Wired.listen`, `Session.Wired.see`: after an access was shown to a policy, the
  policy is tuned to it.
-/

namespace TrackedExpr
namespace Session

section Quiet

/-- An object at the address that sessions give it. -/
def AtHome (o : ObjectRef) : Prop := o.address = o.id

/-- A reaction that runs no commands. -/
def Reaction.Idle : Reaction → Prop
  | .script _ actions => actions = []
  | .forward _ _ => True

/-- A receiver of events that runs no commands. -/
def Sink.Idle : Sink → Prop
  | .script _ actions => actions = []
  | _ => True

/-- An invalidation that neither runs commands nor evaluates. -/
def Invalidation.Idle : Invalidation → Prop
  | .script _ actions => actions = []
  | .record _ => True
  | .rerun _ _ => False

/-- An object that runs no commands when it is observed. -/
def ObjectKind.Idle : ObjectKind → Prop
  | .source _ onObserve => onObserve = []
  | _ => True

/-- A model or a record under its number, whose attributes hold nothing native and whose
observers are idle. -/
structure ObjectCell.Settled (id : Nat) (cell : ObjectCell) : Prop where
  id : cell.ref.id = id
  kind : ∀ described onObserve, cell.kind ≠ .source described onObserve
  attrs : ∀ a v, Assoc.get? a cell.attrs = some v → v.MadeOf AtHome
  observers : ∀ ob ∈ cell.observers, ob.action.Idle

theorem ObjectCell.Settled.idle {id : Nat} {cell : ObjectCell} (h : cell.Settled id) :
    cell.kind.Idle := by
  cases hkind : cell.kind with
  | source described onObserve => exact absurd hkind (h.kind described onObserve)
  | _ => trivial

end Quiet

/-- A binding with both monitors: its number and that of its channel, the policies for
attribute loads and for `getattr`, their side-calls, and what the binding runs. -/
structure Wiring where
  binding : Nat
  channel : Nat
  attributes : Nat
  getattr : Nat
  loads : NativeRef
  calls : NativeRef
  plain : Code
  code : Code
  scope : Scope

/-- The policies of a wiring. -/
def Wiring.policies (k : Wiring) : List Nat := [k.attributes, k.getattr]

/-- The binding of a wiring. -/
structure Binding.Fits (k : Wiring) (B : Binding) : Prop where
  plain : B.plain = k.plain
  instrumented : B.instrumented = some k.code
  scope : B.scope = k.scope
  channel : B.channel = k.channel
  attributes : B.attributes = some k.attributes
  getattr : B.getattr = some k.getattr

/-- The subscriptions of objects that report to a listener by a token. -/
def heard (objects : List ObjectCell) (token : Token) : Registry.Heard :=
  fun id attr s key => ∃ cell, objects[id]? = some cell ∧
    ⟨attr, s, .forward (some key) token⟩ ∈ cell.observers

/-- A session with models and records, in which callbacks do nothing. -/
structure Quiet (w : Session) : Prop where
  cells : ∀ (i : Nat) (cell : ObjectCell), w.objects[i]? = some cell → cell.Settled i
  sinks : ∀ (i : Nat) (c : Channel), w.channels[i]? = some c → c.sink.Idle
  bindings : ∀ (i : Nat) (B : Binding), w.bindings[i]? = some B → B.onInvalid.Idle

/-- A session with models and records, in which observers and channels do nothing but raise
flags, pass changes on and write them down. -/
structure Still (w : Session) : Prop where
  cells : ∀ (i : Nat) (cell : ObjectCell), w.objects[i]? = some cell → cell.Settled i
  sinks : ∀ (i : Nat) (c : Channel), w.channels[i]? = some c → c.sink.Idle

/-- No binding does anything when it becomes invalid. -/
def Mute (w : Session) : Prop :=
  ∀ (i : Nat) (B : Binding), w.bindings[i]? = some B → B.onInvalid.Idle

theorem Quiet.still {w : Session} (h : Quiet w) : Still w := ⟨h.cells, h.sinks⟩

/-- A still session in which a binding that exists is wired up. -/
structure Wired (k : Wiring) (w : Session) : Prop extends Still w where
  binding : ∃ B, w.bindings[k.binding]? = some B ∧ B.Fits k
  channel : ∃ g, w.channels[k.channel]? = some ⟨g, .binding k.binding⟩
  alive : w.bindingAlive k.binding = true
  loads : w.natives[k.loads.id]? = some (.attributeSite (.policy k.attributes))
  calls : w.natives[k.calls.id]? = some (.callSite (.policy k.getattr))
  policies : ∀ p ∈ k.policies, ∃ P, w.policies[p]? = some P ∧ P.busy = false ∧
    P.registry.token.channel = k.channel ∧
    P.registry.Sound (heard w.objects P.registry.token)

/-- A policy has a listener of the present generation at an attribute of an object. -/
def Tuned (k : Wiring) (w : Session) (p : Nat) (id : Nat) (attr : String) : Prop :=
  ∃ P, w.policies[p]? = some P ∧ P.registry.token = w.issue k.channel ∧
    P.registry.Listens (heard w.objects P.registry.token) id attr

/-- Objects with more observers, all of them of some kind. -/
def Extends (fresh : Nat → Observer Reaction → Prop) (objects objects' : List ObjectCell) : Prop :=
  ∃ more : Nat → List (Observer Reaction), (∀ i, ∀ ob ∈ more i, fresh i ob) ∧
    ∀ i, objects'[i]? = objects[i]?.map fun (cell : ObjectCell) =>
      ({ cell with observers := cell.observers ++ more i } : ObjectCell)

/-- An observer of one of some attributes that reports to a binding in the present generation of
its channel. -/
def Fresh (k : Wiring) (w : Session) (spots : Nat → String → Prop) (id : Nat)
    (ob : Observer Reaction) : Prop :=
  spots id ob.attr ∧ ∃ l, ob.action = .forward l (w.issue k.channel)

/-- What hookups of a binding may change: there are more observers, at some attributes, and more
subscriptions, and the binding's policies have other registries, in which no listener of the
present generation is lost. -/
structure Grows (k : Wiring) (spots : Nat → String → Prop) (w w' : Session) : Prop where
  rest : w' = { w with
    objects := w'.objects, policies := w'.policies, subscriptions := w'.subscriptions }
  cells : Extends (Fresh k w spots) w.objects w'.objects
  others : ∀ p, p ∉ k.policies → w'.policies[p]? = w.policies[p]?
  tuned : ∀ p id attr, Tuned k w p id attr → Tuned k w' p id attr

section Extension

variable {fresh fresh' : Nat → Observer Reaction → Prop}
  {objects objects' objects'' : List ObjectCell}

theorem Extends.refl (fresh : Nat → Observer Reaction → Prop) (objects : List ObjectCell) :
    Extends fresh objects objects := by
  refine ⟨fun _ => [], ?_, ?_⟩
  · intro i ob hob
    cases hob
  · intro i
    cases objects[i]? with
    | none => rfl
    | some cell => simp

theorem Extends.trans (h : Extends fresh objects objects')
    (h' : Extends fresh objects' objects'') : Extends fresh objects objects'' := by
  obtain ⟨more, hmore, hcells⟩ := h
  obtain ⟨more', hmore', hcells'⟩ := h'
  refine ⟨fun i => more i ++ more' i, ?_, ?_⟩
  · intro i ob hob
    rcases List.mem_append.mp hob with hob | hob
    · exact hmore i ob hob
    · exact hmore' i ob hob
  · intro i
    rw [hcells' i, hcells i]
    cases objects[i]? with
    | none => rfl
    | some cell => simp

theorem Extends.mono (h : Extends fresh objects objects')
    (hfresh : ∀ i ob, fresh i ob → fresh' i ob) : Extends fresh' objects objects' := by
  obtain ⟨more, hmore, hcells⟩ := h
  exact ⟨more, fun i ob hob => hfresh i ob (hmore i ob hob), hcells⟩

theorem Extends.heard (h : Extends fresh objects objects') {token : Token} {id : Nat}
    {attr : String} {s : Nat} {key : SlotKey} (hs : heard objects token id attr s key) :
    heard objects' token id attr s key := by
  obtain ⟨more, -, hcells⟩ := h
  obtain ⟨cell, hcell, hob⟩ := hs
  exact ⟨_, by rw [hcells, hcell]; rfl, List.mem_append_left _ hob⟩

/-- The observers of an object that was extended. -/
theorem Extends.observer (h : Extends fresh objects objects') {id : Nat} {cell' : ObjectCell}
    (hcell' : objects'[id]? = some cell') {ob : Observer Reaction} (hob : ob ∈ cell'.observers) :
    (∃ cell, objects[id]? = some cell ∧ ob ∈ cell.observers) ∨ fresh id ob := by
  obtain ⟨more, hmore, hcells⟩ := h
  rw [hcells, Option.map_eq_some_iff] at hcell'
  obtain ⟨cell, hcell, rfl⟩ := hcell'
  rcases List.mem_append.mp hob with hob | hob
  · exact Or.inl ⟨cell, hcell, hob⟩
  · exact Or.inr (hmore id ob hob)

/-- Objects stay settled if the observers that they gain are idle. -/
theorem Extends.settled (h : Extends fresh objects objects')
    (hidle : ∀ i ob, fresh i ob → ob.action.Idle)
    (hsettled : ∀ (i : Nat) (cell : ObjectCell), objects[i]? = some cell → cell.Settled i)
    {i : Nat} {cell' : ObjectCell} (hcell' : objects'[i]? = some cell') : cell'.Settled i := by
  obtain ⟨more, hmore, hcells⟩ := h
  rw [hcells, Option.map_eq_some_iff] at hcell'
  obtain ⟨cell, hcell, rfl⟩ := hcell'
  have hcell := hsettled i cell hcell
  refine ⟨hcell.id, hcell.kind, hcell.attrs, ?_⟩
  intro ob hob
  rcases List.mem_append.mp hob with hob | hob
  · exact hcell.observers ob hob
  · exact hidle i ob (hmore i ob hob)

/-- An object that is observed once more. -/
theorem Extends.observed (objects : List ObjectCell) {id : Nat} {ob : Observer Reaction}
    (hfresh : fresh id ob) :
    Extends fresh objects
      (objects.modify id fun cell => { cell with observers := cell.observers ++ [ob] }) := by
  refine ⟨fun i => if i = id then [ob] else [], ?_, ?_⟩
  · intro i ob' hob
    dsimp only at hob
    by_cases hi : i = id
    · rw [if_pos hi] at hob
      rwa [hi, List.mem_singleton.mp hob]
    · rw [if_neg hi] at hob
      cases hob
  · intro i
    rw [List.getElem?_modify]
    by_cases hi : i = id
    · subst hi
      simp
    · cases objects[i]? with
      | none => simp [Ne.symm hi]
      | some cell => simp [hi, Ne.symm hi]

end Extension

section Growth

variable {k : Wiring} {spots spots' : Nat → String → Prop} {w w' w'' : Session}

theorem Fresh.idle {id : Nat} {ob : Observer Reaction} (h : Fresh k w spots id ob) :
    ob.action.Idle := by
  obtain ⟨-, l, hl⟩ := h
  rw [hl]
  trivial

theorem Grows.refl (k : Wiring) (spots : Nat → String → Prop) (w : Session) :
    Grows k spots w w :=
  ⟨rfl, Extends.refl _ _, fun _ _ => rfl, fun _ _ _ h => h⟩

theorem Grows.issue (h : Grows k spots w w') (c : Nat) : w'.issue c = w.issue c := by
  rw [h.rest]
  rfl

theorem Grows.trans (h : Grows k spots w w') (h' : Grows k spots w' w'') :
    Grows k spots w w'' := by
  constructor
  · rw [h'.rest, h.rest]
  · have hcells := h'.cells
    unfold Fresh at hcells
    rw [h.issue] at hcells
    exact h.cells.trans hcells
  · exact fun p hp => (h'.others p hp).trans (h.others p hp)
  · exact fun p id attr ht => h'.tuned p id attr (h.tuned p id attr ht)

theorem Grows.mono (h : Grows k spots w w') (hspots : ∀ id a, spots id a → spots' id a) :
    Grows k spots' w w' :=
  ⟨h.rest, h.cells.mono fun i ob hob => ⟨hspots i ob.attr hob.1, hob.2⟩, h.others, h.tuned⟩

theorem Grows.unpinned {pins : List Pin} (h : Grows k spots { w with pins := pins } w') :
    Grows k spots w { w' with pins := w.pins } := by
  constructor
  · exact congrArg (fun v : Session => { v with pins := w.pins }) h.rest
  · exact h.cells
  · exact h.others
  · exact h.tuned

theorem Grows.names (h : Grows k spots w w') : w'.names = w.names := by
  rw [h.rest]

theorem Grows.attribute? (h : Grows k spots w w') : w'.attribute? = w.attribute? := by
  obtain ⟨more, -, hcells⟩ := h.cells
  funext o attr
  unfold Session.attribute? object?
  rw [hcells]
  cases w.objects[o.id]? <;> rfl

theorem Grows.declared? (h : Grows k spots w w') : w'.declared? = w.declared? := by
  obtain ⟨more, -, hcells⟩ := h.cells
  funext o attr
  unfold Session.declared? object?
  rw [hcells]
  cases w.objects[o.id]? <;> rfl

theorem Grows.kinds (h : Grows k spots w w') (i : Nat) :
    w'.objects[i]?.map ObjectCell.kind = w.objects[i]?.map ObjectCell.kind := by
  obtain ⟨more, -, hcells⟩ := h.cells
  rw [hcells]
  cases w.objects[i]? <;> rfl

end Growth

section Wires

variable {k : Wiring} {w w' : Session}

theorem Wired.pinned (h : Wired k w) (pins : List Pin) :
    Wired k { w with pins := pins ++ w.pins } :=
  ⟨⟨h.cells, h.sinks⟩, h.binding, h.channel, bindingAlive_of_pinned pins h.alive, h.loads, h.calls,
    h.policies⟩

theorem Wired.noted (h : Wired k w) (e : LogEntry) : Wired k (w.note e) :=
  ⟨⟨h.cells, h.sinks⟩, h.binding, h.channel, h.alive, h.loads, h.calls, h.policies⟩

/-- A binding stays wired up under other names and pins, as long as something holds it. -/
theorem Wired.moved (h : Wired k w) {names : Names} {pins : List Pin}
    (halive : bindingAlive { w with names := names, pins := pins } k.binding = true) :
    Wired k { w with names := names, pins := pins } :=
  ⟨⟨h.cells, h.sinks⟩, h.binding, h.channel, halive, h.loads, h.calls, h.policies⟩

/-- A binding is still there when fewer things are held on to, if it was before. -/
theorem Wired.unpinned (h : Wired k w') (hw : Wired k w) (hnames : w'.names = w.names) :
    Wired k { w' with pins := w.pins } := by
  apply h.moved
  have halive := hw.alive
  rw [bindingAlive, ← hnames] at halive
  exact halive

/-- A list with one element changed. -/
theorem getElem?_modify_some {α : Type} {l : List α} {f : α → α} {i j : Nat} {x : α}
    (h : (l.modify i f)[j]? = some x) : ∃ y, l[j]? = some y ∧ (x = f y ∨ x = y) := by
  rw [List.getElem?_modify] at h
  obtain ⟨y, hy, hx⟩ := Option.map_eq_some_iff.mp h
  split at hx
  · exact ⟨y, hy, Or.inl hx.symm⟩
  · exact ⟨y, hy, Or.inr hx.symm⟩

theorem Wired.modifyBinding (h : Wired k w) {f : Binding → Binding}
    (hfits : ∀ B : Binding, B.Fits k → (f B).Fits k) (b : Nat) :
    Wired k (w.modifyBinding b f) := by
  refine ⟨⟨h.cells, h.sinks⟩, ?_, h.channel, h.alive, h.loads, h.calls, h.policies⟩
  obtain ⟨B, hB, hB'⟩ := h.binding
  by_cases hb : b = k.binding
  · subst hb
    exact ⟨f B, by simp [Session.modifyBinding, hB], hfits B hB'⟩
  · refine ⟨B, ?_, hB'⟩
    rw [← hB]
    exact List.getElem?_modify_ne f w.bindings hb

/-- A binding with another result and other flags. -/
theorem Wired.flagged (h : Wired k w) (last : Binding → Option Outcome)
    (dirty evaluating : Binding → Bool) (b : Nat) :
    Wired k (w.modifyBinding b fun B =>
      { B with last := last B, dirty := dirty B, evaluating := evaluating B }) := by
  apply h.modifyBinding
  exact fun B hB =>
    ⟨hB.plain, hB.instrumented, hB.scope, hB.channel, hB.attributes, hB.getattr⟩

/-- Bindings stay mute if only their results and flags change. -/
theorem Mute.flagged (h : Mute w) (last : Binding → Option Outcome)
    (dirty evaluating : Binding → Bool) (b : Nat) :
    Mute (w.modifyBinding b fun B =>
      { B with last := last B, dirty := dirty B, evaluating := evaluating B }) := by
  intro i B hB
  obtain ⟨B', hB', rfl | rfl⟩ := getElem?_modify_some hB
  · exact h i B' hB'
  · exact h i B hB'

theorem Wired.resetChannel (h : Wired k w) (c : Nat) : Wired k (w.resetChannel c) := by
  refine ⟨⟨h.cells, ?_⟩, h.binding, ?_, h.alive, h.loads, h.calls, h.policies⟩
  · intro i d hd
    obtain ⟨d', hd', rfl | rfl⟩ := getElem?_modify_some hd
    · exact h.sinks i d' hd'
    · exact h.sinks i d hd'
  · obtain ⟨g, hg⟩ := h.channel
    by_cases hc : c = k.channel
    · subst hc
      exact ⟨g + 1, by simp [Session.resetChannel, modifyChannel, hg]⟩
    · refine ⟨g, ?_⟩
      rw [← hg]
      exact List.getElem?_modify_ne _ w.channels hc

theorem Wired.live (h : Wired k w) : ∃ B ∈ w.liveBindings, B.Fits k := by
  obtain ⟨B, hB, hfits⟩ := h.binding
  exact ⟨B, mem_liveBindings hB h.alive, hfits⟩

theorem Wired.channelAlive (h : Wired k w) : w.channelAlive k.channel = true := by
  obtain ⟨B, hB, hfits⟩ := h.live
  have halive := channelAlive_of_binding hB
  rwa [hfits.channel] at halive

theorem Wired.policyAlive (h : Wired k w) {p : Nat} (hp : p ∈ k.policies) :
    w.policyAlive p = true := by
  obtain ⟨B, hB, hfits⟩ := h.live
  apply policyAlive_of_binding hB
  rw [Binding.policies, hfits.attributes, hfits.getattr]
  exact hp

/-- The channel is there, so a token is connected if it is of the present generation. -/
theorem Wired.connected_iff (h : Wired k w) {token : Token} (ht : token.channel = k.channel) :
    w.connected token = true ↔ token = w.issue k.channel := by
  obtain ⟨channel, generation⟩ := token
  obtain rfl : channel = k.channel := ht
  simp [connected, h.channelAlive, issue, eq_comm]

theorem Wired.renew? (h : Wired k w) {token : Token} (ht : token.channel = k.channel) :
    w.renew? token = some (w.issue k.channel) := by
  rw [Session.renew?, ht, h.channelAlive, if_pos rfl]

/-- A policy with another registry of the present generation, which is sound and has lost no
listener of this generation. -/
theorem Wired.retune (h : Wired k w) {p : Nat} (hp : p ∈ k.policies) {P : Policy}
    (hP : w.policies[p]? = some P) {objects : List ObjectCell} {policies : List Policy}
    {r : Registry} {spots : Nat → String → Prop}
    (hobjects : Extends (Fresh k w spots) w.objects objects)
    (hself : policies[p]? = some { P with registry := r, busy := false })
    (hother : ∀ q, q ≠ p → policies[q]? = w.policies[q]?)
    (htoken : r.token = w.issue k.channel) (hsound : r.Sound (heard objects r.token))
    (hkept : P.registry.token = w.issue k.channel → ∀ id attr,
      P.registry.Listens (heard w.objects P.registry.token) id attr →
        r.Listens (heard objects r.token) id attr) (n : Nat) :
    Wired k { w with objects := objects, policies := policies, subscriptions := n } ∧
      Grows k spots w { w with objects := objects, policies := policies, subscriptions := n } := by
  have hmono : ∀ token id attr s key, heard w.objects token id attr s key →
      heard objects token id attr s key := fun _ _ _ _ _ hs => hobjects.heard hs
  constructor
  · refine ⟨⟨?_, h.sinks⟩, h.binding, h.channel, h.alive, h.loads, h.calls, ?_⟩
    · exact fun i cell hcell => hobjects.settled (fun _ _ hob => hob.idle) h.cells hcell
    · intro q hq
      by_cases hqp : q = p
      · subst hqp
        exact ⟨_, hself, rfl, by rw [htoken]; rfl, hsound⟩
      · obtain ⟨Q, hQ, hbusy, hchannel, hQsound⟩ := h.policies q hq
        exact ⟨Q, by rw [hother q hqp, hQ], hbusy, hchannel,
          hQsound.mono fun id attr s key _ => hmono _ id attr s key⟩
  · refine ⟨rfl, hobjects, ?_, ?_⟩
    · intro q hq
      apply hother
      rintro rfl
      exact hq hp
    · rintro q id attr ⟨Q, hQ, hQtoken, hlistens⟩
      by_cases hqp : q = p
      · subst hqp
        obtain rfl : P = Q := by
          rw [hP] at hQ
          exact Option.some.inj hQ
        exact ⟨_, hself, htoken, hkept hQtoken id attr hlistens⟩
      · refine ⟨Q, by rw [hother q hqp, hQ], hQtoken, ?_⟩
        exact hlistens.mono fun s key _ => hmono _ id attr s key

end Wires

section Hookups

variable {k : Wiring} {spots : Nat → String → Prop} {w : Session} {p : Nat} {P : Policy}
  {o : ObjectRef} {cell : ObjectCell}

/-- The registry with which a hookup goes on. -/
theorem Wired.resync (h : Wired k w) (hchannel : P.registry.token.channel = k.channel)
    (hsound : P.registry.Sound (heard w.objects P.registry.token)) :
    ∃ r, P.registry.resync (w.connected P.registry.token) (w.renew? P.registry.token) = (r, true) ∧
      r.token = w.issue k.channel ∧ r.Sound (heard w.objects r.token) ∧
      (P.registry.token = w.issue k.channel → r = P.registry) := by
  have hiff := h.connected_iff hchannel
  obtain ⟨r, hr, hrsound, hrtoken, hsame⟩ :=
    @Registry.Sound.resync P.registry _ (heard w.objects (w.issue k.channel)) hsound
      (w.connected P.registry.token) (w.issue k.channel)
  rw [h.renew? hchannel]
  refine ⟨r, hr, ?_⟩
  by_cases hconnected : w.connected P.registry.token = true
  · have htoken := hiff.mp hconnected
    rw [if_pos hconnected] at hrsound hrtoken
    rw [hrtoken]
    exact ⟨htoken, hrsound, fun _ => hsame hconnected⟩
  · rw [if_neg hconnected] at hrsound hrtoken
    rw [hrtoken]
    exact ⟨rfl, hrsound, fun htoken => absurd (hiff.mpr htoken) hconnected⟩

/-- An object that runs no script while it is observed gains an observer, and the policy a
listener. -/
theorem attachListener_eq (re : Reentry) (r : Registry) (subject : SlotKey) (attr : String)
    (hkind : ∀ cell, w.object? o = some cell → cell.kind.Idle) :
    (w.attachListener re p r subject o attr).1 = { w with
      objects := w.objects.modify o.id fun cell => { cell with
        observers := cell.observers ++
          [⟨attr, w.subscriptions, .forward (some r.listeners.nextKey) r.token⟩] }
      policies := w.policies.modify p fun policy => { policy with
        registry := r.attach ⟨subject, attr, w.subscriptions⟩, busy := false }
      subscriptions := w.subscriptions + 1 } := by
  have hobserve : ∀ (v : Session) (reaction : Reaction), v.objects = w.objects →
      v.observe re o attr reaction = v.subscribe (.object o.id) attr reaction := by
    intro v reaction hv
    have hcell : v.object? o = w.object? o := by
      rw [object?, object?, hv]
    unfold observe
    cases hw : w.object? o with
    | none => rw [hcell, hw]
    | some cell =>
        obtain ⟨ref, kind, attrs, observers⟩ := cell
        rw [hcell, hw]
        cases kind with
        | source described onObserve =>
            obtain rfl : onObserve = [] := hkind _ hw
            rfl
        | _ => rfl
  unfold attachListener
  dsimp only
  rw [hobserve (w.modifyPolicy p fun policy => { policy with registry := r, busy := true }) _ rfl]
  simp only [subscribe, modifyObservers, modifyObject, modifyPolicy, List.modify_modify_eq]
  rfl

/-- A policy with another registry, beside the other policies. -/
theorem getElem?_modifyPolicy (hP : w.policies[p]? = some P) (f : Policy → Policy) :
    (w.policies.modify p f)[p]? = some (f P) ∧
      ∀ q, q ≠ p → (w.policies.modify p f)[q]? = w.policies[q]? := by
  constructor
  · rw [List.getElem?_modify_eq, hP]
    rfl
  · intro q hq
    exact List.getElem?_modify_ne f w.policies (Ne.symm hq)

variable {r : Registry} {subject : SlotKey} {o' : ObjectRef} {attr : String}

/-- A policy that had a listener is tuned. -/
theorem Wired.relisten (h : Wired k w) (hp : p ∈ k.policies) (hP : w.policies[p]? = some P)
    (hbusy : P.busy = false)
    (htoken : r.token = w.issue k.channel) (hsound : r.Sound (heard w.objects r.token))
    (hkept : P.registry.token = w.issue k.channel → ∀ id a,
      P.registry.Listens (heard w.objects P.registry.token) id a →
        r.Listens (heard w.objects r.token) id a)
    (hsubject : r.subjects.slots.get? subject = some o') {key : SlotKey}
    (hkey : Assoc.get? (subject, attr) r.index = some key) :
    Wired k (w.setRegistry p r) ∧ Grows k spots w (w.setRegistry p r) ∧
      Tuned k (w.setRegistry p r) p o'.id attr := by
  obtain ⟨hself, hother⟩ := getElem?_modifyPolicy hP fun q => { q with registry := r }
  have hset : (w.policies.modify p fun q => { q with registry := r })[p]?
      = some { P with registry := r, busy := false } := by
    rw [hself, ← hbusy]
  obtain ⟨hwired, hgrows⟩ :=
    h.retune hp hP (Extends.refl _ _) hset hother htoken hsound hkept w.subscriptions
  obtain ⟨o'', l, hget, hl, hs⟩ := hsound.indexed subject attr key hkey
  obtain rfl : o' = o'' := Option.some.inj (hsubject.symm.trans hget)
  exact ⟨hwired, hgrows, _, hset, htoken, key, l, hl, hs⟩

/-- A policy that gains a listener is tuned. -/
theorem Wired.attach (h : Wired k w) (hp : p ∈ k.policies) (hP : w.policies[p]? = some P)
    (hcell : w.object? o = some cell) (htoken : r.token = w.issue k.channel)
    (hsound : r.Sound (heard w.objects r.token))
    (hkept : P.registry.token = w.issue k.channel → ∀ id a,
      P.registry.Listens (heard w.objects P.registry.token) id a →
        r.Listens (heard w.objects r.token) id a)
    (hsubject : r.subjects.slots.get? subject = some o') (hid : o'.id = o.id)
    (hspot : spots o.id attr) (re : Reentry) :
    Wired k (w.attachListener re p r subject o attr).1 ∧
      Grows k spots w (w.attachListener re p r subject o attr).1 ∧
      Tuned k (w.attachListener re p r subject o attr).1 p o.id attr := by
  have hkind : ∀ cell, w.object? o = some cell → cell.kind.Idle :=
    fun cell hcell => (h.cells o.id cell hcell).idle
  rw [attachListener_eq re _ subject attr hkind]
  let ob : Observer Reaction :=
    ⟨attr, w.subscriptions, .forward (some r.listeners.nextKey) r.token⟩
  have hextends : Extends (Fresh k w spots) w.objects (w.objects.modify o.id fun cell =>
      { cell with observers := cell.observers ++ [ob] }) :=
    Extends.observed w.objects ⟨hspot, some r.listeners.nextKey, by rw [← htoken]⟩
  have hnew : heard (w.objects.modify o.id fun cell =>
      { cell with observers := cell.observers ++ [ob] }) r.token o'.id attr w.subscriptions
        r.listeners.nextKey := by
    refine ⟨{ cell with observers := cell.observers ++ [ob] }, ?_, by simp [ob]⟩
    rw [object?] at hcell
    rw [hid, List.getElem?_modify_eq, hcell]
    rfl
  obtain ⟨hattached, htuned, hlater⟩ :=
    @Registry.Sound.attach _ _ _ hsound ⟨subject, attr, w.subscriptions⟩ o' hsubject
      (fun _ _ _ _ hs => hextends.heard hs) hnew
  obtain ⟨hset, hother⟩ := getElem?_modifyPolicy hP fun q =>
    { q with registry := r.attach ⟨subject, attr, w.subscriptions⟩, busy := false }
  obtain ⟨hwired, hgrows⟩ := h.retune hp hP hextends hset hother htoken hattached
    (fun ht id a hl => hlater id a (hkept ht id a hl)) (w.subscriptions + 1)
  rw [hid] at htuned
  exact ⟨hwired, hgrows, _, hset, htoken, htuned⟩

/-- **After a hookup the policy is tuned** to the attribute. -/
theorem Wired.listen (h : Wired k w) (hp : p ∈ k.policies) (ho : AtHome o)
    (halive : ∀ o', o'.id = o.id → w.objectAlive o' = true) (hcell : w.object? o = some cell)
    {attr : String} (hspot : spots o.id attr) (re : Reentry) :
    Wired k (w.listen re p o attr).1 ∧ Grows k spots w (w.listen re p o attr).1 ∧
      Tuned k (w.listen re p o attr).1 p o.id attr := by
  obtain ⟨P, hP, hbusy, hchannel, hsound⟩ := h.policies p hp
  obtain ⟨r, hr, htoken, hrsound, hsame⟩ := h.resync hchannel hsound
  obtain ⟨subjects, subject, hlookup, hfound, o', hsubject, hid⟩ :=
    @Registry.Sound.lookup r _ hrsound w.objectAlive o attr ho halive
  have hkept : P.registry.token = w.issue k.channel → ∀ id a,
      P.registry.Listens (heard w.objects P.registry.token) id a →
        ({ r with subjects := subjects } : Registry).Listens (heard w.objects r.token) id a := by
    intro ht id a hl
    rw [hsame ht]
    exact hl
  have htoken' : ({ r with subjects := subjects } : Registry).token = w.issue k.channel := htoken
  unfold Session.listen
  rw [hP]
  dsimp only
  rw [hr]
  dsimp only
  rw [hlookup]
  cases hkey : Assoc.get? (subject, attr) r.index with
  | some key =>
      rw [← hid]
      exact h.relisten hp hP hbusy htoken' hfound hkept hsubject hkey
  | none => exact h.attach hp hP hcell htoken' hfound hkept hsubject hid hspot re

theorem Wired.hookUp (h : Wired k w) (hp : p ∈ k.policies) {v : Value}
    (hv : ∀ o, v = .object o → AtHome o ∧ ∃ u, .value u ∈ w.pins ∧ o ∈ u.objects)
    {attr : String} (hspot : ∀ o, v = .object o → spots o.id attr) (re : Reentry) :
    Wired k (w.hookUp re p v attr).1 ∧ Grows k spots w (w.hookUp re p v attr).1 ∧
      ∀ o, v = .object o → w.declared? o attr = some .observable →
        Tuned k (w.hookUp re p v attr).1 p o.id attr := by
  cases v with
  | object o =>
      obtain ⟨ho, u, hpin, hu⟩ := hv o rfl
      simp only [Session.hookUp]
      cases hcell : w.object? o with
      | none =>
          have hdeclared : w.declared? o attr = none := by
            rw [Session.declared?, hcell]
            rfl
          rw [hdeclared]
          refine ⟨h, Grows.refl k spots w, ?_⟩
          rintro o' ho' hobservable
          cases ho'
          rw [hdeclared] at hobservable
          cases hobservable
      | some cell =>
          have hid := (h.cells o.id cell hcell).id
          obtain ⟨hwired, hgrows, htuned⟩ :=
            h.listen hp ho (objectAlive_of_pinned hpin hu hcell hid) hcell (hspot o rfl) re
          split
          · refine ⟨hwired, hgrows, ?_⟩
            rintro o' ho' -
            cases ho'
            exact htuned
          · next d hne hdeclared =>
              refine ⟨h, Grows.refl k spots w, ?_⟩
              rintro o' ho' hobservable
              cases ho'
              rw [hdeclared] at hobservable
              exact absurd (Option.some.inj hobservable) hne
          · next hdeclared =>
              refine ⟨h, Grows.refl k spots w, ?_⟩
              rintro o' ho' hobservable
              cases ho'
              rw [hdeclared] at hobservable
              cases hobservable
  | _ =>
      refine ⟨h, Grows.refl k spots w, ?_⟩
      rintro o' ho'
      cases ho'

/-- **After an access was shown to a policy**, the policy is tuned to the attribute if that can
be observed. -/
theorem Wired.see (h : Wired k w) (hp : p ∈ k.policies) {v : Value}
    (hv : ∀ o, v = .object o → AtHome o ∧ ∃ u, .value u ∈ w.pins ∧ o ∈ u.objects)
    {attr : String} (hspot : ∀ o, v = .object o → spots o.id attr) (re : Reentry) :
    Wired k (w.see re p v attr) ∧ Grows k spots w (w.see re p v attr) ∧
      ∀ o, v = .object o → w.declared? o attr = some .observable →
        Tuned k (w.see re p v attr) p o.id attr := by
  obtain ⟨P, hP, hbusy, -⟩ := h.policies p hp
  have hidle : w.isBusy p = false := by
    rw [isBusy, hP]
    exact hbusy
  have hpinned : ∀ o, v = .object o → AtHome o ∧
      ∃ u, .value u ∈ [Pin.policy p] ++ w.pins ∧ o ∈ u.objects := by
    intro o ho
    obtain ⟨hhome, u, hpin, hu⟩ := hv o ho
    exact ⟨hhome, u, List.mem_append_right _ hpin, hu⟩
  obtain ⟨hwired, hgrows, htuned⟩ :=
    (h.pinned [Pin.policy p]).hookUp hp hpinned hspot re
  unfold Session.see
  rw [h.policyAlive hp, hidle]
  exact ⟨hwired.unpinned h hgrows.names, hgrows.unpinned, htuned⟩

end Hookups

end Session
end TrackedExpr
