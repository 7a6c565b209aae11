import TrackedExpr.Proofs.SideCalls
import TrackedExpr.Session.Notification

/-!
# Changes reach the binding

In a session whose callbacks do nothing a change raises dirty flags and is written
down, and nothing else happens.  A binding is dirty after a change of an attribute
to which one of its policies listens.

**Definitions.**
* `Dirty`: a binding is dirty;
* `Stirs`: what callbacks that do nothing may change;
* `Hushed`: a session in which neither a channel nor a binding runs anything;
* `Assigned`: what an assignment may change;
* `assigned`: the session after an assignment by a program that holds on to object and value;
* `reached`: the observers that a change reaches;
* `Reports`: whether an assignment reports a change.

**Results.**
* `Hushed.reactAll`: observers react by stirring, and a connected one makes the binding
  dirty;
* `Wired.pruned`: the observers of a binding survive when others are removed;
* `dispatch_eq`, `assign_of_reports`: a change is shown to the observers that it reaches, and an
  assignment may report one;
* `Wired.dispatch`, `Wired.assign`: a change makes the binding dirty if it listens to the
  attribute.
-/

namespace TrackedExpr
namespace Session

/-- The binding of a wiring is dirty. -/
def Dirty (k : Wiring) (w : Session) : Prop :=
  ∃ B, w.bindings[k.binding]? = some B ∧ B.dirty = true

/-- What callbacks that do nothing may change: the log, the recorders, and dirty flags, which
are only raised. -/
structure Stirs (w w' : Session) : Prop where
  rest : w' = { w with bindings := w'.bindings, recorders := w'.recorders, log := w'.log }
  bindings : ∃ raised : Nat → Bool, ∀ i : Nat, w'.bindings[i]? = w.bindings[i]?.map
    fun (B : Binding) => ({ B with dirty := B.dirty || raised i } : Binding)

section Stirring

variable {k : Wiring} {w w' w'' : Session}

theorem Stirs.of_bindings (h : w' = { w with recorders := w'.recorders, log := w'.log }) :
    Stirs w w' := by
  have hbindings : w'.bindings = w.bindings := by
    rw [h]
  constructor
  · rw [hbindings]
    exact h
  · refine ⟨fun _ => false, ?_⟩
    intro i
    rw [hbindings]
    cases w.bindings[i]? <;> simp

theorem Stirs.refl (w : Session) : Stirs w w := Stirs.of_bindings rfl

theorem Stirs.trans (h : Stirs w w') (h' : Stirs w' w'') : Stirs w w'' := by
  obtain ⟨raised, hraised⟩ := h.bindings
  obtain ⟨raised', hraised'⟩ := h'.bindings
  constructor
  · rw [h'.rest, h.rest]
  · refine ⟨fun i => raised i || raised' i, ?_⟩
    intro i
    rw [hraised' i, hraised i]
    cases w.bindings[i]? <;> simp [Bool.or_assoc]

theorem Stirs.unpinned {pins : List Pin} (h : Stirs { w with pins := pins } w') :
    Stirs w { w' with pins := w.pins } :=
  ⟨congrArg (fun v : Session => { v with pins := w.pins }) h.rest, h.bindings⟩

/-- A binding that is made dirty. -/
theorem Stirs.raise (w : Session) (b : Nat) :
    Stirs w (w.modifyBinding b fun c => { c with dirty := true }) := by
  constructor
  · rfl
  · refine ⟨fun i => decide (i = b), ?_⟩
    intro i
    by_cases hi : i = b
    · subst hi
      simp only [modifyBinding, List.getElem?_modify_eq]
      cases w.bindings[i]? <;> simp
    · have hne := List.getElem?_modify_ne (fun c : Binding => { c with dirty := true })
        w.bindings (Ne.symm hi)
      rw [modifyBinding, hne]
      cases w.bindings[i]? <;> simp [hi]

/-- A binding stays as it is, but for whether it is dirty. -/
theorem Stirs.binding (h : Stirs w w') {i : Nat} {B : Binding} (hB : w.bindings[i]? = some B) :
    ∃ dirty, w'.bindings[i]? = some { B with dirty := dirty } := by
  obtain ⟨raised, hraised⟩ := h.bindings
  exact ⟨B.dirty || raised i, by rw [hraised, hB]; rfl⟩

theorem Stirs.fits (h : Stirs w w') (hB : ∃ B, w.bindings[k.binding]? = some B ∧ B.Fits k) :
    ∃ B, w'.bindings[k.binding]? = some B ∧ B.Fits k := by
  obtain ⟨B, hB, hfits⟩ := hB
  obtain ⟨dirty, hB'⟩ := h.binding hB
  exact ⟨_, hB', hfits.plain, hfits.instrumented, hfits.scope, hfits.channel, hfits.attributes,
    hfits.getattr⟩

theorem Stirs.dirty (h : Stirs w w') (hdirty : Dirty k w) : Dirty k w' := by
  obtain ⟨raised, hraised⟩ := h.bindings
  obtain ⟨B, hB, hd⟩ := hdirty
  exact ⟨_, by rw [hraised, hB]; rfl, by simp [hd]⟩

theorem Stirs.issue (h : Stirs w w') (c : Nat) : w'.issue c = w.issue c := by
  rw [h.rest]
  rfl

theorem Stirs.tuned (h : Stirs w w') {p id : Nat} {attr : String} (ht : Tuned k w p id attr) :
    Tuned k w' p id attr := by
  rw [h.rest]
  exact ht

theorem Stirs.wired (h : Stirs w w') (hw : Wired k w) : Wired k w' := by
  have hbinding := h.fits hw.binding
  rw [h.rest]
  exact ⟨⟨hw.cells, hw.sinks⟩, hbinding, hw.channel, hw.alive, hw.loads, hw.calls, hw.policies⟩

theorem Stirs.mute (h : Stirs w w') (hm : Mute w) : Mute w' := by
  obtain ⟨raised, hraised⟩ := h.bindings
  intro i B hB
  rw [hraised, Option.map_eq_some_iff] at hB
  obtain ⟨B, hB, rfl⟩ := hB
  exact hm i B hB

/-- A session in which neither a channel nor a binding runs anything. -/
structure Hushed (w : Session) : Prop where
  sinks : ∀ (i : Nat) (c : Channel), w.channels[i]? = some c → c.sink.Idle
  mute : Mute w

theorem Stirs.hushed (h : Stirs w w') (hw : Hushed w) : Hushed w' := by
  refine ⟨?_, h.mute hw.mute⟩
  rw [h.rest]
  exact hw.sinks

end Stirring

section Reactions

variable {k : Wiring} {w : Session} (re : Reentry)

theorem Mute.reactToInvalidation (hm : Mute w) {b : Nat} {B : Binding}
    (hB : w.bindings[b]? = some B) (change : Change) :
    Stirs w (w.reactToInvalidation re b B change) := by
  have hidle := hm b B hB
  unfold Session.reactToInvalidation
  cases hinvalid : B.onInvalid with
  | script id actions =>
      rw [hinvalid] at hidle
      obtain rfl : actions = [] := hidle
      exact Stirs.of_bindings rfl
  | record r => exact Stirs.of_bindings rfl
  | rerun id actions =>
      rw [hinvalid] at hidle
      exact hidle.elim

/-- An invalid binding is dirty. -/
theorem Mute.invalidate (hm : Mute w) (b : Nat) (change : Change) :
    Stirs w (w.invalidate re b change) ∧
      (Wired k w → b = k.binding → Dirty k (w.invalidate re b change)) := by
  have hraise := Stirs.raise w b
  have hdirty : Wired k w → b = k.binding →
      Dirty k (w.modifyBinding b fun c => { c with dirty := true }) := by
    rintro h rfl
    obtain ⟨B, hB, -⟩ := h.binding
    exact ⟨{ B with dirty := true }, by simp [Session.modifyBinding, hB], rfl⟩
  unfold Session.invalidate
  dsimp only
  split
  · exact ⟨hraise, hdirty⟩
  · next B hB =>
      split
      · exact ⟨hraise, hdirty⟩
      · have hreact := (hraise.mute hm).reactToInvalidation re hB change
        exact ⟨hraise.trans hreact, fun h hb => hreact.dirty (hdirty h hb)⟩

theorem Mute.receive (hm : Mute w) (event : Event) {sink : Sink} (hsink : sink.Idle) :
    Stirs w (w.receive re event sink) ∧
      (Wired k w → sink = .binding k.binding → Dirty k (w.receive re event sink)) := by
  cases sink with
  | script id actions =>
      obtain rfl : actions = [] := hsink
      exact ⟨Stirs.of_bindings rfl, fun _ => nofun⟩
  | record r => exact ⟨Stirs.of_bindings rfl, fun _ => nofun⟩
  | binding b =>
      have hpinned : Mute { w with pins := [Pin.binding b] ++ w.pins } := hm
      unfold Session.receive
      dsimp only
      split
      · obtain ⟨hstirs, hdirty⟩ := hpinned.invalidate (k := k) re b event.change
        refine ⟨hstirs.unpinned, ?_⟩
        intro h hb
        exact hdirty (h.pinned [Pin.binding b]) (Sink.binding.inj hb)
      · next hgone =>
          refine ⟨Stirs.refl w, ?_⟩
          intro h hb
          rw [Sink.binding.inj hb] at hgone
          exact absurd h.alive hgone

theorem Hushed.deliver (hw : Hushed w) (c : Nat) (event : Event) :
    Stirs w (w.deliver re c event) ∧
      (Wired k w → c = k.channel → Dirty k (w.deliver re c event)) := by
  unfold Session.deliver
  cases hc : w.channels[c]? with
  | none =>
      refine ⟨Stirs.refl w, ?_⟩
      rintro h rfl
      obtain ⟨g, hg⟩ := h.channel
      rw [hc] at hg
      cases hg
  | some channel =>
      have hpinned : Mute { w with pins := [Pin.channel c] ++ w.pins } := hw.mute
      obtain ⟨hstirs, hdirty⟩ :=
        hpinned.receive (k := k) re event (hw.sinks c channel hc)
      refine ⟨hstirs.unpinned, ?_⟩
      rintro h rfl
      obtain ⟨g, hg⟩ := h.channel
      obtain rfl := Option.some.inj (hc.symm.trans hg)
      exact hdirty (h.pinned [Pin.channel k.channel]) rfl

theorem Hushed.notify (hw : Hushed w) (token : Token) (event : Event) :
    Stirs w (w.notify re token event).1 ∧
      (Wired k w → token = w.issue k.channel → Dirty k (w.notify re token event).1) := by
  unfold Session.notify
  by_cases hconnected : w.connected token = true
  · rw [if_pos hconnected]
    obtain ⟨hstirs, hdirty⟩ := hw.deliver (k := k) re token.channel event
    refine ⟨hstirs, ?_⟩
    rintro h rfl
    exact hdirty h rfl
  · rw [if_neg hconnected]
    refine ⟨Stirs.refl w, ?_⟩
    rintro h rfl
    exact absurd ((h.connected_iff rfl).mpr rfl) hconnected

theorem Hushed.react (hw : Hushed w) (change : Change) {action : Reaction}
    (hidle : action.Idle) :
    Stirs w (w.react re change action) ∧ (Wired k w →
      ∀ l, action = .forward l (w.issue k.channel) → Dirty k (w.react re change action)) := by
  cases action with
  | script id actions =>
      obtain rfl : actions = [] := hidle
      exact ⟨Stirs.of_bindings rfl, fun _ => nofun⟩
  | forward listener token =>
      obtain ⟨hstirs, hdirty⟩ := hw.notify (k := k) re token ⟨listener, change⟩
      refine ⟨hstirs, ?_⟩
      intro h l hl
      exact hdirty h (Reaction.forward.inj hl).2

/-- **Observers stir**, and one that reports to the binding's channel makes the binding dirty. -/
theorem Hushed.reactAll (change : Change) {obs : List (Observer Reaction)}
    (hidle : ∀ ob ∈ obs, ob.action.Idle) : ∀ {w : Session}, Hushed w →
      Stirs w (w.reactAll re change obs) ∧ (Wired k w →
        ∀ ob ∈ obs, ∀ l, ob.action = .forward l (w.issue k.channel) →
          Dirty k (w.reactAll re change obs)) := by
  induction obs with
  | nil => exact fun _ => ⟨Stirs.refl _, fun _ ob hob => absurd hob List.not_mem_nil⟩
  | cons first rest ih =>
      intro w hw
      let pins := (first :: rest).map fun ob => Pin.subscription ob.subscription
      have hpinned : Hushed { w with pins := pins ++ w.pins } := ⟨hw.sinks, hw.mute⟩
      obtain ⟨hstirs, hdirty⟩ :=
        hpinned.react (k := k) re change (hidle first List.mem_cons_self)
      have hstirs' : Stirs w (w.keeping pins fun w => w.react re change first.action) :=
        hstirs.unpinned
      obtain ⟨hrest, hlater⟩ :=
        ih (fun ob hob => hidle ob (List.mem_cons_of_mem _ hob)) (hstirs'.hushed hw)
      refine ⟨hstirs'.trans hrest, ?_⟩
      intro h ob hob l hl
      rcases List.mem_cons.mp hob with rfl | hob
      · exact hrest.dirty (hdirty (h.pinned pins) l hl)
      · rw [← hstirs'.issue k.channel] at hl
        exact hlater (hstirs'.wired h) ob hob l hl

end Reactions

/-- What an assignment to an attribute may change, seen from a binding: no other attribute, no
kind of object, and nothing about the binding but that it may become dirty. -/
structure Assigned (k : Wiring) (o : ObjectRef) (attr : String) (w w' : Session) : Prop where
  wired : Wired k w'
  patience : w'.patience = w.patience
  names : w'.names = w.names
  kinds : ∀ i : Nat, w'.objects[i]?.map ObjectCell.kind = w.objects[i]?.map ObjectCell.kind
  elsewhere : ∀ (x : ObjectRef) (a : String), x.id ≠ o.id ∨ a ≠ attr →
    w'.attribute? x a = w.attribute? x a
  last : w'.bindings[k.binding]?.map Binding.last = w.bindings[k.binding]?.map Binding.last
  dirty : Dirty k w → Dirty k w'
  heeds : ∀ (x : ObjectRef) (a : String), Heeds k w x a → Heeds k w' x a

section Assignments

variable {k : Wiring} {w w' w'' : Session} {o : ObjectRef} {attr : String}

theorem Assigned.trans (h : Assigned k o attr w w') (h' : Assigned k o attr w' w'') :
    Assigned k o attr w w'' where
  wired := h'.wired
  patience := h'.patience.trans h.patience
  names := h'.names.trans h.names
  kinds := fun i => (h'.kinds i).trans (h.kinds i)
  elsewhere := fun x a hx => (h'.elsewhere x a hx).trans (h.elsewhere x a hx)
  last := h'.last.trans h.last
  dirty := fun hd => h'.dirty (h.dirty hd)
  heeds := fun x a hx => h'.heeds x a (h.heeds x a hx)

theorem Assigned.unpinned {pins : List Pin} (h : Assigned k o attr { w with pins := pins } w')
    (hw : Wired k w) : Assigned k o attr w { w' with pins := w.pins } :=
  ⟨h.wired.unpinned hw h.names, h.patience, h.names, h.kinds, h.elsewhere, h.last, h.dirty,
    h.heeds⟩

theorem Stirs.assigned (h : Stirs w w') (hw : Wired k w) : Assigned k o attr w w' where
  wired := h.wired hw
  patience := by rw [h.rest]
  names := by rw [h.rest]
  kinds := by
    rw [h.rest]
    exact fun _ => rfl
  elsewhere := by
    rw [h.rest]
    exact fun _ _ _ => rfl
  last := by
    obtain ⟨raised, hraised⟩ := h.bindings
    rw [hraised]
    cases w.bindings[k.binding]? <;> rfl
  dirty := h.dirty
  heeds := by
    rintro x a ⟨p, hp, ht⟩
    exact ⟨p, hp, h.tuned ht⟩

/-- The session after an assignment to an attribute of a model. -/
def assigned (re : Reentry) (o : ObjectRef) (schema : Schema) (attr : String) (v : Value)
    (w : Session) : Session :=
  (w.holding (pinValues [.object o, v]) (assign re o schema attr v)).1

/-- A session in which an attribute of an object has another value. -/
def putAt (w : Session) (o : ObjectRef) (attr : String) (v : Value) : Session :=
  w.modifyObject o.id fun cell => { cell with attrs := Assoc.put attr v cell.attrs }

/-- A session in which the observers of an object that nobody holds are removed. -/
def pruneAt (w : Session) (id : Nat) : Session :=
  w.modifyObservers (Observers.prune fun s => s ∈ w.heldSubscriptions) (.object id)

/-- No other attribute of any object changes. -/
theorem attribute?_putAt_ne {v : Value} {x : ObjectRef} {a : String} (h : x.id ≠ o.id ∨ a ≠ attr) :
    (w.putAt o attr v).attribute? x a = w.attribute? x a := by
  unfold attribute? object? putAt modifyObject
  rw [List.getElem?_modify]
  cases w.objects[x.id]? with
  | none => rfl
  | some cell =>
      rcases h with hx | ha
      · simp [Ne.symm hx]
      · by_cases hi : o.id = x.id <;> simp [hi, Assoc.get?_put_ne ha]

theorem attribute?_putAt_self {v : Value} {x : ObjectRef} (hid : x.id = o.id)
    (ho : w.object? o ≠ none) : (w.putAt o attr v).attribute? x attr = some v := by
  unfold object? at ho
  unfold attribute? object? putAt modifyObject
  rw [List.getElem?_modify, hid]
  cases hcell : w.objects[o.id]? with
  | none => exact absurd hcell ho
  | some cell => simp

theorem Still.putAt (h : Still w) {v : Value} (hv : v.MadeOf AtHome) :
    Still (w.putAt o attr v) := by
  refine ⟨?_, h.sinks⟩
  intro i cell hcell
  obtain ⟨cell', hcell', rfl | rfl⟩ := getElem?_modify_some hcell
  · have hsettled := h.cells i cell' hcell'
    refine ⟨hsettled.id, hsettled.kind, ?_, hsettled.observers⟩
    intro a u hu
    by_cases ha : a = attr
    · subst ha
      obtain rfl : v = u := by simpa using hu
      exact hv
    · rw [Assoc.get?_put_ne ha] at hu
      exact hsettled.attrs a u hu
  · exact h.cells i cell hcell'

theorem Still.pruneAt (h : Still w) (id : Nat) : Still (w.pruneAt id) := by
  refine ⟨?_, h.sinks⟩
  intro i cell hcell
  obtain ⟨cell', hcell', rfl | rfl⟩ := getElem?_modify_some hcell
  · have hsettled := h.cells i cell' hcell'
    refine ⟨hsettled.id, hsettled.kind, hsettled.attrs, ?_⟩
    exact fun ob hob => hsettled.observers ob (List.mem_of_mem_filter hob)
  · exact h.cells i cell hcell'

/-- Objects of the same kinds, on which every listener of the binding is heard as before. -/
theorem Wired.assigned (h : Wired k w) {objects : List ObjectCell}
    (hcells : ∀ (i : Nat) (cell : ObjectCell), objects[i]? = some cell → cell.Settled i)
    (hkinds : ∀ i : Nat, objects[i]?.map ObjectCell.kind = w.objects[i]?.map ObjectCell.kind)
    (helsewhere : ∀ (x : ObjectRef) (a : String), x.id ≠ o.id ∨ a ≠ attr →
      attribute? { w with objects := objects } x a = w.attribute? x a)
    (hheard : ∀ p ∈ k.policies, ∀ P, w.policies[p]? = some P → ∀ id a s key,
      s ∈ P.registry.subscriptions → heard w.objects P.registry.token id a s key →
        heard objects P.registry.token id a s key) :
    Assigned k o attr w { w with objects := objects } where
  wired := by
    refine ⟨⟨hcells, h.sinks⟩, h.binding, h.channel, h.alive, h.loads, h.calls, ?_⟩
    intro p hp
    obtain ⟨P, hP, hbusy, hchannel, hsound⟩ := h.policies p hp
    exact ⟨P, hP, hbusy, hchannel, hsound.mono (hheard p hp P hP)⟩
  patience := rfl
  names := rfl
  kinds := hkinds
  elsewhere := helsewhere
  last := rfl
  dirty := fun hd => hd
  heeds := by
    rintro x a ⟨p, hp, P, hP, htoken, hlistens⟩
    exact ⟨p, hp, P, hP, htoken, hlistens.mono (hheard p hp P hP x.id a)⟩

/-- The policies of a binding hold the subscriptions of their listeners. -/
theorem Wired.held (h : Wired k w) {p : Nat} (hp : p ∈ k.policies) {P : Policy}
    (hP : w.policies[p]? = some P) {s : Nat} (hs : s ∈ P.registry.subscriptions) :
    s ∈ w.heldSubscriptions :=
  mem_heldSubscriptions (mem_livePolicies hP (h.policyAlive hp)) hs

/-- An object with another value of an attribute. -/
theorem Wired.put (h : Wired k w) {v : Value} (hv : v.MadeOf AtHome) :
    Assigned k o attr w (w.putAt o attr v) := by
  apply h.assigned
  · exact (h.toStill.putAt hv).cells
  · intro i
    rw [List.getElem?_modify]
    cases w.objects[i]? with
    | none => rfl
    | some cell => by_cases hi : o.id = i <;> simp [hi]
  · exact fun _ _ hx => attribute?_putAt_ne hx
  · rintro p - P - id a s key - ⟨cell, hcell, hob⟩
    by_cases hi : o.id = id
    · subst hi
      exact ⟨{ cell with attrs := Assoc.put attr v cell.attrs },
        by rw [List.getElem?_modify_eq, hcell]; rfl, hob⟩
    · exact ⟨cell, by rw [List.getElem?_modify_ne _ _ hi, hcell], hob⟩

/-- An object from which the observers that nobody holds are removed. -/
theorem Wired.pruned (h : Wired k w) : Assigned k o attr w (w.pruneAt o.id) := by
  apply h.assigned
  · exact (h.toStill.pruneAt o.id).cells
  · intro i
    rw [List.getElem?_modify]
    cases w.objects[i]? with
    | none => rfl
    | some cell => by_cases hi : o.id = i <;> simp [hi]
  · intro x a _
    unfold attribute? object?
    rw [List.getElem?_modify]
    cases w.objects[x.id]? with
    | none => rfl
    | some cell => by_cases hi : o.id = x.id <;> simp [hi]
  · rintro p hp P hP id a s key hs ⟨cell, hcell, hob⟩
    by_cases hi : o.id = id
    · subst hi
      refine ⟨{ cell with
        observers := Observers.prune (fun s => s ∈ w.heldSubscriptions) cell.observers }, ?_, ?_⟩
      · rw [List.getElem?_modify_eq, hcell]
        rfl
      · exact List.mem_filter.mpr ⟨hob, decide_eq_true (h.held hp hP hs)⟩
    · exact ⟨cell, by rw [List.getElem?_modify_ne _ _ hi, hcell], hob⟩

/-- The observers that a change of an attribute of an object reaches. -/
def reached (w : Session) (id : Nat) (attr : String) : List (Observer Reaction) :=
  Observers.live (fun s => s ∈ w.heldSubscriptions) attr (w.observersAt (.object id))

theorem observersAt_putAt (w : Session) (o : ObjectRef) (attr : String) (v : Value)
    (source : Source) : (w.putAt o attr v).observersAt source = w.observersAt source := by
  cases source with
  | list id => rfl
  | object id =>
      simp only [observersAt, putAt, modifyObject, List.getElem?_modify]
      cases w.objects[id]? with
      | none => rfl
      | some cell => by_cases hid : o.id = id <;> simp [hid]

theorem reached_putAt (w : Session) (o : ObjectRef) (attr : String) (v : Value) (id : Nat)
    (a : String) : (w.putAt o attr v).reached id a = w.reached id a := by
  rw [reached, reached, observersAt_putAt]
  rfl

/-- A change is shown to the observers that it reaches, one after another. -/
theorem dispatch_eq (re : Reentry) (id : Nat) (change : Change) :
    w.dispatch re (.object id) change = (w.pruneAt id).keeping (pinValues change.values)
      (Session.reactAll re change (w.reached id change.attr)) := by
  have hpruned : (w.pruneAt id).observersAt (.object id)
      = Observers.prune (fun s => s ∈ w.heldSubscriptions) (w.observersAt (.object id)) := by
    simp only [pruneAt, modifyObservers, modifyObject, observersAt, List.getElem?_modify_eq]
    cases w.objects[id]? <;> rfl
  rw [reached, ← Observers.live_prune, ← hpruned]
  rfl

theorem mem_reached {id : Nat} {ob : Observer Reaction} :
    ob ∈ w.reached id attr ↔ ob.attr = attr ∧ ob.subscription ∈ w.heldSubscriptions ∧
      ∃ cell, w.objects[id]? = some cell ∧ ob ∈ cell.observers := by
  rw [reached, Observers.live, Observers.prune, List.mem_filter, List.mem_filter, observersAt]
  cases w.objects[id]? with
  | none => simp
  | some cell => simp [and_comm]

theorem Still.idle_of_reached (h : Still w) {id : Nat} {ob : Observer Reaction}
    (hob : ob ∈ w.reached id attr) : ob.action.Idle := by
  obtain ⟨-, -, cell, hcell, hob⟩ := mem_reached.mp hob
  exact (h.cells id cell hcell).observers ob hob

/-- A change reaches a binding if a policy listens to the attribute. -/
theorem Wired.reached (h : Wired k w) (hheeds : Heeds k w o attr) :
    ∃ ob ∈ w.reached o.id attr, ∃ l, ob.action = .forward l (w.issue k.channel) := by
  obtain ⟨p, hp, P, hP, htoken, key, l, hl, cell, hcell, hob⟩ := hheeds
  have hheld := h.held hp hP (Registry.mem_subscriptions hl)
  refine ⟨_, mem_reached.mpr ⟨rfl, hheld, cell, hcell, hob⟩, some key, ?_⟩
  rw [htoken]

/-- **A change makes the binding dirty** if a policy listens to the attribute. -/
theorem Wired.dispatch (h : Wired k w) (hm : Mute w) (re : Reentry) {change : Change}
    (hattr : change.attr = attr) :
    Assigned k o attr w (w.dispatch re (.object o.id) change) ∧
      Mute (w.dispatch re (.object o.id) change) ∧
      (Heeds k w o attr → Dirty k (w.dispatch re (.object o.id) change)) := by
  subst hattr
  have hpruned : Assigned k o change.attr w (w.pruneAt o.id) := h.pruned
  have hmute : Mute (w.pruneAt o.id) := hm
  have hissue : (w.pruneAt o.id).issue k.channel = w.issue k.channel := rfl
  rw [dispatch_eq]
  generalize w.pruneAt o.id = w₁ at hpruned hmute hissue
  have hhushed : Hushed { w₁ with pins := pinValues change.values ++ w₁.pins } :=
    ⟨hpruned.wired.sinks, hmute⟩
  obtain ⟨hstirs, hdirty⟩ := Hushed.reactAll (k := k) re change
    (fun ob hob => h.toStill.idle_of_reached hob) hhushed
  have hstirs' : Stirs w₁ (w₁.keeping (pinValues change.values)
      (Session.reactAll re change (w.reached o.id change.attr))) := hstirs.unpinned
  refine ⟨hpruned.trans (hstirs'.assigned hpruned.wired), hstirs'.mute hmute, ?_⟩
  intro hheeds
  obtain ⟨ob, hob, l, hl⟩ := h.reached hheeds
  rw [← hissue] at hl
  exact hdirty (hpruned.wired.pinned _) ob hob l hl

/-- Whether an assignment reports a change. -/
def Reports (w : Session) (o : ObjectRef) (schema : Schema) (attr : String) (v : Value) : Prop :=
  schema.accepts attr = true ∧ schema.describe attr = .observable ∧
    ((w.attribute? o attr).getD .none).same v = false

instance (w : Session) (o : ObjectRef) (schema : Schema) (attr : String) (v : Value) :
    Decidable (w.Reports o schema attr v) :=
  inferInstanceAs (Decidable (_ ∧ _ ∧ _))

/-- The change that an assignment reports. -/
def changeTo (w : Session) (o : ObjectRef) (attr : String) (v : Value) : Change :=
  ⟨o, attr, (w.attribute? o attr).getD .none, v⟩

/-- An assignment that reports a change shows it after the value was put in place. -/
theorem assign_of_reports (re : Reentry) {schema : Schema} {v : Value}
    (h : w.Reports o schema attr v) : (w.assign re o schema attr v).1
      = (w.putAt o attr v).dispatch re (.object o.id) (w.changeTo o attr v) := by
  obtain ⟨haccepts, hobservable, hdiffers⟩ := h
  unfold Session.assign
  simp only [haccepts, hobservable, hdiffers]
  rfl

/-- An assignment that reports no change puts the value in place if the schema accepts it. -/
theorem assign_of_unreported (re : Reentry) {schema : Schema} {v : Value}
    (h : ¬ w.Reports o schema attr v) : (w.assign re o schema attr v).1
      = if schema.accepts attr = true then w.putAt o attr v else w := by
  unfold Session.assign
  cases haccepts : schema.accepts attr with
  | false => rfl
  | true =>
      dsimp only
      split
      · next hfalse => cases hfalse
      · split
        · next hreports => exact absurd ⟨haccepts, by simpa using hreports⟩ h
        · rfl

/-- An assignment that reports no change puts the value in place or does nothing. -/
theorem assign_of_not_reports (re : Reentry) {schema : Schema} {v : Value}
    (h : ¬ w.Reports o schema attr v) :
    (w.assign re o schema attr v).1 = w ∨ (w.assign re o schema attr v).1 = w.putAt o attr v := by
  rw [assign_of_unreported re h]
  split
  · exact Or.inr rfl
  · exact Or.inl rfl

/-- **An assignment that reports a change makes the binding dirty** if a policy listens to the
attribute. -/
theorem Wired.assign (h : Wired k w) (hm : Mute w) (re : Reentry) (o : ObjectRef)
    (schema : Schema) (attr : String) {v : Value} (hv : v.MadeOf AtHome) :
    Assigned k o attr w (w.assign re o schema attr v).1 ∧
      Mute (w.assign re o schema attr v).1 ∧
      (w.Reports o schema attr v → Heeds k w o attr →
        Dirty k (w.assign re o schema attr v).1) := by
  have hput : Assigned k o attr w (w.putAt o attr v) := h.put hv
  by_cases hreports : w.Reports o schema attr v
  · rw [assign_of_reports re hreports]
    obtain ⟨hdispatch, hmute, hdirty⟩ := hput.wired.dispatch hm re rfl
    exact ⟨hput.trans hdispatch, hmute, fun _ hheeds => hdirty (hput.heeds o attr hheeds)⟩
  · rcases assign_of_not_reports re hreports with heq | heq
    · rw [heq]
      exact ⟨(Stirs.refl w).assigned h, hm, fun hyes => absurd hyes hreports⟩
    · rw [heq]
      exact ⟨hput, hm, fun hyes => absurd hyes hreports⟩

end Assignments

end Session
end TrackedExpr
