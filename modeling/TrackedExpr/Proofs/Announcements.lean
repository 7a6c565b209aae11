import TrackedExpr.Proofs.Changes
import TrackedExpr.Proofs.Hookups

/-!
# Announcements that are only written down

Where observers run no commands, or pass a change on to a channel that runs none, an
assignment adds to the log one entry for each observer that it reaches and that is
connected, and does nothing else but remove observers that nobody holds.

**Definitions.**
* `ReportsTo`: observers that write changes down or pass them on to one channel;
* `entryFor`: what such an observer adds to the log;
* `announced`: the session after an assignment.

**Results.**
* `reactAll_eq`: observers in turn;
* `assign_announces`: an assignment, by a program that holds on to object and value.
-/

namespace TrackedExpr
namespace Session

/-- An observer that writes changes down, or passes them on to a channel. -/
def ReportsTo (c : Nat) (ob : Observer Reaction) : Prop :=
  (∃ id, ob.action = .script id []) ∨ ∃ listener token, ob.action = .forward listener token ∧
    token.channel = c

/-- What an observer adds to the log, where its channel has a name and runs no commands. -/
def entryFor (w : Session) (name : String) (change : Change) (ob : Observer Reaction) :
    Option LogEntry :=
  match ob.action with
  | .script id _ => some (.change id change)
  | .forward listener token =>
      if w.connected token then some (.event name (w.emitterOrdinal name listener) change)
      else none

section Pins

variable {w : Session} {pins : List Pin}

/-- A pin that holds on to neither a binding nor a policy. -/
def Pin.Light (pin : Pin) : Prop := pin.binding? = none ∧ pin.policy? = none

theorem filterMap_pins {α : Type} {get : Pin → Option α} (h : ∀ pin ∈ pins, get pin = none)
    (more : List Pin) : (pins ++ more).filterMap get = more.filterMap get := by
  rw [List.filterMap_append, List.filterMap_eq_nil_iff.mpr h, List.nil_append]

theorem liveBindings_pinned (h : ∀ pin ∈ pins, pin.Light) :
    liveBindings { w with pins := pins ++ w.pins } = w.liveBindings := by
  simp only [liveBindings, bindingAlive, filterMap_pins fun pin hpin => (h pin hpin).1]

theorem policyAlive_pinned (h : ∀ pin ∈ pins, pin.Light) (p : Nat) :
    policyAlive { w with pins := pins ++ w.pins } p = w.policyAlive p := by
  simp only [policyAlive, liveBindings_pinned h, filterMap_pins fun pin hpin => (h pin hpin).2]

theorem emitterOrdinal_pinned (h : ∀ pin ∈ pins, pin.Light) (name : String)
    (emitter : Option SlotKey) :
    emitterOrdinal { w with pins := pins ++ w.pins } name emitter
      = w.emitterOrdinal name emitter := by
  simp only [emitterOrdinal, policyAlive_pinned h]

/-- Values that are held on to hold no subscription. -/
theorem heldSubscriptions_pinned (w : Session) (vs : List Value) :
    heldSubscriptions { w with pins := pinValues vs ++ w.pins } = w.heldSubscriptions := by
  have hlight : ∀ pin ∈ pinValues vs, pin.Light ∧ pin.subscription? = none := by
    intro pin hpin
    obtain ⟨v, -, rfl⟩ := List.mem_map.mp hpin
    exact ⟨⟨rfl, rfl⟩, rfl⟩
  simp only [heldSubscriptions, livePolicies, policyAlive_pinned fun pin hpin =>
    (hlight pin hpin).1, filterMap_pins fun pin hpin => (hlight pin hpin).2]

theorem entryFor_pinned (h : ∀ pin ∈ pins, pin.Light ∧ pin.channel? = none) (name : String)
    (change : Change) (ob : Observer Reaction) :
    entryFor { w with pins := pins ++ w.pins } name change ob = w.entryFor name change ob := by
  unfold entryFor
  cases ob.action with
  | script id actions => rfl
  | forward listener token =>
      simp only [emitterOrdinal_pinned fun pin hpin => (h pin hpin).1,
        connected_pinned fun pin hpin => ⟨(h pin hpin).2, (h pin hpin).1.1⟩]

end Pins

section Reactions

variable {c : Nat} {name : String} {g : UInt64}

/-- An observer adds its entry to the log. -/
theorem react_eq (re : Reentry) {w : Session} (hc : w.channels[c]? = some ⟨g, .script name []⟩)
    (change : Change) {ob : Observer Reaction} (hob : ReportsTo c ob) :
    w.react re change ob.action
      = { w with log := (w.entryFor name change ob).toList ++ w.log } := by
  unfold react entryFor
  rcases hob with ⟨id, haction⟩ | ⟨listener, token, haction, rfl⟩
  · rw [haction]
    rfl
  · rw [haction]
    dsimp only
    unfold notify
    split
    · unfold deliver
      simp only [hc]
      have hordinal : emitterOrdinal { w with pins := [.channel token.channel] ++ w.pins } name
          listener = w.emitterOrdinal name listener := by
        apply emitterOrdinal_pinned
        intro pin hpin
        rw [List.mem_singleton.mp hpin]
        exact ⟨rfl, rfl⟩
      unfold keeping receive
      simp only [hordinal]
      rfl
    · rfl

/-- Observers add their entries to the log, one after another. -/
theorem reactAll_eq (re : Reentry) (change : Change) : ∀ {obs : List (Observer Reaction)}
    {w : Session}, w.channels[c]? = some ⟨g, .script name []⟩ → (∀ ob ∈ obs, ReportsTo c ob) →
      w.reactAll re change obs
        = { w with log := (obs.filterMap (w.entryFor name change)).reverse ++ w.log }
  | [], _, _, _ => rfl
  | first :: rest, w, hc, hobs => by
      let pins := (first :: rest).map fun ob => Pin.subscription ob.subscription
      have hpins : ∀ pin ∈ pins, pin.Light ∧ pin.channel? = none := by
        intro pin hpin
        obtain ⟨ob, -, rfl⟩ := List.mem_map.mp hpin
        exact ⟨⟨rfl, rfl⟩, rfl⟩
      have hreact := @react_eq c name g re { w with pins := pins ++ w.pins } hc change first
        (hobs first List.mem_cons_self)
      rw [entryFor_pinned hpins] at hreact
      have hfirst : (w.keeping pins fun w => w.react re change first.action)
          = { w with log := (w.entryFor name change first).toList ++ w.log } :=
        congrArg (fun s : Session => { s with pins := w.pins }) hreact
      have hrest : reactAll re change rest
          { w with log := (w.entryFor name change first).toList ++ w.log }
            = { w with log := (rest.filterMap (w.entryFor name change)).reverse
                ++ ((w.entryFor name change first).toList ++ w.log) } :=
        reactAll_eq re change hc fun ob hob => hobs ob (List.mem_cons_of_mem _ hob)
      rw [reactAll, hfirst, hrest, List.filterMap_cons]
      cases w.entryFor name change first <;> simp

end Reactions

section Assignments

variable {c : Nat} {name : String} {g : UInt64} {w : Session} {o : ObjectRef} {attr : String}
  {v : Value}

/-- The entries that an assignment adds to the log, newest first. -/
def announcements (w : Session) (name : String) (o : ObjectRef) (attr : String) (v : Value) :
    List LogEntry :=
  ((w.reached o.id attr).filterMap (w.entryFor name (w.changeTo o attr v))).reverse

/-- A session in which a value was put in place and shown to the observers. -/
def announced (w : Session) (name : String) (o : ObjectRef) (attr : String) (v : Value) :
    Session :=
  { (w.putAt o attr v).pruneAt o.id with log := w.announcements name o attr v ++ w.log }

/-- **An assignment that reports a change** writes it down for each observer reached. -/
theorem assign_announces (re : Reentry) {schema : Schema}
    (hc : w.channels[c]? = some ⟨g, .script name []⟩)
    (hobs : ∀ ob ∈ w.reached o.id attr, ReportsTo c ob) (h : w.Reports o schema attr v) :
    w.assigned re o schema attr v = w.announced name o attr v := by
  let pins := pinValues [.object o, v]
  let w₁ : Session := { w with pins := pins ++ w.pins }
  let change := w.changeTo o attr v
  let w₂ : Session := (w₁.putAt o attr v).pruneAt o.id
  have hpruned : w₂ = { (w.putAt o attr v).pruneAt o.id with pins := pins ++ w.pins } := by
    have hheld : (w₁.putAt o attr v).heldSubscriptions = (w.putAt o attr v).heldSubscriptions :=
      heldSubscriptions_pinned (w.putAt o attr v) _
    show (w₁.putAt o attr v).modifyObservers _ _ = _
    rw [hheld]
    rfl
  have hreached : (w₁.putAt o attr v).reached o.id attr = w.reached o.id attr := by
    rw [reached_putAt, reached, reached, heldSubscriptions_pinned]
    rfl
  have hentries : ∀ ob, entryFor { w₂ with pins := pinValues change.values ++ w₂.pins } name
      change ob = w.entryFor name change ob := by
    intro ob
    have hvalues : ∀ pin ∈ pinValues change.values ++ pins, pin.Light ∧ pin.channel? = none := by
      intro pin hpin
      have hvalue : pin ∈ pinValues (change.values ++ [.object o, v]) := by
        rwa [pinValues, List.map_append]
      obtain ⟨u, -, rfl⟩ := List.mem_map.mp hvalue
      exact ⟨⟨rfl, rfl⟩, rfl⟩
    have hpinned := @entryFor_pinned ((w.putAt o attr v).pruneAt o.id) _ hvalues name change ob
    rw [hpruned]
    rw [List.append_assoc] at hpinned
    exact hpinned
  have hreports : w₁.Reports o schema attr v := h
  have hassign := assign_of_reports re hreports
  rw [dispatch_eq, show (w₁.changeTo o attr v).attr = attr from rfl, hreached] at hassign
  unfold keeping at hassign
  have hreact := @reactAll_eq c name g re change (w.reached o.id attr)
    { w₂ with pins := pinValues change.values ++ w₂.pins } hc hobs
  rw [show w₁.changeTo o attr v = change from rfl, hreact, funext hentries] at hassign
  show { (w₁.assign re o schema attr v).1 with pins := w.pins } = _
  rw [hassign, hpruned]
  rfl

/-- An assignment that reports nothing puts the value in place or does nothing. -/
theorem assign_of_silence (re : Reentry) {schema : Schema} (h : ¬ w.Reports o schema attr v) :
    w.assigned re o schema attr v = w ∨ w.assigned re o schema attr v = w.putAt o attr v := by
  have hsilent : ¬ Reports { w with pins := pinValues [.object o, v] ++ w.pins } o schema attr v :=
    h
  simp only [assigned, holding]
  rcases assign_of_not_reports re hsilent with heq | heq
  · rw [heq]
    exact Or.inl rfl
  · rw [heq]
    exact Or.inr rfl

end Assignments

end Session
end TrackedExpr
