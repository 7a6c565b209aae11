import Mathlib
import TrackedExpr.Proofs.Allotments

/-!
# Bindings beside each other

Bindings meet in the observers of the models that they share.  A change tells a binding once for
each observer that the binding holds itself and that has a token of its present generation, in
whatever company this observer is.  So two sessions that agree about a binding and its
observers tell it the same of every later change.

**Definitions.**
* `ears`: the observers of an object by which a binding hears of changes;
* `written`: what the callback of a binding has written;
* `Agree`: sessions that agree about a binding and whatever tells it of changes;
* `Resident`: a binding with a name;
* `Setting`, `setEach`: assignments, one after the other;
* `tidings`, `tidingsEach`: the changes of which assignments tell a binding.

What the callback of a binding has written is its own, or others write there as well; the
definitions take this as a parameter.

**Results.**
* `Resident.reactAll_agree`: observers in turn tell a binding of a change once for each of its ears;
* `Agree.setEach`, `Agree.tidingsEach_eq`: assignments in sessions that agree about a binding lead
  to such sessions again, and tell the binding the same;
* `Resident.written_setBy`, `Resident.written_setEach`: the callback of a binding writes what the
  binding is told.
-/

namespace TrackedExpr
namespace Session

section Likeness

/-- The subscriptions that policies hold. -/
def subscriptionsOf (ps : List Nat) (w : Session) : List Nat :=
  (ps.filterMap fun p => w.policies[p]?).flatMap fun P => P.registry.subscriptions

/-- The observers of an object that pass changes on to a binding, and that the binding holds. -/
def ears (k : Lines) (i : Nat) (w : Session) : List (Observer Reaction) :=
  (w.observersAt (.object i)).filter fun ob =>
    ob.action.forwardsTo k.channel ∧ ob.subscription ∈ w.subscriptionsOf k.policies

/-- What a callback that only writes has written. -/
def written : Invalidation → Session → List LogEntry × Option (List RecordedEvent)
  | .script name _, w => (w.log.filter (LogEntry.tells name), none)
  | .record r, w => ([], w.recorders[r]?)
  | .rerun _ _, _ => ([], none)

/-- An object without its observers. -/
def ObjectCell.bare (cell : ObjectCell) : ObjectRef × ObjectKind × List (String × Value) :=
  (cell.ref, cell.kind, cell.attrs)

/-- Sessions that agree about a binding with certain lines: it is the same, hears the same, and its
callback has written the same; and the objects of which it hears are the same but for their
observers. -/
structure Agree (own : Prop) (b : Nat) (k : Lines) (w w' : Session) : Prop where
  binding : w'.bindings[b]? = w.bindings[b]?
  channel : w'.channels[k.channel]? = w.channels[k.channel]?
  policies : ∀ p ∈ k.policies, w'.policies[p]? = w.policies[p]?
  ears : ∀ i, w'.ears k i = w.ears k i
  cells : ∀ i : Nat, w.ears k i ≠ [] →
    w'.objects[i]?.map ObjectCell.bare = w.objects[i]?.map ObjectCell.bare
  written : own → w'.written k.onInvalid = w.written k.onInvalid

variable {own : Prop} {b : Nat} {k : Lines} {w w' w'' : Session}

theorem Agree.refl (b : Nat) (k : Lines) (w : Session) : Agree own b k w w :=
  ⟨rfl, rfl, fun _ _ => rfl, fun _ => rfl, fun _ _ => rfl, fun _ => rfl⟩

theorem Agree.heard_iff (h : Agree own b k w w') (i : Nat) :
    w'.ears k i ≠ [] ↔ w.ears k i ≠ [] := by
  rw [h.ears]

theorem Agree.symm (h : Agree own b k w w') : Agree own b k w' w :=
  ⟨h.binding.symm, h.channel.symm, fun p hp => (h.policies p hp).symm, fun i => (h.ears i).symm,
    fun i hi => (h.cells i ((h.heard_iff i).mp hi)).symm, fun hown => (h.written hown).symm⟩

theorem Agree.trans (h : Agree own b k w w') (h' : Agree own b k w' w'') : Agree own b k w w'' :=
  ⟨h'.binding.trans h.binding, h'.channel.trans h.channel,
    fun p hp => (h'.policies p hp).trans (h.policies p hp), fun i => (h'.ears i).trans (h.ears i),
    fun i hi => (h'.cells i ((h.heard_iff i).mpr hi)).trans (h.cells i hi),
    fun hown => (h'.written hown).trans (h.written hown)⟩

theorem subscriptionsOf_congr {ps : List Nat} (h : ∀ p ∈ ps, w'.policies[p]? = w.policies[p]?) :
    w'.subscriptionsOf ps = w.subscriptionsOf ps := by
  rw [subscriptionsOf, subscriptionsOf, List.filterMap_congr h]

theorem mem_subscriptionsOf {ps : List Nat} {s : Nat} : s ∈ w.subscriptionsOf ps ↔
    ∃ p ∈ ps, ∃ P, w.policies[p]? = some P ∧ s ∈ P.registry.subscriptions := by
  simp only [subscriptionsOf, List.mem_flatMap, List.mem_filterMap]
  constructor
  · rintro ⟨P, ⟨p, hp, hP⟩, hs⟩
    exact ⟨p, hp, P, hP, hs⟩
  · rintro ⟨p, hp, P, hP, hs⟩
    exact ⟨P, ⟨p, hp, hP⟩, hs⟩

/-- Observers are the same, and so are the policies of the binding. -/
theorem ears_congr {i : Nat} (hobservers : w'.observersAt (.object i) = w.observersAt (.object i))
    (hpolicies : ∀ p ∈ k.policies, w'.policies[p]? = w.policies[p]?) :
    w'.ears k i = w.ears k i := by
  rw [ears, ears, hobservers, subscriptionsOf_congr hpolicies]

/-- Objects, channels and policies are the same. -/
theorem Agree.beside (hbinding : w'.bindings[b]? = w.bindings[b]?)
    (hobjects : w'.objects = w.objects) (hchannels : w'.channels = w.channels)
    (hpolicies : w'.policies = w.policies)
    (hwritten : own → w'.written k.onInvalid = w.written k.onInvalid) : Agree own b k w w' := by
  have hsame : ∀ p ∈ k.policies, w'.policies[p]? = w.policies[p]? := fun p _ => by rw [hpolicies]
  refine ⟨hbinding, by rw [hchannels], hsame, fun i => ears_congr ?_ hsame, fun i _ => ?_, hwritten⟩
  · rw [observersAt, observersAt, hobjects]
  · rw [hobjects]

theorem written_congr {onInvalid : Invalidation} (hlog : w'.log = w.log)
    (hrecorders : w'.recorders = w.recorders) : w'.written onInvalid = w.written onInvalid := by
  cases onInvalid <;> simp only [written, hlog, hrecorders]

theorem Agree.repinned (b : Nat) (k : Lines) (w : Session) (pins : List Pin) :
    Agree own b k w { w with pins := pins } :=
  Agree.beside rfl rfl rfl rfl fun _ => written_congr rfl rfl

/-- Callbacks write entries of one kind only. -/
theorem written_note {e : LogEntry} (he : ∀ id dirty change, e ≠ .invalid id dirty change)
    (onInvalid : Invalidation) (w : Session) :
    (w.note e).written onInvalid = w.written onInvalid := by
  cases onInvalid with
  | script name actions =>
      have hsilent : LogEntry.tells name e = false := by
        cases e <;> first | rfl | exact absurd rfl (he _ _ _)
      simp only [written, note, List.filter_cons, hsilent]
      rfl
  | record r => rfl
  | rerun name actions => rfl

theorem Agree.attribute?_eq (h : Agree own b k w w') {o : ObjectRef} (ho : w.ears k o.id ≠ [])
    (attr : String) : w'.attribute? o attr = w.attribute? o attr := by
  have hcells := congrArg (fun c => c.bind fun x => Assoc.get? attr x.2.2) (h.cells o.id ho)
  rw [Option.bind_map, Option.bind_map] at hcells
  exact hcells

theorem schema?_eq_of_bare (w : Session) (o : ObjectRef) : w.schema? o
    = (w.objects[o.id]?.map ObjectCell.bare).bind fun x =>
        match x.2.1 with
        | .model schema => some schema
        | _ => none := by
  rw [schema?, object?]
  cases w.objects[o.id]? with
  | none => rfl
  | some cell =>
      obtain ⟨ref, kind, attrs, observers⟩ := cell
      cases kind <;> rfl

theorem Agree.schema?_eq (h : Agree own b k w w') {o : ObjectRef} (ho : w.ears k o.id ≠ []) :
    w'.schema? o = w.schema? o := by
  rw [schema?_eq_of_bare, schema?_eq_of_bare, h.cells o.id ho]

theorem ears_putAt (k : Lines) (w : Session) (o : ObjectRef) (attr : String) (v : Value) (i : Nat) :
    (w.putAt o attr v).ears k i = w.ears k i :=
  ears_congr (observersAt_putAt w o attr v _) fun _ _ => rfl

theorem bare_putAt (w : Session) (o : ObjectRef) (attr : String) (v : Value) (i : Nat) :
    (w.putAt o attr v).objects[i]?.map ObjectCell.bare
      = (w.objects[i]?.map ObjectCell.bare).map fun x =>
          if o.id = i then (x.1, x.2.1, Assoc.put attr v x.2.2) else x := by
  simp only [Session.putAt, modifyObject, List.getElem?_modify]
  cases w.objects[i]? with
  | none => rfl
  | some cell => by_cases hi : o.id = i <;> simp [hi, ObjectCell.bare]

/-- A value is put in place in an object of which the binding does not hear. -/
theorem agree_putAt_unheard {o : ObjectRef} (hnone : w.ears k o.id = []) (attr : String)
    (v : Value) : Agree own b k w (w.putAt o attr v) where
  binding := rfl
  channel := rfl
  policies := fun _ _ => rfl
  ears := ears_putAt k w o attr v
  cells := by
    intro i hi
    have hne : o.id ≠ i := by
      rintro rfl
      exact hi hnone
    rw [bare_putAt]
    simp only [if_neg hne, Option.map_id']
  written := fun _ => written_congr rfl rfl

/-- The same value is put in place in both sessions. -/
theorem Agree.putAt (h : Agree own b k w w') (o : ObjectRef) (attr : String) (v : Value) :
    Agree own b k (w.putAt o attr v) (w'.putAt o attr v) where
  binding := h.binding
  channel := h.channel
  policies := h.policies
  ears := by
    intro i
    rw [ears_putAt, ears_putAt, h.ears]
  cells := by
    intro i hi
    rw [ears_putAt] at hi
    rw [bare_putAt, bare_putAt, h.cells i hi]
  written := by
    intro hown
    have hput : ∀ u : Session, (u.putAt o attr v).written k.onInvalid = u.written k.onInvalid :=
      fun _ => written_congr rfl rfl
    rw [hput, hput, h.written hown]

end Likeness

section Residence

/-- A binding with a name in a session in which everything belongs to one binding; no other callback
writes what its callback writes. -/
structure Resident (own : Prop) (b : Nat) (k : Lines) (w : Session) : Prop
    extends Allotted w where
  lines : w.layout.lines[b]? = some k
  apart : own → ∀ (c : Nat) (k' : Lines), c ≠ b → w.layout.lines[c]? = some k' →
    k.onInvalid.Apart k'.onInvalid
  hasName : ∃ id, Assoc.get? id w.names.bindings = some b

variable {own : Prop} {b : Nat} {k : Lines} {w w' : Session} {o : ObjectRef} {attr : String}
  {v : Value} {s : Nat} {ob : Observer Reaction}

theorem exists_binding_of_lines (h : w.layout.lines[b]? = some k) :
    ∃ B, w.bindings[b]? = some B ∧ B.lines = k := by
  rw [layout, List.getElem?_map] at h
  exact Option.map_eq_some_iff.mp h

theorem Resident.of_lines (h : Resident own b k w) (hw' : Allotted w')
    (hlines : w'.layout.lines = w.layout.lines)
    (hnamed : ∃ id, Assoc.get? id w'.names.bindings = some b) : Resident own b k w' where
  toAllotted := hw'
  lines := by
    rw [hlines]
    exact h.lines
  apart := by
    rw [hlines]
    exact h.apart
  hasName := hnamed

theorem Resident.repinned (h : Resident own b k w) (pins : List Pin) :
    Resident own b k { w with pins := pins } :=
  h.of_lines (h.toAllotted.repinned pins) rfl h.hasName

theorem Stirs.resident (hstirs : Stirs w w') (h : Resident own b k w) : Resident own b k w' := by
  refine h.of_lines (hstirs.allotted h.toAllotted) (by rw [hstirs.layout_eq]) ?_
  rw [hstirs.rest]
  exact h.hasName

theorem Resident.putAt (h : Resident own b k w) (o : ObjectRef) (attr : String) (v : Value) :
    Resident own b k (w.putAt o attr v) :=
  h.of_lines (h.toAllotted.putAt o attr v) rfl h.hasName

theorem Resident.pruneAt (h : Resident own b k w) (id : Nat) : Resident own b k (w.pruneAt id) :=
  h.of_lines (h.toAllotted.pruneAt id) rfl h.hasName

theorem Resident.alive (h : Resident own b k w) : w.bindingAlive b = true := by
  obtain ⟨id, hid⟩ := h.hasName
  exact bindingAlive_of_named ⟨(id, b), Assoc.mem_of_get? hid, rfl⟩

theorem Resident.channelAlive (h : Resident own b k w) : w.channelAlive k.channel = true := by
  obtain ⟨B, hB, rfl⟩ := exists_binding_of_lines h.lines
  exact channelAlive_of_binding (mem_liveBindings hB h.alive)

/-- A token of the binding's channel is connected if it is of the present generation. -/
theorem Resident.connected_iff (h : Resident own b k w) {token : Token}
    (hchannel : token.channel = k.channel) :
    w.connected token = true ↔ token = w.issue k.channel := by
  obtain ⟨c, g⟩ := token
  obtain rfl : c = k.channel := hchannel
  simp [connected, h.channelAlive, issue, eq_comm]

/-- Two bindings have different channels. -/
theorem Allotted.channel_ne (h : Allotted w) {c : Nat} {k' : Lines} (hne : c ≠ b)
    (hk : w.layout.lines[b]? = some k) (hk' : w.layout.lines[c]? = some k') :
    k'.channel ≠ k.channel := by
  intro hsame
  have hsink := (h.layout.lines b k hk).1
  have hsink' := (h.layout.lines c k' hk').1
  rw [hsame, hsink] at hsink'
  exact hne (Sink.binding.inj (Option.some.inj hsink')).symm

/-- The policies of a binding are those that report to its channel. -/
theorem Allotted.mem_policies (h : Allotted w) (hk : w.layout.lines[b]? = some k) {p : Nat}
    {P : Policy} (hP : w.policies[p]? = some P) :
    p ∈ k.policies ↔ P.registry.token.channel = k.channel := by
  rw [h.layout.policies b k hk p]
  simp [Session.layout, hP]

/-- The binding holds what its policies hold. -/
theorem Resident.held (h : Resident own b k w) (hs : s ∈ w.subscriptionsOf k.policies) :
    s ∈ w.heldSubscriptions := by
  obtain ⟨p, hp, P, hP, hheld⟩ := mem_subscriptionsOf.mp hs
  obtain ⟨B, hB, rfl⟩ := exists_binding_of_lines h.lines
  have halive := policyAlive_of_binding (mem_liveBindings hB h.alive) hp
  exact mem_heldSubscriptions (mem_livePolicies hP halive) hheld

/-- Nothing but the binding holds the observers that pass changes on to it. -/
theorem Resident.held_iff (h : Resident own b k w)
    (hpins : ∀ pin ∈ w.pins, pin.subscription? = none) {i : Nat} (hob : ob ∈ w.observersAt (.object i))
    (hforwards : ob.action.forwardsTo k.channel = true) :
    ob.subscription ∈ w.heldSubscriptions ↔ ob.subscription ∈ w.subscriptionsOf k.policies := by
  refine ⟨fun hheld => ?_, h.held⟩
  obtain ⟨-, hunnamed, howner⟩ := h.owned i ob hob k.channel hforwards
  rcases heldSubscriptions_cases hheld hpins with hnamed | ⟨p, P, hP, hs⟩
  · exact absurd hnamed hunnamed
  · have hp := (h.mem_policies h.lines hP).mpr (howner p P hP hs)
    exact mem_subscriptionsOf.mpr ⟨p, hp, P, hP, hs⟩

/-- The binding keeps its ears when the observers of an object are pruned. -/
theorem Resident.pruneAt_agree (h : Resident own b k w) (id : Nat) :
    Agree own b k w (w.pruneAt id) where
  binding := rfl
  channel := rfl
  policies := fun _ _ => rfl
  ears := by
    intro i
    have hsubscriptions : (w.pruneAt id).subscriptionsOf k.policies
        = w.subscriptionsOf k.policies := rfl
    simp only [Session.ears, hsubscriptions, observersAt_pruneAt]
    split
    · rw [Observers.prune, List.filter_filter]
      refine List.filter_congr fun ob _ => ?_
      by_cases hs : ob.subscription ∈ w.subscriptionsOf k.policies
      · simp [hs, h.held hs]
      · simp [hs]
    · rfl
  cells := by
    intro i _
    simp only [Session.pruneAt, modifyObservers, modifyObject, List.getElem?_modify]
    cases w.objects[i]? with
    | none => rfl
    | some cell => by_cases hi : id = i <;> simp [hi, ObjectCell.bare]
  written := fun _ => by cases k.onInvalid <;> rfl

/-- **The observers that tell the binding of a change** are among its ears. -/
theorem Resident.countP_reached (h : Resident own b k w)
    (hpins : ∀ pin ∈ w.pins, pin.subscription? = none) (id : Nat) (attr : String) :
    (w.reached id attr).countP (fun ob => ob.action.carries (w.issue k.channel))
      = (w.ears k id).countP fun ob => ob.attr = attr ∧ ob.action.carries (w.issue k.channel) := by
  rw [reached, Observers.live, Observers.prune, ears, List.countP_filter, List.countP_filter,
    List.countP_filter]
  refine List.countP_congr fun ob hob => ?_
  cases hcarries : ob.action.carries (w.issue k.channel) with
  | false => simp
  | true =>
      have hforwards : ob.action.forwardsTo k.channel = true :=
        Reaction.forwardsTo_of_carries hcarries
      simp [hforwards, h.held_iff hpins hob hforwards]

end Residence

section Telling

variable {own : Prop} {b c : Nat} {k : Lines} {w w' : Session} {re : Reentry} {change : Change}
  {o : ObjectRef} {attr : String} {v : Value}

theorem Agree.modifyBinding (h : Agree own b k w w') (f : Binding → Binding) :
    Agree own b k (w.modifyBinding b f) (w'.modifyBinding b f) where
  binding := by
    simp only [Session.modifyBinding, List.getElem?_modify_eq, h.binding]
  channel := h.channel
  policies := h.policies
  ears := h.ears
  cells := h.cells
  written := by
    intro hown
    have hsame : ∀ u : Session, (u.modifyBinding b f).written k.onInvalid
        = u.written k.onInvalid := fun _ => written_congr rfl rfl
    rw [hsame, hsame, h.written hown]

theorem written_noticed {onInvalid : Invalidation}
    (h : w'.written onInvalid = w.written onInvalid) (change : Change) :
    (noticed onInvalid change w').written onInvalid
      = (noticed onInvalid change w).written onInvalid := by
  cases onInvalid with
  | script name actions =>
      have hlog := (Prod.mk.inj h).1
      simp only [noticed, note, written, List.filter_cons, hlog]
  | record r =>
      have hrecorder := (Prod.mk.inj h).2
      simp only [noticed, record, written, List.getElem?_modify_eq, hrecorder]
  | rerun name actions => exact h

/-- The binding is told of a change in both sessions. -/
theorem Agree.told (h : Agree own b k w w') (hk : w.layout.lines[b]? = some k) (change : Change) :
    Agree own b k (w.told change b) (w'.told change b) := by
  obtain ⟨B, hB, rfl⟩ := exists_binding_of_lines hk
  have hdirty := h.modifyBinding fun C => { C with dirty := true }
  simp only [Session.told, hB, h.binding]
  split
  · exact hdirty
  · generalize w.modifyBinding b _ = u at hdirty
    generalize w'.modifyBinding b _ = u' at hdirty
    have hnoticed : ∀ v : Session, noticed B.onInvalid change v
        = { v with recorders := (noticed B.onInvalid change v).recorders
                   log := (noticed B.onInvalid change v).log } := by
      intro v
      cases B.onInvalid <;> rfl
    have hwritten : own → (noticed B.onInvalid change u').written B.onInvalid
        = (noticed B.onInvalid change u).written B.onInvalid :=
      fun hown => written_noticed (hdirty.written hown) change
    refine ⟨?_, ?_, ?_, ?_, ?_, hwritten⟩
    all_goals rw [hnoticed u, hnoticed u']
    · exact hdirty.binding
    · exact hdirty.channel
    · exact hdirty.policies
    · exact hdirty.ears
    · exact hdirty.cells

theorem written_noticed_apart {onInvalid other : Invalidation} (h : onInvalid.Apart other)
    (change : Change) (w : Session) :
    (noticed other change w).written onInvalid = w.written onInvalid := by
  cases onInvalid with
  | script name actions =>
      cases other with
      | script name' actions' =>
          have hne : name' ≠ name := h
          simp [noticed, note, written, LogEntry.tells, hne]
      | record r => rfl
      | rerun name' actions' => rfl
  | record r =>
      cases other with
      | script name' actions' => rfl
      | record r' =>
          have hne : r' ≠ r := h
          simp [noticed, record, written, hne]
      | rerun name' actions' => rfl
  | rerun name actions => rfl

/-- Another binding is told of a change. -/
theorem agree_told_other (hne : c ≠ b)
    (hapart : own → ∀ C, w.bindings[c]? = some C → k.onInvalid.Apart C.onInvalid)
    (change : Change) :
    Agree own b k w (w.told change c) := by
  unfold Session.told
  cases hC : w.bindings[c]? with
  | none => exact Agree.refl b k w
  | some C =>
      have hdirty : Agree own b k w (w.modifyBinding c fun D => { D with dirty := true }) := by
        refine Agree.beside ?_ rfl rfl rfl fun _ => written_congr rfl rfl
        simp [Session.modifyBinding, hne]
      dsimp only
      split
      · exact hdirty
      · refine hdirty.trans ?_
        have hwritten := fun hown => written_noticed_apart (hapart hown C hC) change
          (w.modifyBinding c fun D => { D with dirty := true })
        refine Agree.beside ?_ ?_ ?_ ?_ hwritten
        all_goals cases C.onInvalid <;> rfl

/-- **An observer tells the binding of a change, or leaves it alone**: it tells it if it has a token
of the present generation. -/
theorem Resident.react_agree (h : Resident own b k w) (re : Reentry) (change : Change)
    {action : Reaction} (hidle : action.Idle) :
    Agree own b k (if action.carries (w.issue k.channel) = true then w.told change b else w)
      (w.react re change action) := by
  cases action with
  | script name actions =>
      obtain rfl : actions = [] := hidle
      exact Agree.beside rfl rfl rfl rfl fun _ =>
        written_note (e := .change name change) (fun _ _ _ => nofun) k.onInvalid w
  | forward l token =>
      obtain ⟨B, hB, rfl⟩ := exists_binding_of_lines h.lines
      by_cases hchannel : token.channel = B.channel
      · rw [h.react_forward re change hB l hchannel]
        have hcarries : Reaction.carries (w.issue B.lines.channel) (.forward l token) = true
            ↔ w.connected token = true ∧ w.bindingAlive b = true := by
          rw [h.connected_iff hchannel, and_iff_left h.alive]
          exact decide_eq_true_iff
        simp only [hcarries]
        exact Agree.refl b B.lines _
      · have hcarries : ¬ Reaction.carries (w.issue B.lines.channel) (.forward l token) = true := by
          intro hsame
          obtain rfl := of_decide_eq_true hsame
          exact hchannel rfl
        rw [if_neg hcarries]
        rcases h.react_cases re change l token with heq | ⟨c, C, hC, hsame, heq⟩
        · rw [heq]
          exact Agree.refl b B.lines w
        · have hne : c ≠ b := by
            rintro rfl
            obtain rfl := Option.some.inj (hB.symm.trans hC)
            exact hchannel hsame.symm
          have hapart : own → ∀ D, w.bindings[c]? = some D → B.onInvalid.Apart D.onInvalid :=
            fun hown D hD => h.apart hown c D.lines hne (by simp [Session.layout, hD])
          rw [heq]
          exact agree_told_other hne hapart change

/-- The binding is told of a change several times in both sessions. -/
theorem Agree.told_iterate (change : Change) : ∀ (n : Nat) {w w' : Session}, Agree own b k w w' →
    w.layout.lines[b]? = some k →
    Agree own b k ((Session.told change b)^[n] w) ((Session.told change b)^[n] w')
  | 0, _, _, h, _ => h
  | n + 1, w, w', h, hk => by
      have hk' : (w.told change b).layout.lines[b]? = some k := by
        rw [(stirs_told change b w).layout_eq]
        exact hk
      rw [Function.iterate_succ_apply, Function.iterate_succ_apply]
      exact (h.told hk change).told_iterate change n hk'

/-- **Observers in turn** tell the binding of a change once for each of them that has a token of the
present generation. -/
theorem Resident.reactAll_agree (re : Reentry) (change : Change) :
    ∀ {obs : List (Observer Reaction)} {w : Session}, Resident own b k w →
    (∀ ob ∈ obs, ob.action.Idle) →
    Agree own b k ((told change b)^[obs.countP fun ob => ob.action.carries (w.issue k.channel)] w)
      (w.reactAll re change obs)
  | [], w, _, _ => Agree.refl b k w
  | first :: rest, w, h, hidle => by
      let pins := (first :: rest).map fun ob => Pin.subscription ob.subscription
      let pinned : Session := { w with pins := pins ++ w.pins }
      let next := w.keeping pins fun w => w.react re change first.action
      have hfirst : first.action.Idle := hidle first List.mem_cons_self
      have hrest : ∀ ob ∈ rest, ob.action.Idle :=
        fun ob hob => hidle ob (List.mem_cons_of_mem _ hob)
      have hpinned : Resident own b k pinned := h.repinned _
      have hstirs : Stirs w next := (hpinned.stirs_react re change hfirst).unpinned
      -- the turn of the first observer
      have hbefore : Agree own b k w pinned := Agree.repinned b k w _
      have hturn : Agree own b k
          (if first.action.carries (w.issue k.channel) = true then w.told change b else w)
          next := by
        refine Agree.trans ?_ ((hpinned.react_agree re change hfirst).trans
          (Agree.repinned b k _ w.pins))
        rw [show pinned.issue k.channel = w.issue k.channel from rfl]
        split
        · exact hbefore.told h.lines change
        · exact hbefore
      -- the turns of the others
      have hothers := (hstirs.resident h).reactAll_agree re change hrest
      rw [hstirs.issue] at hothers
      have hlines : (if first.action.carries (w.issue k.channel) = true then w.told change b
          else w).layout.lines[b]? = some k := by
        split
        · rw [(stirs_told change b w).layout_eq]
          exact h.lines
        · exact h.lines
      have hall := (hturn.told_iterate change _ hlines).trans hothers
      rw [List.countP_cons]
      split at hall
      · next hcarries => rwa [if_pos hcarries, Function.iterate_succ_apply]
      · next hsilent => rwa [if_neg hsilent, Nat.add_zero]

end Telling

section Setting

/-- An assignment to an attribute of an object. -/
structure Setting where
  object : ObjectRef
  attr : String
  value : Value

/-- Carries out an assignment, if the object is a model. -/
def setBy (re : Reentry) (w : Session) (s : Setting) : Session :=
  match w.schema? s.object with
  | some schema => w.assigned re s.object schema s.attr s.value
  | none => w

/-- Carries out assignments one after the other. -/
def setEach (re : Reentry) (settings : List Setting) (w : Session) : Session :=
  settings.foldl (setBy re) w

/-- The changes of which an assignment tells a binding that is not under evaluation: the same
change, as often as an observer that the change reaches passes it on to the binding. -/
def tidings (w : Session) (b : Nat) (s : Setting) : List Change :=
  match w.bindings[b]?, w.schema? s.object with
  | some B, some schema =>
      if w.Reports s.object schema s.attr s.value ∧ B.evaluating = false then
        List.replicate ((w.reached s.object.id s.attr).countP fun ob =>
          ob.action.carries (w.issue B.channel)) (w.changeTo s.object s.attr s.value)
      else []
  | _, _ => []

/-- What assignments one after the other tell a binding. -/
def tidingsEach (w : Session) (re : Reentry) (b : Nat) : List Setting → List (List Change)
  | [] => []
  | s :: rest => w.tidings b s :: (w.setBy re s).tidingsEach re b rest

/-- What a callback has written when it has run for a change. -/
def Invalidation.adds (change : Change) : Invalidation →
    List LogEntry × Option (List RecordedEvent) → List LogEntry × Option (List RecordedEvent)
  | .script name _, (entries, events) => (.invalid name true change :: entries, events)
  | .record _, (entries, events) =>
      (entries, events.map fun es => es ++ [RecordedEvent.ofChange change])
  | .rerun _ _, before => before

variable {own : Prop} {b : Nat} {k : Lines} {w w' : Session}

/-- A command that sets an attribute is such an assignment. -/
theorem exists_setBy_of_setAttr {re : Reentry} {id attr : String} {value : Literal} {reply : Reply}
    (h : w.setAttr re id attr value = .ok (w', reply)) :
    ∃ s : Setting, named w.names.objects id = .ok s.object ∧ s.attr = attr ∧
      w.literal value = .ok s.value ∧ w' = w.setBy re s := by
  obtain ⟨o, schema, v, hname, hschema, hvalue, rfl⟩ := setAttr_ok h
  refine ⟨⟨o, attr, v⟩, hname, rfl, hvalue, ?_⟩
  simp only [setBy, hschema]

theorem Resident.spread (h : Resident own b k w) (o : ObjectRef) (attr : String) (v : Value) :
    Resident own b k (w.spread o attr v) :=
  ((h.putAt o attr v).pruneAt o.id).repinned _

theorem Resident.assign (h : Resident own b k w) (re : Reentry) (o : ObjectRef) (schema : Schema)
    (attr : String) (v : Value) : Resident own b k (w.assign re o schema attr v).1 := by
  rcases h.toAllotted.assign_cases re o schema attr v with heq | heq | ⟨u, hstirs, heq⟩
  · rw [heq]
    exact h
  · rw [heq]
    exact h.putAt o attr v
  · rw [heq]
    exact (hstirs.resident (h.spread o attr v)).repinned w.pins

theorem Resident.assigned (h : Resident own b k w) (re : Reentry) (o : ObjectRef) (schema : Schema)
    (attr : String) (v : Value) : Resident own b k (w.assigned re o schema attr v) :=
  ((h.repinned _).assign re o schema attr v).repinned w.pins

theorem Agree.issue (h : Agree own b k w w') : w'.issue k.channel = w.issue k.channel := by
  rw [Session.issue, Session.issue, generation, generation, h.channel]

/-- What an assignment that is reported leads to: the binding is told of the change once for each of
its ears that has a token of the present generation. -/
theorem Resident.assign_reported (h : Resident own b k w)
    (hpins : ∀ pin ∈ w.pins, pin.subscription? = none) (re : Reentry) {o : ObjectRef}
    {schema : Schema} {attr : String} {v : Value} (hreports : w.Reports o schema attr v) :
    Agree own b k ((Session.told (w.changeTo o attr v) b)^[(w.ears k o.id).countP fun ob =>
        ob.attr = attr ∧ ob.action.carries (w.issue k.channel)] (w.spread o attr v))
      (w.assign re o schema attr v).1 := by
  have hidle : ∀ ob ∈ w.reached o.id attr, ob.action.Idle := fun ob hob => h.idle_of_reached hob
  have htold := (h.spread o attr v).reactAll_agree re (w.changeTo o attr v) hidle
  rw [show (w.spread o attr v).issue k.channel = w.issue k.channel from rfl,
    h.countP_reached hpins] at htold
  rw [assign_eq_spread hreports]
  exact htold.trans (Agree.repinned b k _ _)

/-- **An assignment to an object of which the binding does not hear** leaves the binding alone. -/
theorem Resident.assign_unheard (h : Resident own b k w)
    (hpins : ∀ pin ∈ w.pins, pin.subscription? = none) {o : ObjectRef}
    (hnone : w.ears k o.id = []) (re : Reentry) (schema : Schema) (attr : String) (v : Value) :
    Agree own b k w (w.assign re o schema attr v).1 := by
  have hput : Agree own b k w (w.putAt o attr v) := agree_putAt_unheard hnone attr v
  by_cases hreports : w.Reports o schema attr v
  · have htold := h.assign_reported hpins re hreports
    rw [hnone] at htold
    exact (hput.trans ((h.putAt o attr v).pruneAt_agree o.id)).trans
      ((Agree.repinned b k _ _).trans htold)
  · rcases assign_of_not_reports re hreports with heq | heq
    · rw [heq]
      exact Agree.refl b k w
    · rw [heq]
      exact hput

/-- **The same assignment** in sessions that agree about the binding, to an object of which it
hears. -/
theorem Agree.assign (h : Agree own b k w w') (hw : Resident own b k w) (hw' : Resident own b k w')
    (hpins : ∀ pin ∈ w.pins, pin.subscription? = none)
    (hpins' : ∀ pin ∈ w'.pins, pin.subscription? = none) {o : ObjectRef}
    (hheard : w.ears k o.id ≠ []) (re : Reentry) (schema : Schema) (attr : String) (v : Value) :
    Agree own b k (w.assign re o schema attr v).1 (w'.assign re o schema attr v).1 := by
  have hput := h.putAt o attr v
  have hsame : w'.Reports o schema attr v ↔ w.Reports o schema attr v := by
    rw [Reports, Reports, h.attribute?_eq hheard]
  by_cases hreports : w.Reports o schema attr v
  · have hspread : Agree own b k (w.spread o attr v) (w'.spread o attr v) :=
      ((Agree.repinned b k _ _).symm.trans (((hw.putAt o attr v).pruneAt_agree o.id).symm.trans
        (hput.trans ((hw'.putAt o attr v).pruneAt_agree o.id)))).trans (Agree.repinned b k _ _)
    -- in either session the ears of the binding tell it, and they are the same
    have htold := hw.assign_reported hpins re hreports
    have htold' := hw'.assign_reported hpins' re (hsame.mpr hreports)
    have hchange : w'.changeTo o attr v = w.changeTo o attr v := by
      rw [changeTo, changeTo, h.attribute?_eq hheard]
    rw [hchange, h.ears, h.issue] at htold'
    exact htold.symm.trans ((hspread.told_iterate (w.changeTo o attr v) _
      (hw.spread o attr v).lines).trans htold')
  · rw [assign_of_unreported re hreports, assign_of_unreported re (mt hsame.mp hreports)]
    split
    · exact hput
    · exact h

theorem pins_pinValues {pins : List Pin} (h : ∀ pin ∈ pins, pin.subscription? = none)
    (vs : List Value) : ∀ pin ∈ pinValues vs ++ pins, pin.subscription? = none := by
  intro pin hpin
  rcases List.mem_append.mp hpin with hvalue | hold
  · obtain ⟨v, -, rfl⟩ := List.mem_map.mp hvalue
    rfl
  · exact h pin hold

theorem Resident.assigned_unheard (h : Resident own b k w)
    (hpins : ∀ pin ∈ w.pins, pin.subscription? = none) {o : ObjectRef}
    (hnone : w.ears k o.id = []) (re : Reentry) (schema : Schema) (attr : String) (v : Value) :
    Agree own b k w (w.assigned re o schema attr v) :=
  (Agree.repinned b k w _).trans (((h.repinned _).assign_unheard (pins_pinValues hpins _) hnone re
    schema attr v).trans (Agree.repinned b k _ w.pins))

theorem Agree.assigned (h : Agree own b k w w') (hw : Resident own b k w)
    (hw' : Resident own b k w') (hpins : ∀ pin ∈ w.pins, pin.subscription? = none)
    (hpins' : ∀ pin ∈ w'.pins, pin.subscription? = none) {o : ObjectRef}
    (hheard : w.ears k o.id ≠ []) (re : Reentry) (schema : Schema) (attr : String) (v : Value) :
    Agree own b k (w.assigned re o schema attr v) (w'.assigned re o schema attr v) := by
  have hpinned : Agree own b k { w with pins := pinValues [.object o, v] ++ w.pins }
      { w' with pins := pinValues [.object o, v] ++ w'.pins } :=
    ((Agree.repinned b k w _).symm.trans h).trans (Agree.repinned b k w' _)
  have hdone := hpinned.assign (hw.repinned _) (hw'.repinned _) (pins_pinValues hpins _)
    (pins_pinValues hpins' _) hheard re schema attr v
  exact ((Agree.repinned b k _ w.pins).symm.trans hdone).trans (Agree.repinned b k _ w'.pins)

theorem Resident.setBy (h : Resident own b k w) (re : Reentry) (s : Setting) :
    Resident own b k (w.setBy re s) := by
  unfold Session.setBy
  split
  · exact h.assigned re _ _ _ _
  · exact h

theorem Resident.setEach (re : Reentry) : ∀ (settings : List Setting) {w : Session},
    Resident own b k w → Resident own b k (w.setEach re settings)
  | [], _, h => h
  | s :: rest, _, h => (h.setBy re s).setEach re rest

theorem pins_setBy (re : Reentry) (w : Session) (s : Setting) : (w.setBy re s).pins = w.pins := by
  unfold setBy
  split <;> rfl

theorem Resident.setBy_unheard (h : Resident own b k w)
    (hpins : ∀ pin ∈ w.pins, pin.subscription? = none) (re : Reentry) {s : Setting}
    (hnone : w.ears k s.object.id = []) : Agree own b k w (w.setBy re s) := by
  unfold Session.setBy
  split
  · exact h.assigned_unheard hpins hnone re _ _ _
  · exact Agree.refl b k w

/-- **An assignment in both sessions**, to whichever object. -/
theorem Agree.setBy (h : Agree own b k w w') (hw : Resident own b k w) (hw' : Resident own b k w')
    (hpins : ∀ pin ∈ w.pins, pin.subscription? = none)
    (hpins' : ∀ pin ∈ w'.pins, pin.subscription? = none) (re : Reentry) (s : Setting) :
    Agree own b k (w.setBy re s) (w'.setBy re s) := by
  by_cases hheard : w.ears k s.object.id = []
  · have hheard' : w'.ears k s.object.id = [] := (h.ears _).trans hheard
    exact ((hw.setBy_unheard hpins re hheard).symm.trans h).trans
      (hw'.setBy_unheard hpins' re hheard')
  · simp only [Session.setBy, h.schema?_eq hheard]
    split
    · exact h.assigned hw hw' hpins hpins' hheard re _ _ _
    · exact h

/-- The observers that tell the binding of an assignment are among its ears. -/
theorem Resident.tidings_eq (h : Resident own b k w)
    (hpins : ∀ pin ∈ w.pins, pin.subscription? = none) {B : Binding} {schema : Schema} {s : Setting}
    (hB : w.bindings[b]? = some B) (hschema : w.schema? s.object = some schema) :
    w.tidings b s = if w.Reports s.object schema s.attr s.value ∧ B.evaluating = false then
        List.replicate ((w.ears k s.object.id).countP fun ob =>
          ob.attr = s.attr ∧ ob.action.carries (w.issue k.channel))
          (w.changeTo s.object s.attr s.value)
      else [] := by
  obtain ⟨B', hB', rfl⟩ := exists_binding_of_lines h.lines
  obtain rfl := Option.some.inj (hB'.symm.trans hB)
  simp only [tidings, hB, hschema]
  rw [← h.countP_reached hpins]
  rfl

theorem Resident.tidings_unheard (h : Resident own b k w)
    (hpins : ∀ pin ∈ w.pins, pin.subscription? = none) {s : Setting}
    (hnone : w.ears k s.object.id = []) : w.tidings b s = [] := by
  obtain ⟨B, hB, -⟩ := exists_binding_of_lines h.lines
  cases hschema : w.schema? s.object with
  | none => simp only [tidings, hB, hschema]
  | some schema =>
      rw [h.tidings_eq hpins hB hschema, hnone]
      exact ite_self []

/-- **An assignment tells the binding the same in both sessions.** -/
theorem Agree.tidings_eq (h : Agree own b k w w') (hw : Resident own b k w)
    (hw' : Resident own b k w') (hpins : ∀ pin ∈ w.pins, pin.subscription? = none)
    (hpins' : ∀ pin ∈ w'.pins, pin.subscription? = none) (s : Setting) :
    w'.tidings b s = w.tidings b s := by
  by_cases hnone : w.ears k s.object.id = []
  · rw [hw.tidings_unheard hpins hnone, hw'.tidings_unheard hpins' ((h.ears _).trans hnone)]
  · obtain ⟨B, hB, -⟩ := exists_binding_of_lines hw.lines
    have hB' : w'.bindings[b]? = some B := h.binding.trans hB
    have hsame := h.schema?_eq hnone
    cases hschema : w.schema? s.object with
    | none => simp only [tidings, hB, hB', hsame, hschema]
    | some schema =>
        have hreports : w'.Reports s.object schema s.attr s.value ↔
            w.Reports s.object schema s.attr s.value := by
          rw [Reports, Reports, h.attribute?_eq hnone]
        have hchange : w'.changeTo s.object s.attr s.value
            = w.changeTo s.object s.attr s.value := by
          rw [changeTo, changeTo, h.attribute?_eq hnone]
        rw [hw.tidings_eq hpins hB hschema, hw'.tidings_eq hpins' hB' (hsame.trans hschema), h.ears,
          h.issue, hchange]
        simp only [hreports]

/-- **Any assignments** in sessions that agree about the binding. -/
theorem Agree.setEach (re : Reentry) : ∀ {settings : List Setting} {w w' : Session},
    Agree own b k w w' → Resident own b k w → Resident own b k w' →
    (∀ pin ∈ w.pins, pin.subscription? = none) → (∀ pin ∈ w'.pins, pin.subscription? = none) →
    Agree own b k (w.setEach re settings) (w'.setEach re settings)
  | [], _, _, h, _, _, _, _ => h
  | s :: rest, w, w', h, hw, hw', hpins, hpins' => by
      have hnext := h.setBy hw hw' hpins hpins' re s
      rw [← pins_setBy re w s] at hpins
      rw [← pins_setBy re w' s] at hpins'
      exact hnext.setEach re (hw.setBy re s) (hw'.setBy re s) hpins hpins'

/-- **Any assignments tell the binding the same in both sessions.** -/
theorem Agree.tidingsEach_eq (re : Reentry) : ∀ {settings : List Setting} {w w' : Session},
    Agree own b k w w' → Resident own b k w → Resident own b k w' →
    (∀ pin ∈ w.pins, pin.subscription? = none) → (∀ pin ∈ w'.pins, pin.subscription? = none) →
    w'.tidingsEach re b settings = w.tidingsEach re b settings
  | [], _, _, _, _, _, _, _ => rfl
  | s :: rest, w, w', h, hw, hw', hpins, hpins' => by
      have hfirst := h.tidings_eq hw hw' hpins hpins' s
      have hnext := h.setBy hw hw' hpins hpins' re s
      rw [← pins_setBy re w s] at hpins
      rw [← pins_setBy re w' s] at hpins'
      rw [tidingsEach, tidingsEach, hfirst,
        hnext.tidingsEach_eq re (hw.setBy re s) (hw'.setBy re s) hpins hpins']

/-- A binding that is told of a change writes it down, unless it is under evaluation. -/
theorem written_told {B : Binding} (hB : w.bindings[b]? = some B) (change : Change) :
    (w.told change b).written B.onInvalid
      = if B.evaluating = false then B.onInvalid.adds change (w.written B.onInvalid)
        else w.written B.onInvalid := by
  simp only [told, hB]
  cases B.evaluating with
  | true => exact written_congr rfl rfl
  | false =>
      cases B.onInvalid with
      | script name actions => simp [noticed, note, written, Invalidation.adds, LogEntry.tells,
          Session.modifyBinding]
      | record r => simp [noticed, record, written, Invalidation.adds, Session.modifyBinding]
      | rerun name actions => rfl

theorem exists_binding_told {B : Binding} (hB : w.bindings[b]? = some B) (change : Change) :
    ∃ C, (w.told change b).bindings[b]? = some C ∧ C.onInvalid = B.onInvalid ∧
      C.evaluating = B.evaluating := by
  obtain ⟨dirty, hC⟩ := (stirs_told change b w).binding hB
  exact ⟨_, hC, rfl, rfl⟩

theorem written_told_iterate (change : Change) : ∀ (n : Nat) {w : Session} {B : Binding},
    w.bindings[b]? = some B →
    ((told change b)^[n] w).written B.onInvalid
      = if B.evaluating = false then
          (List.replicate n change).foldl (fun before c => B.onInvalid.adds c before)
            (w.written B.onInvalid)
        else w.written B.onInvalid
  | 0, w, B, _ => by
      rw [List.replicate_zero, List.foldl_nil, ite_self]
      rfl
  | n + 1, w, B, hB => by
      obtain ⟨C, hC, hcallback, hevaluating⟩ := exists_binding_told hB change
      have hrest := written_told_iterate change n hC
      rw [hcallback, hevaluating, written_told hB] at hrest
      rw [Function.iterate_succ_apply, hrest, List.replicate_succ, List.foldl_cons]
      cases B.evaluating <;> rfl

/-- **The callback of the binding writes what the binding is told**, and nothing else, if nothing
else writes there. -/
theorem Resident.written_setBy (h : Resident own b k w) (hown : own)
    (hpins : ∀ pin ∈ w.pins, pin.subscription? = none) (re : Reentry) (s : Setting) :
    (w.setBy re s).written k.onInvalid
      = (w.tidings b s).foldl (fun before change => k.onInvalid.adds change before)
          (w.written k.onInvalid) := by
  obtain ⟨B, hB, rfl⟩ := exists_binding_of_lines h.lines
  cases hschema : w.schema? s.object with
  | none => simp only [Session.setBy, tidings, hB, hschema, List.foldl_nil]
  | some schema =>
      rw [h.tidings_eq hpins hB hschema]
      simp only [Session.setBy, hschema]
      let pinned : Session := { w with pins := pinValues [.object s.object, s.value] ++ w.pins }
      have hassigned : (w.assigned re s.object schema s.attr s.value).written B.lines.onInvalid
          = (pinned.assign re s.object schema s.attr s.value).1.written B.lines.onInvalid :=
        written_congr rfl rfl
      rw [hassigned]
      by_cases hreports : w.Reports s.object schema s.attr s.value
      · have htold := (h.repinned _).assign_reported (pins_pinValues hpins _) re
          (show pinned.Reports s.object schema s.attr s.value from hreports)
        have hspread : (pinned.spread s.object s.attr s.value).written B.onInvalid
            = w.written B.onInvalid := written_congr rfl rfl
        have hall := written_told_iterate (w.changeTo s.object s.attr s.value)
          ((w.ears B.lines s.object.id).countP fun ob =>
            ob.attr = s.attr ∧ ob.action.carries (w.issue B.lines.channel))
          (show (pinned.spread s.object s.attr s.value).bindings[b]? = some B from hB)
        rw [hspread] at hall
        refine (htold.written hown).trans (hall.trans ?_)
        cases B.evaluating with
        | false => rw [if_pos rfl, if_pos ⟨hreports, rfl⟩]; rfl
        | true => rw [if_neg nofun, if_neg fun hboth => nomatch hboth.2]; rfl
      · rw [if_neg fun hboth => hreports hboth.1, List.foldl_nil]
        rcases assign_of_not_reports re (show ¬ pinned.Reports s.object schema s.attr s.value
          from hreports) with heq | heq <;> rw [heq] <;> exact written_congr rfl rfl

/-- **Whatever attributes are set**, the callback writes what the binding is told. -/
theorem Resident.written_setEach (hown : own) (re : Reentry) : ∀ (settings : List Setting)
    {w : Session}, Resident own b k w → (∀ pin ∈ w.pins, pin.subscription? = none) →
    (w.setEach re settings).written k.onInvalid
      = (w.tidingsEach re b settings).flatten.foldl
          (fun before change => k.onInvalid.adds change before) (w.written k.onInvalid)
  | [], _, _, _ => rfl
  | s :: rest, w, h, hpins => by
      have hfirst := h.written_setBy hown hpins re s
      rw [← pins_setBy re w s] at hpins
      have hrest := (h.setBy re s).written_setEach hown re rest hpins
      rw [hfirst] at hrest
      rw [tidingsEach, List.flatten_cons, List.foldl_append]
      exact hrest

end Setting

end Session
end TrackedExpr
