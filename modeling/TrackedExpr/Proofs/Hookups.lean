import Mathlib
import TrackedExpr.Proofs.Exactness
import TrackedExpr.Proofs.Onward
import TrackedExpr.Proofs.Wiring

/-!
# All that a hookup can do

Asked to listen to an attribute of an object that exists, a policy refuses, finds its
channel gone, finds the listener that it has, or gains one.  A policy that was left
behind by a reset of its channel starts over first.

**Definitions.**
* `refreshed`: the registry with which a hookup goes on;
* `withListener`: a session in which a policy has gained a listener;
* `HookUp`: what a hookup leads to.

**Results.**
* `hookUp_cases`: a hookup leads to nothing else;
* `HookUp.unpinned`: what is held on to meanwhile does not matter.
-/

namespace TrackedExpr

/-- The listener that an answer names. -/
def Session.Hookup.key? : Hookup SlotKey → Option SlotKey
  | .attached key | .alreadyBound key => some key
  | _ => none

namespace Session

/-- The registry with which a hookup goes on if there is a channel: one of another generation
starts over. -/
def refreshed (w : Session) (r : Registry) : Registry :=
  if w.connected r.token then r else { r.clear with token := w.issue r.token.channel }

/-- A session in which a policy has gained a listener for an attribute of an object. -/
def withListener (p : Nat) (r : Registry) (subject : SlotKey) (o : ObjectRef) (attr : String)
    (w : Session) : Session :=
  { w with
    objects := w.objects.modify o.id fun cell => { cell with
      observers := cell.observers ++
        [⟨attr, w.subscriptions, .forward (some r.listeners.nextKey) r.token⟩] }
    policies := w.policies.modify p fun policy => { policy with
      registry := r.attach ⟨subject, attr, w.subscriptions⟩, busy := false }
    subscriptions := w.subscriptions + 1 }

/-- What a hookup of a policy at an attribute of an object leads to. -/
inductive HookUp (p : Nat) (P : Policy) (w : Session) (o : ObjectRef) (attr : String) :
    Session → Hookup SlotKey → Prop
  | refused {h : Hookup SlotKey} :
      w.declared? o attr ≠ some .observable →
      h.key? = none →
      h ≠ .detached →
      HookUp p P w o attr w h
  | detached :
      w.declared? o attr = some .observable →
      w.channelAlive P.registry.token.channel = false →
      HookUp p P w o attr (w.setRegistry p P.registry.clear) .detached
  | found {r : Registry} {subject key : SlotKey} :
      w.declared? o attr = some .observable →
      w.channelAlive P.registry.token.channel = true →
      (w.refreshed P.registry).Admits o r subject →
      Assoc.get? (subject, attr) r.index = some key →
      HookUp p P w o attr (w.setRegistry p r) (.alreadyBound key)
  | attached {r : Registry} {subject : SlotKey} :
      w.declared? o attr = some .observable →
      w.channelAlive P.registry.token.channel = true →
      (w.refreshed P.registry).Admits o r subject →
      Assoc.get? (subject, attr) r.index = none →
      HookUp p P w o attr (w.withListener p r subject o attr) (.attached r.listeners.nextKey)

section Listening

theorem sameShapes_withListener (w : Session) (p : Nat) (r : Registry) (subject : SlotKey)
    (o : ObjectRef) (attr : String) :
    SameShapes w.objects (w.withListener p r subject o attr).objects :=
  SameShapes.modify _ _ fun _ => rfl

theorem attribute?_withListener (w : Session) (p : Nat) (r : Registry) (subject : SlotKey)
    (o : ObjectRef) (attr : String) :
    (w.withListener p r subject o attr).attribute? = w.attribute? := by
  funext x a
  simp only [attribute?, object?, withListener, List.getElem?_modify]
  cases w.objects[x.id]? with
  | none => rfl
  | some cell => by_cases hx : o.id = x.id <;> simp [hx]

/-- The observer of a new listener comes last at its object. -/
theorem observersAt_withListener {w : Session} {o : ObjectRef} (ho : w.HasObject o) (p : Nat)
    (r : Registry) (subject : SlotKey) (attr : String) (i : Nat) :
    (w.withListener p r subject o attr).observersAt (.object i)
      = w.observersAt (.object i) ++ if i = o.id then
          [⟨attr, w.subscriptions, .forward (some r.listeners.nextKey) r.token⟩] else [] := by
  obtain ⟨cell, hcell, -⟩ := ho
  rw [object?] at hcell
  simp only [observersAt, withListener, List.getElem?_modify]
  by_cases hi : i = o.id
  · subst hi
    simp [hcell]
  · cases w.objects[i]? with
    | none => simp [hi]
    | some cell => simp [hi, Ne.symm hi]

end Listening

section Refreshing

variable {w : Session} {r : Registry} {o : ObjectRef}

theorem refreshed_exact (h : r.Exact) : (w.refreshed r).Exact := by
  unfold refreshed
  split
  · exact h
  · exact h.clear _

/-- The registry that a hookup goes on with is of the present generation. -/
theorem refreshed_token (w : Session) (r : Registry) :
    (w.refreshed r).token = w.issue r.token.channel := by
  obtain ⟨⟨channel, generation⟩, subjects, listeners, index⟩ := r
  unfold refreshed
  by_cases hconnected : w.connected ⟨channel, generation⟩ = true
  · rw [if_pos hconnected]
    simp only [connected, Bool.and_eq_true, decide_eq_true_eq] at hconnected
    simp [issue, hconnected.2]
  · rw [if_neg hconnected]

/-- A token is connected if it is of the present generation of a channel that is there. -/
theorem connected_iff {token : Token} (halive : w.channelAlive token.channel = true) :
    w.connected token = true ↔ token = w.issue token.channel := by
  obtain ⟨channel, generation⟩ := token
  simp [connected, halive, issue, eq_comm]

theorem resync_of_alive (halive : w.channelAlive r.token.channel = true) :
    r.resync (w.connected r.token) (w.renew? r.token) = (w.refreshed r, true) := by
  unfold Registry.resync refreshed renew?
  rw [halive]
  split <;> rfl

theorem resync_of_gone (hgone : w.channelAlive r.token.channel = false) :
    r.resync (w.connected r.token) (w.renew? r.token) = (r.clear, false) := by
  simp [Registry.resync, connected, renew?, hgone]

theorem get?_refreshed {key : SlotKey} {x : ObjectRef}
    (h : (w.refreshed r).subjects.slots.get? key = some x) :
    r.subjects.slots.get? key = some x := by
  unfold refreshed at h
  split at h
  · exact h
  · rw [Registry.clear, SubjectArena.clear, Slots.get?_clear] at h
    cases h

end Refreshing

section Cases

variable {w : Session} {p : Nat} {P : Policy} {o : ObjectRef} {attr : String}

/-- **All that a hookup can do** at an object that exists, whose address no other object has that
the policy remembers. -/
theorem hookUp_cases (re : Reentry) (hP : w.policies[p]? = some P) (hexact : P.registry.Exact)
    (hkind : ∀ cell, w.object? o = some cell → cell.kind.Idle) (halive : w.objectAlive o = true)
    (hplace : ∀ key x, P.registry.subjects.slots.get? key = some x → x.address = o.address →
      x = o) (attr : String) :
    HookUp p P w o attr (w.hookUp re p (.object o) attr).1 (w.hookUp re p (.object o) attr).2 := by
  unfold hookUp
  dsimp only
  split
  · next hobservable =>
      unfold listen
      rw [hP]
      dsimp only
      cases hchannel : w.channelAlive P.registry.token.channel with
      | false =>
          rw [resync_of_gone hchannel]
          exact HookUp.detached hobservable hchannel
      | true =>
          rw [resync_of_alive hchannel]
          dsimp only
          obtain ⟨r, subject, hlookup, hadmits⟩ :=
            @Registry.Exact.lookup _ w.objectAlive o attr (refreshed_exact hexact) halive
              fun key x hx => hplace key x (get?_refreshed hx)
          rw [hlookup]
          cases hkey : Assoc.get? (subject, attr) r.index with
          | some key => exact HookUp.found hobservable hchannel hadmits hkey
          | none =>
              have hattached := attachListener_eq re r subject attr hkind (p := p)
              have hanswer : (w.attachListener re p r subject o attr).2
                  = .attached r.listeners.nextKey := rfl
              dsimp only
              rw [hattached, hanswer]
              exact HookUp.attached hobservable hchannel hadmits hkey
  · next d hother hdeclared =>
      refine HookUp.refused ?_ rfl nofun
      rw [hdeclared]
      exact fun heq => hother (Option.some.inj heq)
  · next hdeclared =>
      refine HookUp.refused ?_ rfl nofun
      rw [hdeclared]
      nofun

/-- Pins that hold on to no channel and no binding do not keep channels. -/
theorem channelAlive_pinned {pins : List Pin}
    (hpins : ∀ pin ∈ pins, pin.channel? = none ∧ pin.binding? = none) (c : Nat) :
    channelAlive { w with pins := pins ++ w.pins } c = w.channelAlive c := by
  have hchannels : (pins ++ w.pins).filterMap Pin.channel? = w.pins.filterMap Pin.channel? := by
    rw [List.filterMap_append, List.filterMap_eq_nil_iff.mpr fun pin hpin => (hpins pin hpin).1,
      List.nil_append]
  have hbindings : (pins ++ w.pins).filterMap Pin.binding? = w.pins.filterMap Pin.binding? := by
    rw [List.filterMap_append, List.filterMap_eq_nil_iff.mpr fun pin hpin => (hpins pin hpin).2,
      List.nil_append]
  simp only [channelAlive, liveBindings, bindingAlive, hchannels, hbindings]

theorem connected_pinned {pins : List Pin}
    (hpins : ∀ pin ∈ pins, pin.channel? = none ∧ pin.binding? = none) (token : Token) :
    connected { w with pins := pins ++ w.pins } token = w.connected token := by
  rw [connected, connected, channelAlive_pinned hpins]
  rfl

/-- What is held on to during a hookup does not matter to what it leads to. -/
theorem HookUp.unpinned {pins : List Pin} {s : Session} {h : Hookup SlotKey}
    (hpins : ∀ pin ∈ pins, pin.channel? = none ∧ pin.binding? = none)
    (hhook : HookUp p P { w with pins := pins ++ w.pins } o attr s h) :
    HookUp p P w o attr { s with pins := w.pins } h := by
  have hrefreshed : refreshed { w with pins := pins ++ w.pins } P.registry
      = w.refreshed P.registry := by
    rw [refreshed, refreshed, connected_pinned hpins]
    rfl
  cases hhook with
  | refused hdeclared hkey hdetached => exact HookUp.refused hdeclared hkey hdetached
  | detached hdeclared hgone =>
      rw [channelAlive_pinned hpins] at hgone
      exact HookUp.detached hdeclared hgone
  | found hdeclared halive hadmits hkey =>
      rw [channelAlive_pinned hpins] at halive
      rw [hrefreshed] at hadmits
      exact HookUp.found hdeclared halive hadmits hkey
  | attached hdeclared halive hadmits hnone =>
      rw [channelAlive_pinned hpins] at halive
      rw [hrefreshed] at hadmits
      exact HookUp.attached hdeclared halive hadmits hnone

end Cases

section Channels

variable {w : Session}

/-- A policy that is not in the middle of a hookup is pruned. -/
theorem prunePolicy_eq {p : Nat} {P : Policy} (hP : w.policies[p]? = some P)
    (hidle : P.busy = false) : w.prunePolicy p = (w.setRegistry p (P.registry.prune w.objectAlive).1,
      (P.registry.prune w.objectAlive).2) := by
  simp [prunePolicy, hP, hidle]

/-- Counts that fit a generation are told apart by it. -/
theorem eq_of_ofNat_eq {m n : Nat} (hm : m < 2 ^ 64) (hn : n < 2 ^ 64)
    (h : UInt64.ofNat m = UInt64.ofNat n) : m = n := by
  have hsame := congrArg UInt64.toNat h
  rwa [UInt64.toNat_ofNat_of_lt' hm, UInt64.toNat_ofNat_of_lt' hn] at hsame

/-- A channel that was reset once more. -/
theorem getElem?_resetChannel {c n : Nat} {sink : Sink}
    (h : w.channels[c]? = some ⟨UInt64.ofNat n, sink⟩) :
    (w.resetChannel c).channels[c]? = some ⟨UInt64.ofNat (n + 1), sink⟩ := by
  simp [resetChannel, modifyChannel, h]

end Channels

end Session
end TrackedExpr
