import Mathlib
import TrackedExpr.Proofs.Announcements
import TrackedExpr.Proofs.Ledgers

/-!
# Policies keep exact books

A program makes a channel and a policy on it, and then asks the policy to listen,
prunes and clears it, resets the channel, and names, forgets, makes and changes
objects, in any order.  All the while the index and the listeners of the policy say
the same, and every listener has exactly one subscription, which is held.

**Definitions.**
* `bindTo`: asking a policy to listen, on request;
* `PolicyStep`, `PolicyRun`: what the program does;
* `Outset`: the session in which it begins;
* `Kept`: all that holds of a session that the program reaches.

**Results.**
* `Kept.bind`, `Kept.prune` and the like: each operation keeps everything in order;
* `PolicyRun.kept`: all of it holds in every session that the program reaches.
-/

namespace TrackedExpr
namespace Session

section Operations

/-- Asks a policy to listen to an attribute of a value, holding on to both, and counts a new
listener. -/
def bindTo (re : Reentry) (p : Nat) (v : Value) (attr : String) (w : Session) :
    Session × Hookup SlotKey :=
  let (w, h) := w.holding [.policy p, .value v] (hookUp re p v attr)
  (w.countListener p h, h)

/-- The command that asks a policy to listen. -/
theorem bindNamed_eq (re : Reentry) {w : Session} {id attr : String} {value : Literal} {p : Nat}
    {P : Policy} {v : Value} (hp : named w.names.policies id = .ok p)
    (hv : w.literal value = .ok v) (hidle : w.idle id p = .ok P) :
    w.bindNamed re id value attr = .ok ((w.bindTo re p v attr).1,
      .hookup ((w.bindTo re p v attr).2.map fun key =>
        ((w.bindTo re p v attr).1.attachedTo p).idxOf? key)) := by
  unfold bindNamed
  simp only [hp, hv, hidle, bind, Except.bind]
  rfl

/-- The answer to be remembered when a policy was asked to listen to an attribute of a value. -/
def answersTo (v : Value) (attr : String) (h : Hookup SlotKey) : List Answer :=
  match v with
  | .object o => [⟨o, attr, h⟩]
  | _ => []

/-- A session in which an object was made and named. -/
def withObject (id : String) (cell : ObjectCell) (w : Session) : Session :=
  { w with
    objects := w.objects ++ [cell]
    names := { w.names with objects := Assoc.put id cell.ref w.names.objects } }

/-- Nothing comes of a change of an object but entries of the log: a channel writes its events
down, and whoever observes the object does so too or passes changes on to the channel. -/
def OnlyTold (w : Session) (c : Nat) (o : ObjectRef) : Prop :=
  (∃ g name, w.channels[c]? = some ⟨g, .script name []⟩) ∧
    ∀ ob ∈ w.observersAt (.object o.id), ReportsTo c ob

/-- A session, what a policy answered since it last started from nothing or its channel was reset,
and how often that was. -/
structure Ledger where
  session : Session
  answers : List Answer
  resets : Nat

/-- What a program may do with one policy on one channel, and with objects.  An address may be
given to a new object if no object that exists has it and the policy remembers none there. -/
inductive PolicyStep (re : Reentry) (p c : Nat) : Ledger → Ledger → Prop
  | bind {w : Session} {answers : List Answer} {n : Nat} {v : Value} {attr : String} :
      w.InHand v →
      PolicyStep re p c ⟨w, answers, n⟩
        ⟨(w.bindTo re p v attr).1, answersTo v attr (w.bindTo re p v attr).2 ++ answers, n⟩
  | prune {w : Session} {answers : List Answer} {n : Nat} :
      PolicyStep re p c ⟨w, answers, n⟩ ⟨(w.prunePolicy p).1, answers, n⟩
  | clear {w : Session} {answers : List Answer} {n : Nat} {P : Policy} :
      w.policies[p]? = some P →
      PolicyStep re p c ⟨w, answers, n⟩ ⟨w.setRegistry p P.registry.clear, [], n⟩
  | reset {w : Session} {answers : List Answer} {n : Nat} :
      PolicyStep re p c ⟨w, answers, n⟩ ⟨w.resetChannel c, [], n + 1⟩
  | rename {w : Session} {answers : List Answer} {n : Nat} {objects : List (String × ObjectRef)}
      {channels : List (String × Nat)} {scope : Scope} :
      (∀ e ∈ objects, w.Present e.2) →
      (∀ e ∈ channels, w.channelAlive e.2 = true) →
      (∀ e ∈ scope, w.InHand e.2) →
      PolicyStep re p c ⟨w, answers, n⟩
        ⟨{ w with names := { w.names with objects := objects, channels := channels },
                  scope := scope }, answers, n⟩
  | create {w : Session} {answers : List Answer} {n : Nat} {id : String} {cell : ObjectCell} :
      cell.ref.id = w.objects.length →
      cell.kind.Idle →
      cell.observers = [] →
      (∀ e ∈ cell.attrs, w.InHand e.2) →
      (∀ x, w.Present x → x.address ≠ cell.ref.address) →
      (∀ P key x, w.policies[p]? = some P → P.registry.subjects.slots.get? key = some x →
        x.address ≠ cell.ref.address) →
      PolicyStep re p c ⟨w, answers, n⟩ ⟨w.withObject id cell, answers, n⟩
  | assign {w : Session} {answers : List Answer} {n : Nat} {o : ObjectRef} {schema : Schema}
      {attr : String} {v : Value} :
      w.OnlyTold c o →
      w.Present o →
      w.schema? o = some schema →
      w.InHand v →
      PolicyStep re p c ⟨w, answers, n⟩ ⟨w.assigned re o schema attr v, answers, n⟩

/-- What a program does with the policy, one thing after another. -/
def PolicyRun (re : Reentry) (p c : Nat) : Ledger → Ledger → Prop :=
  Relation.ReflTransGen (PolicyStep re p c)

/-- A session in which a channel and a policy on it have just been made. -/
structure Outset (p c : Nat) (sink : Sink) (w : Session) : Prop where
  cells : Numbered w
  kinds : ∀ (i : Nat) (cell : ObjectCell), w.objects[i]? = some cell → cell.kind.Idle
  apart : ∀ o x, w.Present o → w.Present x → o.address = x.address → o = x
  pins : w.pins = []
  observers : ∀ (i : Nat), ∀ ob ∈ w.observersAt (.object i), ob.subscription < w.subscriptions
  held : ∀ s ∈ w.names.subscriptions.map Prod.snd ++ w.names.handles.map Prod.snd,
    s < w.subscriptions
  others : ∀ (q : Nat) (Q : Policy), q ≠ p → w.policies[q]? = some Q →
    ∀ s ∈ Q.registry.subscriptions, s < w.subscriptions
  channel : w.channels[c]? = some ⟨0, sink⟩
  policy : w.policies[p]? = some ⟨Registry.empty ⟨c, 0⟩, [], false⟩
  named : ∃ e ∈ w.names.policies, e.2 = p

end Operations

section Moves

variable {re : Reentry} {p c : Nat} {sink : Sink} {start w : Session} {P : Policy}
  {answers : List Answer} {n : Nat} {o : ObjectRef}

/-- All that holds of a session in which a program works with a policy. -/
def Kept (p c : Nat) (sink : Sink) (start w : Session) (answers : List Answer) (n : Nat) : Prop :=
  ∃ P, Ground c sink start w n ∧ Clerk p c start w P ∧ Tally c w P answers n

/-- What asking the policy to listen to an object leads to. -/
theorem bindTo_cases (re : Reentry) (hground : Ground c sink start w n)
    (hclerk : Clerk p c start w P) (ho : w.Present o) (attr : String) :
    ∃ s, HookUp p P w o attr s (w.bindTo re p (.object o) attr).2 ∧
      (w.bindTo re p (.object o) attr).1
        = s.countListener p (w.bindTo re p (.object o) attr).2 := by
  have hobject := ho.1
  obtain ⟨cell, hcell, href⟩ := hobject
  let pins : List Pin := [.policy p, .value (.object o)]
  have hid : cell.ref.id = o.id := by rw [href]
  have halive := @objectAlive_of_pinned { w with pins := pins ++ w.pins } cell o (.object o)
    (by simp [pins]) (List.mem_singleton_self o) hcell hid o rfl
  have hcases := hookUp_cases re (w := { w with pins := pins ++ w.pins }) hclerk.policy
    hclerk.exact (fun cell hcell => hground.kinds _ cell hcell) halive
    (fun key x hx haddr => (hclerk.known key x hx).2 o ho haddr) attr
  exact ⟨_, hcases.unpinned (by simp [pins, Pin.channel?, Pin.binding?]), rfl⟩

theorem generation_of_ground (h : Ground c sink start w n) :
    w.generation c = UInt64.ofNat n := by
  rw [generation, h.channel]

theorem withListener_setRegistry (w : Session) (p : Nat) (r r' : Registry) (subject : SlotKey)
    (o : ObjectRef) (attr : String) :
    (w.setRegistry p r).withListener p r' subject o attr = w.withListener p r' subject o attr := by
  simp only [withListener, setRegistry, modifyPolicy, List.modify_modify_eq]
  rfl

/-- The policy, after an object that exists was looked up. -/
theorem Clerk.admit (h : Clerk p c start w P) (hground : Ground c sink start w n)
    (ho : w.Present o) {r : Registry} {subject : SlotKey}
    (hadmits : (w.refreshed P.registry).Admits o r subject) :
    Clerk p c start (w.setRegistry p r) { P with registry := r } ∧ r.token = w.issue c := by
  have htoken : r.token = w.issue c := by
    rw [hadmits.token, refreshed_token, h.channel]
  refine ⟨h.setRegistry hadmits.exact (by rw [htoken]; rfl) ?_ (dwindles_of_admits h.exact hadmits),
    htoken⟩
  intro key x hx
  rcases (hadmits.keys key x).mp hx with hold | ⟨-, rfl⟩
  · exact h.known key x (get?_refreshed hold)
  · exact ⟨ho.1, fun y hy haddr => hground.apart x y ho hy haddr⟩

/-- The answers, after an object that exists was looked up. -/
theorem Tally.admit (h : Tally c w P answers n) (hclerk : Clerk p c start w P)
    (hground : Ground c sink start w n) {r : Registry} {subject : SlotKey}
    (hadmits : (w.refreshed P.registry).Admits o r subject) (htoken : r.token = w.issue c) :
    Tally c (w.setRegistry p r) { P with registry := r } answers n := by
  refine h.setRegistry p ?_ (dwindles_of_admits hclerk.exact hadmits) ?_ (Or.inr htoken)
    (generation_of_ground hground)
  · intro key hkey
    rw [hadmits.listeners]
    unfold refreshed
    split
    · exact hkey
    · exact hkey.clear
  · intro key l x hl _ hchannel _ hissue
    have hconnected : w.connected P.registry.token = true := by
      rw [hissue]
      simpa [connected, issue] using hchannel
    rw [hadmits.listeners, refreshed, if_pos hconnected]
    exact ⟨htoken, hl⟩

/-- **Asking the policy to listen** keeps everything in order. -/
theorem Kept.bind (h : Kept p c sink start w answers n) {v : Value} (hv : w.InHand v)
    (re : Reentry) (attr : String) :
    Kept p c sink start (w.bindTo re p v attr).1
      (answersTo v attr (w.bindTo re p v attr).2 ++ answers) n := by
  obtain ⟨P, hground, hclerk, htally⟩ := h
  cases v with
  | object o =>
      have ho : w.Present o := hv o (List.mem_singleton_self o)
      obtain ⟨s, hhook, hstate⟩ := bindTo_cases re hground hclerk ho attr
      rw [hstate]
      show Kept p c sink start _ (⟨o, attr, (w.bindTo re p (.object o) attr).2⟩ :: answers) n
      generalize (w.bindTo re p (.object o) attr).2 = hook at hhook ⊢
      cases hhook with
      | refused hdeclared hkey hdetached =>
          rw [countListener_of_not_attached (by rintro key rfl; cases hkey)]
          exact ⟨P, hground, hclerk, htally.refuse hkey o attr⟩
      | detached hobservable hgone =>
          rw [countListener_of_not_attached (by rintro key ⟨⟩)]
          refine ⟨_, hground.withPolicies _, hclerk.setRegistry (hclerk.exact.clear _) hclerk.channel
            ?_ (dwindles_clear _ _), Tally.refuse ?_ rfl o attr⟩
          · intro key x hx
            rw [Registry.clear, SubjectArena.clear, Slots.get?_clear] at hx
            cases hx
          · refine htally.setRegistry p (fun _ hkey => hkey.clear) (dwindles_clear _ _) ?_
              (Or.inl rfl) (generation_of_ground hground)
            intro key l x _ _ hchannel
            rw [hclerk.channel, hchannel] at hgone
            cases hgone
      | @found r subject key hobservable halive hadmits hkey =>
          rw [countListener_of_not_attached (by rintro key ⟨⟩)]
          obtain ⟨hclerk', htoken⟩ := hclerk.admit hground ho hadmits
          have htally' := htally.admit hclerk hground hadmits htoken
          exact ⟨_, hground.withPolicies _, hclerk',
            htally'.find hclerk'.exact htoken ho.1 hobservable hadmits.self hkey⟩
      | @attached r subject hobservable halive hadmits hnone =>
          obtain ⟨hclerk', htoken⟩ := hclerk.admit hground ho hadmits
          have htally' := htally.admit hclerk hground hadmits htoken
          have hground' := hground.withPolicies (w.setRegistry p r).policies
          obtain ⟨attached, hclerk'', hsubset, hnew⟩ :=
            (hclerk'.withListener hground' ho.1 hadmits.self hnone).countListener
              (.attached r.listeners.nextKey)
          have htally'' := htally'.attach (p := p) hclerk'.exact hground'.cells htoken
            (by rwa [hclerk.channel] at halive) ho hobservable hadmits.self hnone hsubset
            (hnew _ rfl)
          have hground'' := hground'.withListener ho.1 hclerk'.channel p subject attr
          rw [show w.withListener p r subject o attr
            = (w.setRegistry p r).withListener p r subject o attr from
              (withListener_setRegistry w p r r subject o attr).symm]
          exact ⟨_, hground''.withPolicies _, hclerk'', htally''.withPolicies _⟩
  | _ => exact ⟨P, hground, hclerk, htally⟩

/-- A pruned registry has lost the listeners of the objects that are gone. -/
theorem dwindles_of_pruned {alive : ObjectRef → Bool} {r : Registry} {after : Registry × Nat}
    (h : Registry.Pruned alive r after) (hexact : r.Exact) : Dwindles r after.1 := by
  intro key l hl
  rw [h.listeners, Option.filter_eq_some_iff] at hl
  obtain ⟨hl, hserves⟩ := hl
  refine ⟨hl, h.token, ?_⟩
  obtain ⟨y, hy⟩ := hexact.placed key l hl
  rw [Registry.serves_eq hy] at hserves
  intro x
  rw [h.subjects, hy, Option.filter_some, if_pos hserves]

theorem Kept.prune (h : Kept p c sink start w answers n) :
    Kept p c sink start (w.prunePolicy p).1 answers n := by
  obtain ⟨P, hground, hclerk, htally⟩ := h
  have hpruned := @Registry.Exact.prune P.registry w.objectAlive hclerk.exact
  have hdwindles := dwindles_of_pruned hpruned hclerk.exact
  rw [prunePolicy_eq hclerk.policy hclerk.idle]
  refine ⟨_, hground.withPolicies _, hclerk.setRegistry hpruned.exact ?_ ?_ hdwindles,
    htally.setRegistry p hpruned.issued hdwindles ?_ (Or.inl hpruned.token)
      (generation_of_ground hground)⟩
  · rw [hpruned.token]
    exact hclerk.channel
  · intro key x hx
    rw [hpruned.subjects, Option.filter_eq_some_iff] at hx
    exact hclerk.known key x hx.1
  · intro key l x hl hx _ halive htoken
    refine ⟨hpruned.token.trans htoken, ?_⟩
    rw [hpruned.listeners, hl, Option.filter_some, if_pos]
    rw [Registry.serves_eq hx, halive]

theorem Kept.clear (h : Kept p c sink start w answers n) (hP : w.policies[p]? = some P) :
    Kept p c sink start (w.setRegistry p P.registry.clear) [] n := by
  obtain ⟨Q, hground, hclerk, htally⟩ := h
  obtain rfl := Option.some.inj (hP.symm.trans hclerk.policy)
  refine ⟨_, hground.withPolicies _, hclerk.setRegistry (hclerk.exact.clear _) hclerk.channel ?_
    (dwindles_clear _ _), ?_⟩
  · intro key x hx
    rw [Registry.clear, SubjectArena.clear, Slots.get?_clear] at hx
    cases hx
  · exact Tally.nil htally.stamped fun _ _ key => Slots.get?_clear key

/-- A session in which a channel was reset goes on. -/
theorem Numbered.onward_reset (hw : Numbered w) (c : Nat) : Onward w (w.resetChannel c) where
  names := rfl
  pins := rfl
  bindings := rfl
  recorders := rfl
  history := rfl
  sinks := by
    intro i
    rw [resetChannel, modifyChannel, List.getElem?_modify]
    cases w.channels[i]? with
    | none => rfl
    | some channel => by_cases hi : c = i <;> simp [hi]
  channels := fun _ he => channelAlive_of_named he
  values := hw.live_of_named
  cells := fun _ cell hcell => ⟨cell, hcell, rfl, rfl⟩
  attrs := fun _ holder hholder _ hi _ => Or.inr ⟨holder, hholder, hi⟩

theorem Kept.reset (h : Kept p c sink start w answers n) :
    Kept p c sink start (w.resetChannel c) [] (n + 1) := by
  obtain ⟨P, hground, hclerk, htally⟩ := h
  have hon := hground.cells.onward_reset c
  have hcells : Numbered (w.resetChannel c) := hground.cells
  have hchannel := getElem?_resetChannel hground.channel
  refine ⟨P, ⟨hcells, hground.kinds, hground.apart_of hon hcells fun _ ho => ho, hground.pins,
    hchannel, hground.names, hground.bindings, hground.history, hground.counted,
    hground.observers⟩, hclerk.step hon hground.cells hcells rfl (Nat.le_refl _)
      (fun _ ho => Or.inl ho.1) fun _ _ _ _ => rfl, ?_⟩
  apply Tally.nil
  · intro hn
    obtain ⟨m, hm, hgeneration⟩ := htally.stamped (Nat.lt_of_succ_lt hn)
    exact ⟨m, Nat.le_succ_of_le hm, hgeneration⟩
  · intro hn htoken
    -- a token of an earlier generation is not of this one, since the count has not run over
    obtain ⟨m, hm, hgeneration⟩ := htally.stamped (Nat.lt_of_succ_lt hn)
    have hissue : P.registry.token.generation = UInt64.ofNat (n + 1) := by
      rw [htoken]
      show (w.resetChannel c).generation c = _
      rw [generation, hchannel]
    have hsame := eq_of_ofNat_eq (Nat.lt_of_le_of_lt hm (Nat.lt_of_succ_lt hn)) hn
      (hgeneration.symm.trans hissue)
    omega

section Naming

variable {objects : List (String × ObjectRef)} {channels : List (String × Nat)} {scope : Scope}

theorem Numbered.onward_rename (hobjects : ∀ e ∈ objects, w.Present e.2)
    (hchannels : ∀ e ∈ channels, w.channelAlive e.2 = true)
    (hscope : ∀ e ∈ scope, w.InHand e.2) :
    Onward w { w with
      names := { w.names with objects := objects, channels := channels }, scope := scope } where
  names := rfl
  pins := rfl
  bindings := rfl
  recorders := rfl
  history := rfl
  sinks := fun _ => rfl
  channels := hchannels
  values := by
    intro v hv x hx _
    rw [List.mem_append, List.mem_map, List.mem_map] at hv
    rcases hv with ⟨e, he, rfl⟩ | ⟨e, he, rfl⟩
    · obtain rfl := List.mem_singleton.mp hx
      exact objectAlive_iff.mp (hobjects e he).2
    · exact objectAlive_iff.mp (hscope e he x hx).2
  cells := fun _ cell hcell => ⟨cell, hcell, rfl, rfl⟩
  attrs := fun _ holder hholder _ hi _ => Or.inr ⟨holder, hholder, hi⟩

theorem Kept.rename (h : Kept p c sink start w answers n)
    (hobjects : ∀ e ∈ objects, w.Present e.2)
    (hchannels : ∀ e ∈ channels, w.channelAlive e.2 = true)
    (hscope : ∀ e ∈ scope, w.InHand e.2) :
    Kept p c sink start { w with
      names := { w.names with objects := objects, channels := channels }, scope := scope }
        answers n := by
  obtain ⟨P, hground, hclerk, htally⟩ := h
  have hon := Numbered.onward_rename hobjects hchannels hscope
  exact ⟨P, hground.step hon (SameShapes.refl _) rfl (Nat.le_refl _) fun _ _ hob => Or.inl hob,
    hclerk.step hon hground.cells hground.cells rfl (Nat.le_refl _) (fun _ ho => Or.inl ho.1)
      fun _ _ _ _ => rfl, htally.step hon hground.cells hground.cells rfl⟩

end Naming

section Creating

variable {id : String} {cell : ObjectCell}

theorem getElem?_withObject {i : Nat} {cell' : ObjectCell}
    (h : (w.withObject id cell).objects[i]? = some cell') :
    w.objects[i]? = some cell' ∨ i = w.objects.length ∧ cell' = cell := by
  rw [withObject, List.getElem?_append] at h
  split at h
  · exact Or.inl h
  · next hle =>
      obtain ⟨hzero, hcell⟩ := List.getElem?_eq_some_iff.mp h
      have hi : i - w.objects.length = 0 := by simpa using hzero
      refine Or.inr ⟨by omega, ?_⟩
      simp [← hcell]

theorem Numbered.withObject (hw : Numbered w) (hid : cell.ref.id = w.objects.length) :
    Numbered (w.withObject id cell) := by
  intro i cell' hcell'
  rcases getElem?_withObject hcell' with hold | ⟨rfl, rfl⟩
  · exact hw i cell' hold
  · exact hid

theorem hasObject_withObject {x : ObjectRef} (hid : cell.ref.id = w.objects.length)
    (h : (w.withObject id cell).HasObject x) : w.HasObject x ∨ x = cell.ref := by
  obtain ⟨cell', hcell', rfl⟩ := h
  rcases getElem?_withObject hcell' with hold | ⟨-, rfl⟩
  · exact Or.inl ⟨cell', hold, rfl⟩
  · exact Or.inr rfl

theorem observersAt_withObject (hnone : cell.observers = []) (i : Nat) :
    (w.withObject id cell).observersAt (.object i) = w.observersAt (.object i) := by
  simp only [observersAt]
  cases hcell' : (w.withObject id cell).objects[i]? with
  | none =>
      have hlt := List.getElem?_eq_none_iff.mp hcell'
      rw [withObject, List.length_append] at hlt
      rw [List.getElem?_eq_none (Nat.le_trans (Nat.le_add_right _ _) hlt)]
  | some cell' =>
      rcases getElem?_withObject hcell' with hold | ⟨rfl, rfl⟩
      · rw [hold]
      · rw [List.getElem?_eq_none (Nat.le_refl _)]
        exact hnone

theorem Numbered.onward_withObject (hw : Numbered w) (hid : cell.ref.id = w.objects.length)
    (hattrs : ∀ e ∈ cell.attrs, w.InHand e.2) : Onward w (w.withObject id cell) where
  names := rfl
  pins := rfl
  bindings := rfl
  recorders := rfl
  history := rfl
  sinks := fun _ => rfl
  channels := fun _ he => channelAlive_of_named he
  values := by
    intro v hv x hx hlt
    rw [List.mem_append, List.mem_map] at hv
    rcases hv with ⟨e, he, rfl⟩ | hscope
    · rcases Assoc.mem_put he with rfl | he
      · rw [List.mem_singleton.mp hx] at hlt
        exact absurd hid (Nat.ne_of_lt hlt)
      · exact hw.live_of_named _ (List.mem_append_left _ (List.mem_map.mpr ⟨e, he, rfl⟩)) x hx hlt
    · exact hw.live_of_named v (List.mem_append_right _ hscope) x hx hlt
  cells := by
    intro i cell' hcell'
    refine ⟨cell', ?_, rfl, rfl⟩
    exact (List.getElem?_append_left (List.getElem?_eq_some_iff.mp hcell').1).trans hcell'
  attrs := by
    intro j holder' hholder' i hi _
    rcases getElem?_withObject hholder' with hold | ⟨-, rfl⟩
    · exact Or.inr ⟨holder', hold, hi⟩
    · obtain ⟨v, hv, x, hx, rfl⟩ := mem_referred.mp hi
      obtain ⟨e, he, rfl⟩ := List.mem_map.mp hv
      exact Or.inl (objectAlive_iff.mp (hattrs e he x hx).2)

/-- **Making an object** keeps everything in order if its address is its own. -/
theorem Kept.create (h : Kept p c sink start w answers n)
    (hid : cell.ref.id = w.objects.length) (hkind : cell.kind.Idle)
    (hnone : cell.observers = []) (hattrs : ∀ e ∈ cell.attrs, w.InHand e.2)
    (hplace : ∀ x, w.Present x → x.address ≠ cell.ref.address)
    (hplace' : ∀ P key x, w.policies[p]? = some P →
      P.registry.subjects.slots.get? key = some x → x.address ≠ cell.ref.address) :
    Kept p c sink start (w.withObject id cell) answers n := by
  obtain ⟨P, hground, hclerk, htally⟩ := h
  have hon := @Numbered.onward_withObject w id cell hground.cells hid hattrs
  have hcells := @Numbered.withObject w id cell hground.cells hid
  have hback : ∀ o, (w.withObject id cell).Present o → w.Present o ∨ o = cell.ref := by
    intro o ho
    refine (hasObject_withObject hid ho.1).imp_left ?_
    exact fun hold => hon.present hground.cells hcells hold ho
  refine ⟨P, ?_, hclerk.step hon hground.cells hcells rfl (Nat.le_refl _) ?_ ?_,
    htally.step hon hground.cells hcells rfl⟩
  · constructor
    · exact hcells
    · intro i cell' hcell'
      rcases getElem?_withObject hcell' with hold | ⟨-, rfl⟩
      · exact hground.kinds i cell' hold
      · exact hkind
    · intro o x ho hx haddr
      rcases hback o ho with hold | rfl
      · rcases hback x hx with hold' | rfl
        · exact hground.apart o x hold hold' haddr
        · exact absurd haddr (hplace o hold)
      · rcases hback x hx with hold' | rfl
        · exact absurd haddr.symm (hplace x hold')
        · rfl
    · exact hground.pins
    · exact hground.channel
    · rw [hon.names, hground.names]
    · exact hground.bindings
    · exact hground.history
    · exact hground.counted
    · intro i ob hob
      rw [observersAt_withObject hnone] at hob
      exact hground.observers i ob hob
  · intro o ho
    rcases hback o ho with hold | rfl
    · exact Or.inl hold.1
    · exact Or.inr fun key x hx => hplace' P key x hclerk.policy hx
  · intro key l _ i
    rw [subscribers, subscribers, observersAt_withObject hnone]

end Creating

section Assigning

variable {attr : String} {v : Value} {f : ObjectCell → ObjectCell}

/-- What happens to an object that gets a value: it loses at most observers that nobody holds. -/
structure Puts (w : Session) (attr : String) (v : Value) (f : ObjectCell → ObjectCell) : Prop where
  shape : ∀ cell, (f cell).shape = cell.shape
  attrs : ∀ cell, (f cell).attrs = Assoc.put attr v cell.attrs
  observers : ∀ cell, ∃ kept : Nat → Bool, (∀ s ∈ w.heldSubscriptions, kept s = true) ∧
    (f cell).observers = Observers.prune kept cell.observers

theorem OnlyTold.reached (h : w.OnlyTold c o) : ∀ ob ∈ w.reached o.id attr, ReportsTo c ob := by
  intro ob hob
  obtain ⟨-, -, cell, hcell, hmem⟩ := mem_reached.mp hob
  apply h.2
  rw [observersAt, hcell]
  exact hmem

/-- Where nothing comes of a change but entries of the log, an assignment does nothing else than to
put a value in place, if it is allowed. -/
theorem OnlyTold.assigned_cases (h : w.OnlyTold c o) (re : Reentry) (schema : Schema)
    (attr : String) (v : Value) : w.assigned re o schema attr v = w ∨
      ∃ f log, w.Puts attr v f ∧
        w.assigned re o schema attr v = { w with objects := w.objects.modify o.id f, log := log } := by
  by_cases hreports : w.Reports o schema attr v
  · obtain ⟨g, name, hc⟩ := h.1
    let f : ObjectCell → ObjectCell := fun cell => { cell with
      attrs := Assoc.put attr v cell.attrs
      observers := Observers.prune (fun s => s ∈ w.heldSubscriptions) cell.observers }
    have hobjects : (w.announced name o attr v).objects = w.objects.modify o.id f :=
      List.modify_modify_eq _ _ _ _
    refine Or.inr ⟨f, (w.announced name o attr v).log, ⟨fun _ => rfl, fun _ => rfl, ?_⟩, ?_⟩
    · exact fun cell => ⟨_, fun s hs => decide_eq_true hs, rfl⟩
    · rw [assign_announces re hc h.reached hreports, ← hobjects]
      rfl
  · refine (assign_of_silence re hreports).imp_right ?_
    intro heq
    let f : ObjectCell → ObjectCell := fun cell => { cell with attrs := Assoc.put attr v cell.attrs }
    refine ⟨f, w.log, ⟨fun _ => rfl, fun _ => rfl, ?_⟩, heq⟩
    exact fun cell => ⟨fun _ => true, fun _ _ => rfl, by simp [f, Observers.prune]⟩

/-- A session in which a value that refers to what exists was put in place goes on. -/
theorem Numbered.onward_put (hw : Numbered w) (hv : w.InHand v) (hf : w.Puts attr v f)
    (log : List LogEntry) :
    Onward w { w with objects := w.objects.modify o.id f, log := log } := by
  refine hw.onward (SameShapes.modify _ _ hf.shape) ?_
  intro j holder' hholder' i hi _
  obtain ⟨holder, hholder, rfl | rfl⟩ := getElem?_modify_some hholder'
  · rw [ObjectCell.referred, hf.attrs] at hi
    obtain ⟨u, hu, x, hx, rfl⟩ := mem_referred.mp hi
    obtain ⟨e, he, rfl⟩ := List.mem_map.mp hu
    rcases Assoc.mem_put he with rfl | hold
    · exact Or.inl (objectAlive_iff.mp (hv x hx).2)
    · exact Or.inr ⟨holder, hholder,
        mem_referred.mpr ⟨e.2, List.mem_map.mpr ⟨e, hold, rfl⟩, x, hx, rfl⟩⟩
  · exact Or.inr ⟨holder', hholder, hi⟩

theorem Kept.put (h : Kept p c sink start w answers n)
    (hnamed : ∃ e ∈ start.names.policies, e.2 = p) (hv : w.InHand v) (hf : w.Puts attr v f)
    (log : List LogEntry) :
    Kept p c sink start { w with objects := w.objects.modify o.id f, log := log } answers n := by
  obtain ⟨P, hground, hclerk, htally⟩ := h
  have hshapes : SameShapes w.objects (w.objects.modify o.id f) := SameShapes.modify _ _ hf.shape
  have hon := @Numbered.onward_put w o attr v f hground.cells hv hf log
  have hpruned : ∀ i, ∃ kept : Nat → Bool, (∀ s ∈ w.heldSubscriptions, kept s = true) ∧
      observersAt { w with objects := w.objects.modify o.id f, log := log } (.object i)
        = Observers.prune kept (w.observersAt (.object i)) := by
    intro i
    simp only [observersAt, List.getElem?_modify]
    cases w.objects[i]? with
    | none => exact ⟨fun _ => true, fun _ _ => rfl, rfl⟩
    | some cell =>
        by_cases hi : o.id = i
        · simpa [hi] using hf.observers cell
        · exact ⟨fun _ => true, fun _ _ => rfl, by simp [hi, Observers.prune]⟩
  refine ⟨P, hground.step hon hshapes rfl (Nat.le_refl _) ?_,
    hclerk.step hon hground.cells (hshapes.numbered hground.cells) rfl (Nat.le_refl _)
      (fun _ ho => Or.inl (hshapes.symm.hasObject ho.1)) ?_,
    htally.step hon hground.cells (hshapes.numbered hground.cells) rfl⟩
  · intro i ob hob
    obtain ⟨kept, -, heq⟩ := hpruned i
    rw [heq] at hob
    exact Or.inl (List.mem_of_mem_filter hob)
  · intro key l hl i
    obtain ⟨kept, hkept, heq⟩ := hpruned i
    have hheld : kept l.subscription = true :=
      hkept _ (hclerk.held hground hnamed (Registry.mem_subscriptions hl))
    rw [subscribers, heq, Observers.prune, List.filter_filter]
    apply List.filter_congr
    intro ob _
    by_cases hsame : ob.subscription = l.subscription
    · simp [hsame, hheld]
    · simp [hsame]

/-- **Setting an attribute** keeps everything in order. -/
theorem Kept.assign (h : Kept p c sink start w answers n)
    (hnamed : ∃ e ∈ start.names.policies, e.2 = p) (htold : w.OnlyTold c o) (hv : w.InHand v)
    (re : Reentry) (schema : Schema) (attr : String) :
    Kept p c sink start (w.assigned re o schema attr v) answers n := by
  rcases htold.assigned_cases re schema attr v with heq | ⟨f, log, hf, heq⟩
  · rw [heq]
    exact h
  · rw [heq]
    exact h.put hnamed hv hf log

end Assigning

section Running

variable {re : Reentry} {s : Session} {a b : Ledger}

theorem Outset.kept (h : Outset p c sink w) : Kept p c sink w w [] 0 := by
  refine ⟨_, ⟨h.cells, h.kinds, h.apart, h.pins, h.channel, rfl, rfl, rfl, Nat.le_refl _, ?_⟩,
    ⟨h.policy, fun _ _ => rfl, rfl, rfl, Registry.Exact.of_empty _, nofun, nofun, nofun, nofun⟩,
    Tally.nil (fun _ => ⟨0, Nat.le_refl 0, rfl⟩) fun _ _ _ => rfl⟩
  exact fun i ob hob => Or.inl ⟨h.observers i ob hob, hob⟩

/-- A session in which the policy was asked to listen goes on, and nothing was logged. -/
theorem HookUp.onward {s : Session} {hook : Hookup SlotKey} {attr : String}
    (h : HookUp p P w o attr s hook) (hw : Numbered w) : Onward w s ∧ s.log = w.log := by
  cases h with
  | refused => exact ⟨hw.onward_policies w.policies, rfl⟩
  | detached => exact ⟨hw.onward_policies _, rfl⟩
  | found => exact ⟨hw.onward_policies _, rfl⟩
  | @attached r subject => exact ⟨hw.onward_withListener p r subject o attr, rfl⟩

theorem Onward.countListener (h : Onward w s) (p : Nat) (hook : Hookup SlotKey) :
    Onward w (s.countListener p hook) ∧ (s.countListener p hook).log = s.log := by
  cases hook with
  | attached key =>
      exact ⟨⟨h.names, h.pins, h.bindings, h.recorders, h.history, h.sinks, h.channels, h.values,
        h.cells, h.attrs⟩, rfl⟩
  | _ => exact ⟨h, rfl⟩

theorem Kept.onward_bind (h : Kept p c sink start w answers n) {v : Value} (hv : w.InHand v)
    (re : Reentry) (attr : String) :
    Onward w (w.bindTo re p v attr).1 ∧ (w.bindTo re p v attr).1.log = w.log := by
  obtain ⟨P, hground, hclerk, -⟩ := h
  cases v with
  | object o =>
      have ho : w.Present o := hv o (List.mem_singleton_self o)
      obtain ⟨s, hhook, hstate⟩ := bindTo_cases re hground hclerk ho attr
      obtain ⟨hon, hlog⟩ := hhook.onward hground.cells
      obtain ⟨hon', hlog'⟩ := hon.countListener p (w.bindTo re p (.object o) attr).2
      rw [hstate]
      exact ⟨hon', hlog'.trans hlog⟩
  | _ => exact ⟨hground.cells.onward_policies w.policies, rfl⟩

/-- After every step the session has gone on. -/
theorem Kept.onward (h : Kept p c sink start a.session a.answers a.resets)
    (hstep : PolicyStep re p c a b) : Onward a.session b.session := by
  have hcells : Numbered a.session := h.choose_spec.1.cells
  cases hstep with
  | bind hv => exact (h.onward_bind hv re _).1
  | prune =>
      obtain ⟨P, -, hclerk, -⟩ := h
      dsimp only
      rw [prunePolicy_eq hclerk.policy hclerk.idle]
      exact hcells.onward_policies _
  | clear hP => exact hcells.onward_policies _
  | reset => exact hcells.onward_reset c
  | rename hobjects hchannels hscope => exact Numbered.onward_rename hobjects hchannels hscope
  | create hid hkind hnone hattrs hplace hplace' => exact hcells.onward_withObject hid hattrs
  | assign htold ho hschema hv =>
      rcases htold.assigned_cases re _ _ _ with heq | ⟨f, log, hf, heq⟩
      · dsimp only
        rw [heq]
        exact hcells.onward_policies _
      · dsimp only
        rw [heq]
        exact hcells.onward_put hv hf log

/-- What one step keeps. -/
theorem Kept.step (h : Kept p c sink start a.session a.answers a.resets)
    (hnamed : ∃ e ∈ start.names.policies, e.2 = p) (hstep : PolicyStep re p c a b) :
    Kept p c sink start b.session b.answers b.resets := by
  cases hstep with
  | bind hv => exact h.bind hv re _
  | prune => exact h.prune
  | clear hP => exact h.clear hP
  | reset => exact h.reset
  | rename hobjects hchannels hscope => exact h.rename hobjects hchannels hscope
  | create hid hkind hnone hattrs hplace hplace' =>
      exact h.create hid hkind hnone hattrs hplace hplace'
  | assign htold ho hschema hv => exact h.assign hnamed htold hv re _ _

/-- What a run keeps. -/
theorem Kept.run (h : Kept p c sink start a.session a.answers a.resets)
    (hnamed : ∃ e ∈ start.names.policies, e.2 = p) (hrun : PolicyRun re p c a b) :
    Kept p c sink start b.session b.answers b.resets := by
  induction hrun with
  | refl => exact h
  | tail _ hstep ih => exact ih.step hnamed hstep

/-- **Everything is in order in every session that the program reaches.** -/
theorem PolicyRun.kept (hstart : Outset p c sink start) (hrun : PolicyRun re p c ⟨start, [], 0⟩ a) :
    Kept p c sink start a.session a.answers a.resets :=
  hstart.kept.run hstart.named hrun

end Running

end Moves

end Session
end TrackedExpr
