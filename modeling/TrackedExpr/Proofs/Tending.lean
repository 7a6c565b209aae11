import TrackedExpr.Proofs.Hookups
import TrackedExpr.Proofs.Onward

/-!
# What is done around a binding

Whatever a program does, it does to a binding nothing but show it accesses, reset its
channel and prune its policies.  Through all of this the policies stay in order, and
they know how many resets ago they last started from nothing.

**Definitions.**
* `Furnished`: a session in which a binding finds everything that it needs;
* `Orderly`, `Tended`: a registry in order, and a binding whose policies have such;
* `Attends`: a policy listens to an attribute of an object in the present generation;
* `Untouched`: what leaves a binding alone;
* `Handles`: all that is done around a binding, with the number of resets.

**Results.**
* `HookUp.tended`, `HookUp.attends_iff`, `Tended.see`: an access that is shown to a policy;
* `Tended.reset`, `Tended.unattended`: a reset, after which nothing is listened to;
* `Handles.tended`: a binding stays tended whatever is done.
-/

namespace TrackedExpr
namespace Session

section Notions

/-- A native function that is no side-call of a binding. -/
def Wiring.Outer (k : Wiring) (f : NativeRef) : Prop := f.id ≠ k.loads.id ∧ f.id ≠ k.calls.id

instance (k : Wiring) : DecidablePred k.Outer := fun _ => inferInstanceAs (Decidable (_ ∧ _))

/-- A session in which a binding finds everything that it needs: objects that run nothing when
they are observed, values that refer to them and not to its side-calls, and itself. -/
structure Furnished (k : Wiring) (w : Session) : Prop where
  numbered : Numbered w
  home : ∀ o, w.HasObject o → AtHome o
  kinds : ∀ (i : Nat) (cell : ObjectCell), w.objects[i]? = some cell → cell.kind.Idle
  stock : Stock w.HasObject k.Outer k.plain k.scope w.attribute?
  binding : ∃ B, w.bindings[k.binding]? = some B ∧ B.Fits k
  loads : w.natives[k.loads.id]? = some (.attributeSite (.policy k.attributes))
  calls : w.natives[k.calls.id]? = some (.callSite (.policy k.getattr))

/-- An exact registry on a channel that was reset so many times, with objects of the session. -/
structure Orderly (c n : Nat) (w : Session) (r : Registry) : Prop where
  channel : r.token.channel = c
  exact : r.Exact
  known : ∀ key x, r.subjects.slots.get? key = some x → w.HasObject x
  stamped : ∃ m ≤ n, r.token.generation = UInt64.ofNat m

/-- A binding whose channel was reset so many times, and whose policies are in order. -/
structure Tended (k : Wiring) (n : Nat) (w : Session) : Prop extends Furnished k w where
  channel : ∃ sink, w.channels[k.channel]? = some ⟨UInt64.ofNat n, sink⟩
  policies : ∀ p ∈ k.policies, ∃ P, w.policies[p]? = some P ∧ P.busy = false ∧
    Orderly k.channel n w P.registry

/-- A policy has a listener of the present generation for an attribute of an object. -/
def Attends (w : Session) (p : Nat) (o : ObjectRef) (attr : String) : Prop :=
  ∃ P, w.policies[p]? = some P ∧ P.registry.token = w.issue P.registry.token.channel ∧
    P.registry.Covers o attr

/-- What leaves a binding alone. -/
structure Untouched (k : Wiring) (w w' : Session) : Prop where
  furnished : Furnished k w'
  lasts : Lasts w w'
  channel : w'.channels[k.channel]? = w.channels[k.channel]?
  policies : ∀ p ∈ k.policies, w'.policies[p]? = w.policies[p]?

end Notions

section Registries

variable {c n m : Nat} {w w' : Session} {r r' : Registry} {o : ObjectRef} {subject : SlotKey}
  {attr : String}

theorem Orderly.mono (h : Orderly c n w r) (hle : n ≤ m) (hlasts : Lasts w w') :
    Orderly c m w' r where
  channel := h.channel
  exact := h.exact
  known := fun key x hx => hlasts.hasObject (h.known key x hx)
  stamped := by
    obtain ⟨i, hi, hgeneration⟩ := h.stamped
    exact ⟨i, Nat.le_trans hi hle, hgeneration⟩

/-- A registry that starts over, for a generation that was. -/
theorem Orderly.clear (h : Orderly c n w r) {token : Token} (hchannel : token.channel = c)
    (hstamped : ∃ m ≤ n, token.generation = UInt64.ofNat m) :
    Orderly c n w { r.clear with token := token } where
  channel := hchannel
  exact := h.exact.clear token
  known := by
    intro key x hx
    rw [Registry.clear, SubjectArena.clear, Slots.get?_clear] at hx
    cases hx
  stamped := hstamped

theorem Orderly.refreshed (h : Orderly c n w r)
    (hchannel : ∃ sink, w.channels[c]? = some ⟨UInt64.ofNat n, sink⟩) :
    Orderly c n w (w.refreshed r) := by
  unfold Session.refreshed
  split
  · exact h
  · refine h.clear h.channel ⟨n, Nat.le_refl n, ?_⟩
    obtain ⟨sink, hsink⟩ := hchannel
    rw [h.channel]
    show w.generation c = _
    rw [generation, hsink]

theorem Orderly.admits (h : Orderly c n w r) (hadmits : r.Admits o r' subject)
    (ho : w.HasObject o) : Orderly c n w r' where
  channel := by
    rw [hadmits.token]
    exact h.channel
  exact := hadmits.exact
  known := by
    intro key x hx
    rcases (hadmits.keys key x).mp hx with hx | ⟨-, rfl⟩
    · exact h.known key x hx
    · exact ho
  stamped := by
    rw [hadmits.token]
    exact h.stamped

theorem Orderly.attach (h : Orderly c n w r) (hslot : r.subjects.slots.get? subject = some o)
    (hnone : Assoc.get? (subject, attr) r.index = none) (s : Nat) :
    Orderly c n w (r.attach ⟨subject, attr, s⟩) :=
  ⟨h.channel, h.exact.attach hslot hnone, h.known, h.stamped⟩

theorem Orderly.prune (h : Orderly c n w r) (alive : ObjectRef → Bool) :
    Orderly c n w (r.prune alive).1 := by
  have hpruned := @Registry.Exact.prune r alive h.exact
  refine ⟨?_, hpruned.exact, ?_, ?_⟩
  · rw [hpruned.token]
    exact h.channel
  · intro key x hx
    rw [hpruned.subjects, Option.filter_eq_some_iff] at hx
    exact h.known key x hx.1
  · rw [hpruned.token]
    exact h.stamped

end Registries

section Frames

variable {k : Wiring} {n : Nat} {w w' w'' : Session} {p : Nat} {o x : ObjectRef} {attr a : String}

theorem attends_iff {P : Policy} (hP : w.policies[p]? = some P) : Attends w p x a ↔
    P.registry.token = w.issue P.registry.token.channel ∧ P.registry.Covers x a := by
  constructor
  · rintro ⟨Q, hQ, hcovers⟩
    obtain rfl := Option.some.inj (hP.symm.trans hQ)
    exact hcovers
  · exact fun hcovers => ⟨P, hP, hcovers⟩

theorem Attends.congr (hpolicies : w'.policies[p]? = w.policies[p]?)
    (hissue : ∀ c, w'.issue c = w.issue c) : Attends w' p x a ↔ Attends w p x a := by
  simp only [Attends, hpolicies, hissue]

theorem Untouched.refl (h : Furnished k w) : Untouched k w w :=
  ⟨h, Lasts.refl w, rfl, fun _ _ => rfl⟩

theorem Untouched.trans (h : Untouched k w w') (h' : Untouched k w' w'') : Untouched k w w'' :=
  ⟨h'.furnished, h.lasts.trans h'.lasts, h'.channel.trans h.channel,
    fun p hp => (h'.policies p hp).trans (h.policies p hp)⟩

theorem Untouched.tended (h : Untouched k w w') (hw : Tended k n w) : Tended k n w' where
  toFurnished := h.furnished
  channel := by
    rw [h.channel]
    exact hw.channel
  policies := by
    intro p hp
    obtain ⟨P, hP, hidle, horderly⟩ := hw.policies p hp
    exact ⟨P, (h.policies p hp).trans hP, hidle, horderly.mono (Nat.le_refl n) h.lasts⟩

theorem Tended.attends_congr (hw : Tended k n w) (hp : p ∈ k.policies)
    (hchannel : w'.channels[k.channel]? = w.channels[k.channel]?)
    (hpolicies : w'.policies[p]? = w.policies[p]?) : Attends w' p x a ↔ Attends w p x a := by
  obtain ⟨P, hP, -, horderly⟩ := hw.policies p hp
  rw [attends_iff hP, attends_iff (hpolicies.trans hP), horderly.channel, issue, issue,
    generation, generation, hchannel]

/-- At one address there is one object. -/
theorem Furnished.eq_of_address (h : Furnished k w) (hx : w.HasObject x) (ho : w.HasObject o)
    (haddr : x.address = o.address) : x = o := by
  have hid : x.id = o.id := by rw [← h.home x hx, haddr, h.home o ho]
  obtain ⟨cell, hcell, rfl⟩ := hx
  obtain ⟨cell', hcell', rfl⟩ := ho
  rw [object?, hid, ← object?, hcell'] at hcell
  rw [Option.some.inj hcell]

/-- Names, pins and the log do not matter to a binding. -/
theorem Furnished.beside (h : Furnished k w) (names : Names) (pins : List Pin)
    (log : List LogEntry) (recorders : List (List RecordedEvent)) :
    Furnished k { w with names := names, pins := pins, log := log, recorders := recorders } :=
  ⟨h.numbered, h.home, h.kinds, h.stock, h.binding, h.loads, h.calls⟩

theorem Furnished.repinned (h : Furnished k w) (pins : List Pin) :
    Untouched k w { w with pins := pins } :=
  ⟨h.beside w.names pins w.log w.recorders, Lasts.refl w, rfl, fun _ _ => rfl⟩

/-- A binding that is held on to keeps its channel and its policies. -/
theorem Furnished.alive (h : Furnished k w) (hpin : .binding k.binding ∈ w.pins) :
    w.channelAlive k.channel = true ∧ ∀ q ∈ k.policies, w.policyAlive q = true := by
  obtain ⟨B, hB, hfits⟩ := h.binding
  have halive : w.bindingAlive k.binding = true := by
    simp only [bindingAlive, Bool.or_eq_true, decide_eq_true_eq]
    exact Or.inr (List.mem_filterMap.mpr ⟨_, hpin, rfl⟩)
  have hlive := mem_liveBindings hB halive
  constructor
  · have hchannel := channelAlive_of_binding hlive
    rwa [hfits.channel] at hchannel
  · intro q hq
    apply policyAlive_of_binding hlive
    rw [Binding.policies, hfits.attributes, hfits.getattr]
    exact hq

/-- Objects that differ in observers only. -/
theorem Furnished.reshaped (h : Furnished k w) {objects : List ObjectCell}
    (hshapes : SameShapes w.objects objects)
    (hattrs : attribute? { w with objects := objects } = w.attribute?) (policies : List Policy)
    (subscriptions : Nat) :
    Furnished k { w with
      objects := objects, policies := policies, subscriptions := subscriptions } := by
  let w' : Session := { w with objects := objects }
  have hlasts : Lasts w w' := hshapes.lasts
  have hback : Lasts w' w := hshapes.symm.lasts
  refine ⟨hshapes.numbered h.numbered, fun o ho => h.home o (hback.hasObject ho), ?_, ?_,
    h.binding, h.loads, h.calls⟩
  · intro i cell' hcell'
    obtain ⟨cell, hcell, -, hkind⟩ := hback i cell' hcell'
    rw [← hkind]
    exact h.kinds i cell hcell
  · refine h.stock.mono (fun o ho => hlasts.hasObject ho) ?_
    intro o a v hv
    have hv : w'.attribute? o a = some v := hv
    rw [show w'.attribute? = w.attribute? from hattrs] at hv
    exact (h.stock.read o a v hv).mono (fun o ho => hlasts.hasObject ho) fun _ hf => hf

/-- A policy with another registry that is in order. -/
theorem Tended.withRegistry (h : Tended k n w) (hp : p ∈ k.policies) {objects : List ObjectCell}
    (hshapes : SameShapes w.objects objects)
    (hattrs : attribute? { w with objects := objects } = w.attribute?) {P : Policy}
    {policies : List Policy} {r : Registry}
    (hself : policies[p]? = some { P with registry := r, busy := false })
    (hother : ∀ q, q ≠ p → policies[q]? = w.policies[q]?) (hr : Orderly k.channel n w r)
    (subscriptions : Nat) :
    Tended k n { w with
      objects := objects, policies := policies, subscriptions := subscriptions } where
  toFurnished := h.toFurnished.reshaped hshapes hattrs policies subscriptions
  channel := h.channel
  policies := by
    have hlasts : Lasts w { w with
      objects := objects, policies := policies, subscriptions := subscriptions } := hshapes.lasts
    intro q hq
    by_cases hqp : q = p
    · subst hqp
      exact ⟨_, hself, rfl, hr.mono (Nat.le_refl n) hlasts⟩
    · obtain ⟨Q, hQ, hidle, horderly⟩ := h.policies q hq
      exact ⟨Q, (hother q hqp).trans hQ, hidle, horderly.mono (Nat.le_refl n) hlasts⟩

theorem Tended.setRegistry (h : Tended k n w) (hp : p ∈ k.policies) {P : Policy}
    (hP : w.policies[p]? = some P) (hidle : P.busy = false) {r : Registry}
    (hr : Orderly k.channel n w r) : Tended k n (w.setRegistry p r) := by
  obtain ⟨hself, hother⟩ := getElem?_modifyPolicy hP fun policy => { policy with registry := r }
  have hself : (w.setRegistry p r).policies[p]? = some { P with registry := r, busy := false } := by
    rw [← hidle]
    exact hself
  exact h.withRegistry hp (SameShapes.refl _) rfl hself hother hr w.subscriptions

end Frames

section Hookups

variable {k : Wiring} {n : Nat} {w t : Session} {p q : Nat} {P : Policy} {o x : ObjectRef}
  {attr a : String} {hook : Hookup SlotKey}

theorem HookUp.lasts (h : HookUp p P w o attr t hook) : Lasts w t := by
  cases h with
  | @attached r subject _ _ _ _ => exact (sameShapes_withListener w p r subject o attr).lasts
  | _ => exact Lasts.refl w

/-- A binding stays tended whatever a hookup leads to. -/
theorem HookUp.tended (hhook : HookUp p P w o attr t hook) (h : Tended k n w)
    (hp : p ∈ k.policies) (hP : w.policies[p]? = some P) (ho : w.HasObject o) : Tended k n t := by
  obtain ⟨Q, hQ, hidle, horderly⟩ := h.policies p hp
  obtain rfl := Option.some.inj (hP.symm.trans hQ)
  have hrefreshed := horderly.refreshed h.channel
  cases hhook with
  | refused _ _ _ => exact h
  | detached _ _ =>
      exact h.setRegistry hp hP hidle (horderly.clear horderly.channel horderly.stamped)
  | found _ _ hadmits _ => exact h.setRegistry hp hP hidle (hrefreshed.admits hadmits ho)
  | @attached r subject _ _ hadmits hnone =>
      have hr := (hrefreshed.admits hadmits ho).attach hadmits.self hnone w.subscriptions
      obtain ⟨hself, hother⟩ := getElem?_modifyPolicy hP fun policy => { policy with
        registry := r.attach ⟨subject, attr, w.subscriptions⟩, busy := false }
      exact h.withRegistry hp (sameShapes_withListener w p r subject o attr)
        (attribute?_withListener w p r subject o attr) hself hother hr (w.subscriptions + 1)

/-- What is listened to after one policy has changed. -/
theorem attends_replaced {P' : Policy} (hself : t.policies[p]? = some P')
    (hother : ∀ q, q ≠ p → t.policies[q]? = w.policies[q]?) (hchannels : t.channels = w.channels)
    (htoken : P'.registry.token = w.issue P'.registry.token.channel) :
    Attends t q x a ↔ q = p ∧ P'.registry.Covers x a ∨ q ≠ p ∧ Attends w q x a := by
  have hissue : ∀ c, t.issue c = w.issue c := by
    intro c
    rw [issue, issue, generation, generation, hchannels]
  by_cases hq : q = p
  · subst hq
    rw [Session.attends_iff hself, hissue]
    simp [← htoken]
  · rw [Attends.congr (hother q hq) hissue]
    simp [hq]

/-- **What is listened to after a hookup**: what was, and the attribute if it can be observed. -/
theorem HookUp.attends_iff (hhook : HookUp p P w o attr t hook) (h : Tended k n w)
    (hp : p ∈ k.policies) (hP : w.policies[p]? = some P)
    (halive : w.channelAlive k.channel = true) : Attends t q x a ↔
      Attends w q x a ∨ q = p ∧ x = o ∧ a = attr ∧ w.declared? o attr = some .observable := by
  obtain ⟨Q, hQ, -, horderly⟩ := h.policies p hp
  obtain rfl := Option.some.inj (hP.symm.trans hQ)
  rw [← horderly.channel] at halive
  -- a policy that was left behind covers nothing once it has started over
  have hrefreshed : (w.refreshed P.registry).Covers x a ↔ Attends w p x a := by
    rw [Session.attends_iff hP, ← connected_iff halive]
    unfold Session.refreshed
    split
    · next hconnected => simp [hconnected]
    · next hgone => simp [hgone, Registry.not_covers_clear]
  have hexact : (w.refreshed P.registry).Exact := refreshed_exact horderly.exact
  have htoken : ∀ {r : Registry} {subject : SlotKey}, (w.refreshed P.registry).Admits o r subject →
      r.token = w.issue r.token.channel := by
    intro r subject hadmits
    rw [hadmits.token, refreshed_token]
    rfl
  cases hhook with
  | refused hdeclared _ _ => simp [hdeclared]
  | detached _ hgone =>
      rw [halive] at hgone
      cases hgone
  | @found r subject key hobservable _ hadmits hkey =>
      obtain ⟨hself, hother⟩ := getElem?_modifyPolicy hP fun policy =>
        { policy with registry := r }
      have hcovers : r.Covers x a ↔ Attends w p x a :=
        (hadmits.covers_iff hexact).trans hrefreshed
      have hnew : x = o ∧ a = attr → Attends w p x a := by
        rintro ⟨rfl, rfl⟩
        exact hcovers.mp ((hadmits.exact.covers_iff hadmits.self).mpr ⟨key, hkey⟩)
      have hreplaced := @attends_replaced w (w.setRegistry p r) p q x a _ hself hother rfl
        (htoken hadmits)
      rw [hreplaced, hcovers]
      by_cases hq : q = p
      · subst hq
        simp only [true_and, hobservable, and_true, ne_eq, not_true_eq_false, false_and, or_false]
        exact ⟨Or.inl, fun hor => hor.elim id hnew⟩
      · simp [hq]
  | @attached r subject hobservable _ hadmits hnone =>
      obtain ⟨hself, hother⟩ := getElem?_modifyPolicy hP fun policy => { policy with
        registry := r.attach ⟨subject, attr, w.subscriptions⟩, busy := false }
      have hcovers : (r.attach ⟨subject, attr, w.subscriptions⟩).Covers x a ↔
          Attends w p x a ∨ x = o ∧ a = attr := by
        rw [hadmits.exact.covers_attach hadmits.self, hadmits.covers_iff hexact, hrefreshed]
      have hissue : r.token = w.issue r.token.channel := htoken hadmits
      have hreplaced := @attends_replaced w (w.withListener p r subject o attr) p q x a _ hself
        hother rfl hissue
      rw [hreplaced, hcovers]
      by_cases hq : q = p
      · subst hq
        simp [hobservable]
      · simp [hq]

/-- A value whose object, if it is one, is there and held on to. -/
def InGrip (w : Session) (v : Value) : Prop :=
  ∀ o, v = .object o → w.HasObject o ∧ ∃ u, .value u ∈ w.pins ∧ o ∈ u.objects

/-- An access that is shown to a policy which exists is a hookup, in which nothing else is held on
to than before. -/
theorem Tended.hookUp (h : Tended k n w) (hp : p ∈ k.policies) (ho : w.InGrip (.object o))
    (re : Reentry) (attr : String) (halive : w.policyAlive p = true) : ∃ P hook,
      w.policies[p]? = some P ∧ HookUp p P w o attr (w.see re p (.object o) attr) hook := by
  obtain ⟨P, hP, hidle, horderly⟩ := h.policies p hp
  obtain ⟨hobject, u, hpin, hu⟩ := ho o rfl
  obtain ⟨cell, hcell, rfl⟩ := id hobject
  let w' : Session := { w with pins := [.policy p] ++ w.pins }
  have hlive : w'.objectAlive cell.ref = true :=
    objectAlive_of_pinned (w := w') (List.mem_append_right _ hpin) hu hcell rfl _ rfl
  have hplace : ∀ key x, P.registry.subjects.slots.get? key = some x →
      x.address = cell.ref.address → x = cell.ref :=
    fun key x hx haddr => h.eq_of_address (horderly.known key x hx) hobject haddr
  have hhook := hookUp_cases re (w := w') hP horderly.exact
    (fun cell hcell => h.kinds _ cell hcell) hlive hplace attr
  have hsee : w.see re p (.object cell.ref) attr
      = { (w'.hookUp re p (.object cell.ref) attr).1 with pins := w.pins } := by
    have hbusy : w.isBusy p = false := by
      rw [isBusy, hP]
      exact hidle
    rw [Session.see, halive, hbusy]
    rfl
  have hpins : ∀ pin ∈ [Pin.policy p], pin.channel? = none ∧ pin.binding? = none := by
    intro pin hpin
    rw [List.mem_singleton.mp hpin]
    exact ⟨rfl, rfl⟩
  rw [hsee]
  exact ⟨P, _, hP, HookUp.unpinned hpins hhook⟩

theorem see_of_not_object {v : Value} (hv : ∀ o, v ≠ .object o) (re : Reentry) (p : Nat)
    (attr : String) (w : Session) : w.see re p v attr = w := by
  have hhook : ∀ w' : Session, w'.hookUp re p v attr = (w', .notAnObject) := by
    intro w'
    cases v with
    | object o => exact absurd rfl (hv o)
    | _ => rfl
  simp [Session.see, keeping, hhook]

/-- An access that is shown to a policy. -/
theorem Tended.see (h : Tended k n w) (hp : p ∈ k.policies) {v : Value} (hv : w.InGrip v)
    (re : Reentry) (attr : String) :
    Tended k n (w.see re p v attr) ∧ Lasts w (w.see re p v attr) := by
  by_cases hobject : ∃ o, v = .object o
  · obtain ⟨o, rfl⟩ := hobject
    cases halive : w.policyAlive p with
    | true =>
        obtain ⟨P, hook, hP, hhook⟩ := h.hookUp hp hv re attr halive
        exact ⟨hhook.tended h hp hP (hv o rfl).1, hhook.lasts⟩
    | false =>
        rw [Session.see, halive]
        exact ⟨h, Lasts.refl w⟩
  · rw [see_of_not_object fun o ho => hobject ⟨o, ho⟩]
    exact ⟨h, Lasts.refl w⟩

/-- **What is listened to after an access was shown** to a policy that exists. -/
theorem Tended.attends_see (h : Tended k n w) (hp : p ∈ k.policies) {v : Value} (hv : w.InGrip v)
    (re : Reentry) (attr : String) (halive : w.policyAlive p = true)
    (hchannel : w.channelAlive k.channel = true) : Attends (w.see re p v attr) q x a ↔
      Attends w q x a ∨
        q = p ∧ v = .object x ∧ a = attr ∧ w.declared? x attr = some .observable := by
  by_cases hobject : ∃ o, v = .object o
  · obtain ⟨o, rfl⟩ := hobject
    obtain ⟨P, hook, hP, hhook⟩ := h.hookUp hp hv re attr halive
    rw [hhook.attends_iff h hp hP hchannel, Value.object.injEq, eq_comm (a := x)]
    constructor
    · rintro (hold | ⟨rfl, rfl, rfl, hobservable⟩)
      · exact Or.inl hold
      · exact Or.inr ⟨rfl, rfl, rfl, hobservable⟩
    · rintro (hold | ⟨rfl, rfl, rfl, hobservable⟩)
      · exact Or.inl hold
      · exact Or.inr ⟨rfl, rfl, rfl, hobservable⟩
  · rw [see_of_not_object fun o ho => hobject ⟨o, ho⟩]
    constructor
    · exact Or.inl
    · rintro (hold | ⟨-, rfl, -⟩)
      · exact hold
      · exact absurd ⟨x, rfl⟩ hobject

end Hookups

section Resets

variable {k : Wiring} {n : Nat} {w : Session} {p : Nat} {x : ObjectRef} {a : String}

theorem Tended.reset (h : Tended k n w) : Tended k (n + 1) (w.resetChannel k.channel) where
  toFurnished := ⟨h.numbered, h.home, h.kinds, h.stock, h.binding, h.loads, h.calls⟩
  channel := by
    obtain ⟨sink, hsink⟩ := h.channel
    exact ⟨sink, getElem?_resetChannel hsink⟩
  policies := by
    intro q hq
    obtain ⟨Q, hQ, hidle, horderly⟩ := h.policies q hq
    exact ⟨Q, hQ, hidle, horderly.mono (Nat.le_succ n) (Lasts.refl w)⟩

/-- **After a reset nothing is listened to**, as long as the generations have not run over. -/
theorem Tended.unattended (h : Tended k n w) (hn : n + 1 < 2 ^ 64) (hp : p ∈ k.policies) :
    ¬ Attends (w.resetChannel k.channel) p x a := by
  rintro ⟨P, hP, htoken, -⟩
  obtain ⟨Q, hQ, -, horderly⟩ := h.policies p hp
  obtain rfl := Option.some.inj (hQ.symm.trans hP)
  obtain ⟨sink, hsink⟩ := h.channel
  obtain ⟨m, hm, hgeneration⟩ := horderly.stamped
  have hissue : Q.registry.token.generation = UInt64.ofNat (n + 1) := by
    rw [htoken, horderly.channel]
    show (w.resetChannel k.channel).generation k.channel = _
    rw [generation, getElem?_resetChannel hsink]
  have hsame := eq_of_ofNat_eq (by omega) hn (hgeneration.symm.trans hissue)
  omega

theorem Tended.prune (h : Tended k n w) (hp : p ∈ k.policies) :
    Tended k n (w.prunePolicy p).1 ∧ Lasts w (w.prunePolicy p).1 := by
  obtain ⟨P, hP, hidle, horderly⟩ := h.policies p hp
  rw [prunePolicy_eq hP hidle]
  exact ⟨h.setRegistry hp hP hidle (horderly.prune _), Lasts.refl w⟩

end Resets

section Handling

/-- All that is done around a binding, with the number of resets of its channel: accesses are shown
to its policies, these are pruned, and anything else leaves the binding alone. -/
inductive Handles (k : Wiring) : Session → Session → Nat → Prop
  | elsewhere {w w' : Session} : Untouched k w w' → Handles k w w' 0
  | see {re : Reentry} {w : Session} {p : Nat} {v : Value} {attr : String} :
      p ∈ k.policies → w.InGrip v → Handles k w (w.see re p v attr) 0
  | prune {w : Session} {p : Nat} : p ∈ k.policies → Handles k w (w.prunePolicy p).1 0
  | reset {w : Session} : Handles k w (w.resetChannel k.channel) 1
  | trans {w w' w'' : Session} {n m : Nat} :
      Handles k w w' n → Handles k w' w'' m → Handles k w w'' (n + m)

variable {k : Wiring} {n m : Nat} {w w' : Session}

/-- **A binding stays tended** whatever is done around it. -/
theorem Handles.tended (h : Handles k w w' m) : ∀ {n : Nat}, Tended k n w →
    Tended k (n + m) w' ∧ Lasts w w' := by
  induction h with
  | elsewhere huntouched => exact fun hw => ⟨huntouched.tended hw, huntouched.lasts⟩
  | see hp hv => exact fun hw => hw.see hp hv _ _
  | prune hp => exact fun hw => hw.prune hp
  | @reset w => exact fun hw => ⟨hw.reset, Lasts.refl w⟩
  | trans _ _ ih ih' =>
      intro n hw
      obtain ⟨hw', hlasts⟩ := ih hw
      obtain ⟨hw'', hlasts'⟩ := ih' hw'
      rw [← Nat.add_assoc]
      exact ⟨hw'', hlasts.trans hlasts'⟩

end Handling

end Session
end TrackedExpr
