import TrackedExpr.Proofs.Onward
import TrackedExpr.Proofs.Hookups
import TrackedExpr.Session.Policies

/-!
# Ledgers

What is known of a policy and of what it answered while a program works with it.  The
index and the listeners of the policy say the same, every listener has exactly one
subscription, and every answer names the listener of its object and attribute.

**Definitions.**
* `Answer`: what was answered when the policy was asked to listen;
* `Ground`, `Clerk`, `Tally`: what holds of the session, of the policy and of the answers
  since the policy last started from nothing.

**Results.**
* `Ground.step`, `Clerk.step`, `Tally.step`: what leaves the policy alone keeps them;
* `Clerk.setRegistry`, `Tally.setRegistry`: and so does a policy that loses listeners of
  another generation or of objects that are gone;
* `Clerk.withListener`, `Tally.attach`: and a policy that gains a listener;
* `Tally.find`, `Tally.refuse`: answers that name a listener that was there, or none.
-/

namespace TrackedExpr
namespace Session

section Invariants

/-- An answer of a policy that was asked to listen to an attribute of an object. -/
structure Answer where
  object : ObjectRef
  attr : String
  hookup : Hookup SlotKey

/-- An observer of an object that was there at the outset, or that the policy subscribed since. -/
def Accounted (c : Nat) (start : Session) (limit i : Nat) (ob : Observer Reaction) : Prop :=
  (ob.subscription < start.subscriptions ∧ ob ∈ start.observersAt (.object i)) ∨
  (start.subscriptions ≤ ob.subscription ∧ ob.subscription < limit ∧
    ∃ key token, ob.action = .forward (some key) token ∧ token.channel = c)

/-- What holds of the session apart from the policy: objects are idle and at addresses of their
own, all observers are accounted for, and the channel was reset so many times. -/
structure Ground (c : Nat) (sink : Sink) (start w : Session) (n : Nat) : Prop where
  cells : Numbered w
  kinds : ∀ (i : Nat) (cell : ObjectCell), w.objects[i]? = some cell → cell.kind.Idle
  apart : ∀ o x, w.Present o → w.Present x → o.address = x.address → o = x
  pins : w.pins = []
  channel : w.channels[c]? = some ⟨UInt64.ofNat n, sink⟩
  names : w.names = { start.names with objects := w.names.objects, channels := w.names.channels }
  bindings : w.bindings = start.bindings
  history : w.policyHistory = start.policyHistory
  counted : start.subscriptions ≤ w.subscriptions
  observers : ∀ (i : Nat), ∀ ob ∈ w.observersAt (.object i),
    Accounted c start w.subscriptions i ob

/-- The observers of an object that have a subscription. -/
def subscribers (w : Session) (id s : Nat) : List (Observer Reaction) :=
  (w.observersAt (.object id)).filter fun ob => ob.subscription = s

/-- What holds of the policy: its registry is exact, it remembers objects at addresses of their
own, and each listener has a subscription of its own, which is found once at its object and
nowhere else. -/
structure Clerk (p c : Nat) (start w : Session) (P : Policy) : Prop where
  policy : w.policies[p]? = some P
  others : ∀ q, q ≠ p → w.policies[q]? = start.policies[q]?
  idle : P.busy = false
  channel : P.registry.token.channel = c
  exact : P.registry.Exact
  known : ∀ key x, P.registry.subjects.slots.get? key = some x →
    w.HasObject x ∧ ∀ o, w.Present o → x.address = o.address → x = o
  numbered : ∀ key l, P.registry.listeners.get? key = some l →
    start.subscriptions ≤ l.subscription ∧ l.subscription < w.subscriptions
  distinct : ∀ key key' l l', P.registry.listeners.get? key = some l →
    P.registry.listeners.get? key' = some l' → l.subscription = l'.subscription → key = key'
  placed : ∀ key l o, P.registry.listeners.get? key = some l →
    P.registry.subjects.slots.get? l.subject = some o → ∀ i, w.subscribers i l.subscription =
      if i = o.id then [⟨l.attr, l.subscription, .forward (some key) P.registry.token⟩] else []

/-- The attribute of an object for which a new listener was attached. -/
def Answer.newPair? (a : Answer) : Option (ObjectRef × String) :=
  match a.hookup with
  | .attached _ => some (a.object, a.attr)
  | _ => none

/-- What holds of the answers since the policy last started from nothing. -/
structure Tally (c : Nat) (w : Session) (P : Policy) (answers : List Answer) (n : Nat) : Prop where
  issued : ∀ a ∈ answers, ∀ key, a.hookup.key? = some key → P.registry.listeners.Issued key ∧
    ∀ l, P.registry.listeners.get? key = some l →
      l.attr = a.attr ∧ P.registry.subjects.slots.get? l.subject = some a.object
  lasting : ∀ a ∈ answers, ∀ key, a.hookup.key? = some key → w.channelAlive c = true →
    w.objectAlive a.object = true →
      P.registry.token = w.issue c ∧ ∃ l, P.registry.listeners.get? key = some l
  observable : ∀ a ∈ answers, ∀ key, a.hookup.key? = some key →
    w.HasObject a.object ∧ w.declared? a.object a.attr = some .observable
  shared : ∀ a ∈ answers, ∀ b ∈ answers, ∀ key, a.hookup.key? = some key →
    b.hookup.key? = some key → a.object = b.object ∧ a.attr = b.attr
  once : (answers.filterMap Answer.newPair?).Nodup
  counted : ∀ a ∈ answers, ∀ key, a.hookup = .attached key → key ∈ P.attached
  stamped : n < 2 ^ 64 → ∃ m ≤ n, P.registry.token.generation = UInt64.ofNat m
  current : n < 2 ^ 64 → P.registry.token = w.issue c →
    ∀ key l, P.registry.listeners.get? key = some l → ∃ a ∈ answers, a.hookup = .attached key ∧
      a.attr = l.attr ∧ P.registry.subjects.slots.get? l.subject = some a.object
  traced : n < 2 ^ 64 → ∀ a ∈ answers, ∀ key, a.hookup = .alreadyBound key →
    ⟨a.object, a.attr, .attached key⟩ ∈ answers

end Invariants

section Frames

variable {p c : Nat} {sink : Sink} {start w w' : Session} {P : Policy} {answers : List Answer}
  {n : Nat}

/-- Objects that exist stay at addresses of their own when nothing new is made. -/
theorem Ground.apart_of (h : Ground c sink start w n) (hon : Onward w w') (hw' : Numbered w')
    (hback : ∀ o, w'.HasObject o → w.HasObject o) :
    ∀ o x, w'.Present o → w'.Present x → o.address = x.address → o = x := by
  intro o x ho hx
  exact h.apart o x (hon.present h.cells hw' (hback o ho.1) ho)
    (hon.present h.cells hw' (hback x hx.1) hx)

/-- What changes only objects, and these only in attributes and observers. -/
theorem Ground.step (h : Ground c sink start w n) (hon : Onward w w')
    (hshapes : SameShapes w.objects w'.objects) (hchannels : w'.channels = w.channels)
    (hcount : w.subscriptions ≤ w'.subscriptions)
    (hobs : ∀ i, ∀ ob ∈ w'.observersAt (.object i), ob ∈ w.observersAt (.object i) ∨
      Accounted c start w'.subscriptions i ob) : Ground c sink start w' n where
  cells := hshapes.numbered h.cells
  kinds := by
    intro i cell' hcell'
    obtain ⟨cell, hcell, -, hkind⟩ := hshapes.symm.cell hcell'
    rw [← hkind]
    exact h.kinds i cell hcell
  apart := h.apart_of hon (hshapes.numbered h.cells) fun _ ho => hshapes.symm.hasObject ho
  pins := hon.pins.trans h.pins
  channel := by
    rw [hchannels]
    exact h.channel
  names := by
    rw [hon.names, h.names]
  bindings := hon.bindings.trans h.bindings
  history := hon.history.trans h.history
  counted := Nat.le_trans h.counted hcount
  observers := by
    intro i ob hob
    rcases hobs i ob hob with hold | hnew
    · refine (h.observers i ob hold).imp_right ?_
      rintro ⟨hfirst, hlimit, haction⟩
      exact ⟨hfirst, Nat.lt_of_lt_of_le hlimit hcount, haction⟩
    · exact hnew

/-- What leaves policies and subscriptions alone. -/
theorem Clerk.step (h : Clerk p c start w P) (hon : Onward w w') (hw : Numbered w)
    (hw' : Numbered w') (hpolicies : w'.policies = w.policies)
    (hcount : w.subscriptions ≤ w'.subscriptions)
    (hback : ∀ o, w'.Present o → w.HasObject o ∨
      ∀ key x, P.registry.subjects.slots.get? key = some x → x.address ≠ o.address)
    (hplaced : ∀ key l, P.registry.listeners.get? key = some l → ∀ i,
      w'.subscribers i l.subscription = w.subscribers i l.subscription) :
    Clerk p c start w' P where
  policy := by
    rw [hpolicies]
    exact h.policy
  others := by
    rw [hpolicies]
    exact h.others
  idle := h.idle
  channel := h.channel
  exact := h.exact
  known := by
    intro key x hx
    obtain ⟨hobject, hplace⟩ := h.known key x hx
    refine ⟨hon.hasObject hobject, ?_⟩
    intro o ho haddr
    rcases hback o ho with hold | hnew
    · exact hplace o (hon.present hw hw' hold ho) haddr
    · exact absurd haddr (hnew key x hx)
  numbered := by
    intro key l hl
    obtain ⟨hfirst, hlimit⟩ := h.numbered key l hl
    exact ⟨hfirst, Nat.lt_of_lt_of_le hlimit hcount⟩
  distinct := h.distinct
  placed := by
    intro key l o hl ho i
    rw [hplaced key l hl]
    exact h.placed key l o hl ho i

/-- What leaves the policy and the generation of its channel alone. -/
theorem Tally.step (h : Tally c w P answers n) (hon : Onward w w') (hw : Numbered w)
    (hw' : Numbered w') (hissue : w'.issue c = w.issue c) : Tally c w' P answers n where
  issued := h.issued
  lasting := by
    intro a ha key hkey hchannel halive
    rw [hissue]
    have hobject := (h.observable a ha key hkey).1
    exact h.lasting a ha key hkey (hon.channelAlive hchannel)
      (hon.present hw hw' hobject ⟨hon.hasObject hobject, halive⟩).2
  observable := by
    intro a ha key hkey
    obtain ⟨hobject, hdeclared⟩ := h.observable a ha key hkey
    exact ⟨hon.hasObject hobject, (hon.declared? hobject _).trans hdeclared⟩
  shared := h.shared
  once := h.once
  counted := h.counted
  stamped := h.stamped
  current := by
    rw [hissue]
    exact h.current
  traced := h.traced

/-- With no answers there is only the registry to speak of. -/
theorem Tally.nil (hstamped : n < 2 ^ 64 → ∃ m ≤ n, P.registry.token.generation = UInt64.ofNat m)
    (hcurrent : n < 2 ^ 64 → P.registry.token = w.issue c →
      ∀ key, P.registry.listeners.get? key = none) : Tally c w P [] n where
  issued := fun _ ha => absurd ha List.not_mem_nil
  lasting := fun _ ha => absurd ha List.not_mem_nil
  observable := fun _ ha => absurd ha List.not_mem_nil
  shared := fun _ ha => absurd ha List.not_mem_nil
  once := List.nodup_nil
  counted := fun _ ha => absurd ha List.not_mem_nil
  stamped := hstamped
  current := by
    intro hn htoken key l hl
    rw [hcurrent hn htoken] at hl
    cases hl
  traced := fun _ _ ha => absurd ha List.not_mem_nil

/-- The subscriptions of the policy are held, since the policy is. -/
theorem Clerk.held (h : Clerk p c start w P) (hground : Ground c sink start w n)
    (hnamed : ∃ e ∈ start.names.policies, e.2 = p) {s : Nat}
    (hs : s ∈ P.registry.subscriptions) : s ∈ w.heldSubscriptions := by
  refine mem_heldSubscriptions (mem_livePolicies h.policy ?_) hs
  have hpolicies : w.names.policies = start.names.policies := by rw [hground.names]
  obtain ⟨e, he, rfl⟩ := hnamed
  simp only [policyAlive, Bool.or_eq_true, List.any_eq_true, decide_eq_true_eq]
  exact Or.inl (Or.inl (Or.inl (Or.inl ⟨e, by rwa [hpolicies], rfl⟩)))

end Frames

section Registries

variable {p c : Nat} {sink : Sink} {start w : Session} {P : Policy} {answers : List Answer}
  {n : Nat} {r : Registry}

/-- A session in which policies have changed goes on. -/
theorem Numbered.onward_policies (hw : Numbered w) (policies : List Policy) :
    Onward w { w with policies := policies } :=
  hw.onward (SameShapes.refl _) fun _ holder hholder _ hi _ => Or.inr ⟨holder, hholder, hi⟩

theorem Ground.withPolicies (h : Ground c sink start w n) (policies : List Policy) :
    Ground c sink start { w with policies := policies } n :=
  h.step (h.cells.onward_policies policies) (SameShapes.refl _) rfl (Nat.le_refl _)
    fun _ _ hob => Or.inl hob

/-- A registry that has lost listeners of another perhaps, but has gained none. -/
def Dwindles (r r' : Registry) : Prop :=
  ∀ key l, r'.listeners.get? key = some l → r.listeners.get? key = some l ∧ r'.token = r.token ∧
    ∀ x, r'.subjects.slots.get? l.subject = some x ↔ r.subjects.slots.get? l.subject = some x

theorem Clerk.setRegistry (h : Clerk p c start w P) (hexact : r.Exact)
    (hchannel : r.token.channel = c)
    (hknown : ∀ key x, r.subjects.slots.get? key = some x →
      w.HasObject x ∧ ∀ o, w.Present o → x.address = o.address → x = o)
    (hkept : Dwindles P.registry r) :
    Clerk p c start (w.setRegistry p r) { P with registry := r } := by
  obtain ⟨hself, hother⟩ := getElem?_modifyPolicy h.policy fun q => { q with registry := r }
  constructor
  · exact hself
  · exact fun q hq => (hother q hq).trans (h.others q hq)
  · exact h.idle
  · exact hchannel
  · exact hexact
  · exact hknown
  · exact fun key l hl => h.numbered key l (hkept key l hl).1
  · exact fun key key' l l' hl hl' =>
      h.distinct key key' l l' (hkept key l hl).1 (hkept key' l' hl').1
  · intro key l o hl ho i
    obtain ⟨hl', htoken, hslot⟩ := hkept key l hl
    have hplaced := h.placed key l o hl' ((hslot o).mp ho) i
    rw [← htoken] at hplaced
    exact hplaced

theorem Tally.withPolicies (h : Tally c w P answers n) (policies : List Policy) :
    Tally c { w with policies := policies } P answers n :=
  ⟨h.issued, h.lasting, h.observable, h.shared, h.once, h.counted, h.stamped, h.current, h.traced⟩

/-- The answers stay true when a policy loses only listeners of another generation and of objects
that are gone. -/
theorem Tally.setRegistry (h : Tally c w P answers n) (p : Nat)
    (hissued : ∀ key, P.registry.listeners.Issued key → r.listeners.Issued key)
    (hkept : Dwindles P.registry r)
    (hlasting : ∀ key l o, P.registry.listeners.get? key = some l →
      P.registry.subjects.slots.get? l.subject = some o → w.channelAlive c = true →
        w.objectAlive o = true → P.registry.token = w.issue c →
          r.token = w.issue c ∧ r.listeners.get? key = some l)
    (hstamped : r.token = P.registry.token ∨ r.token = w.issue c)
    (hgeneration : w.generation c = UInt64.ofNat n) :
    Tally c (w.setRegistry p r) { P with registry := r } answers n where
  issued := by
    intro a ha key hkey
    obtain ⟨hiss, hread⟩ := h.issued a ha key hkey
    refine ⟨hissued key hiss, ?_⟩
    intro l hl
    obtain ⟨hl', -, hslot⟩ := hkept key l hl
    obtain ⟨hattr, hobject⟩ := hread l hl'
    exact ⟨hattr, (hslot _).mpr hobject⟩
  lasting := by
    intro a ha key hkey hchannel halive
    obtain ⟨htoken, l, hl⟩ := h.lasting a ha key hkey hchannel halive
    obtain ⟨-, hobject⟩ := (h.issued a ha key hkey).2 l hl
    obtain ⟨htoken', hl'⟩ := hlasting key l _ hl hobject hchannel halive htoken
    exact ⟨htoken', l, hl'⟩
  observable := h.observable
  shared := h.shared
  once := h.once
  counted := h.counted
  stamped := by
    intro hn
    rcases hstamped with htoken | htoken
    · dsimp only
      rw [htoken]
      exact h.stamped hn
    · refine ⟨n, Nat.le_refl n, ?_⟩
      dsimp only
      rw [htoken]
      exact hgeneration
  current := by
    intro hn htoken key l hl
    obtain ⟨hl', hsame, hslot⟩ := hkept key l hl
    obtain ⟨a, ha, hattached, hattr, hobject⟩ := h.current hn (hsame.symm.trans htoken) key l hl'
    exact ⟨a, ha, hattached, hattr, (hslot _).mpr hobject⟩
  traced := h.traced

/-- A registry that starts over has lost everything. -/
theorem dwindles_clear (r : Registry) (token : Token) :
    Dwindles r { r.clear with token := token } := by
  intro key l hl
  rw [Registry.clear, Slots.get?_clear] at hl
  cases hl

/-- A registry in which an object that exists is looked up. -/
theorem dwindles_of_admits {o : ObjectRef} {subject : SlotKey} (hexact : P.registry.Exact)
    (hadmits : (w.refreshed P.registry).Admits o r subject) : Dwindles P.registry r := by
  intro key l hl
  rw [hadmits.listeners] at hl
  have htoken := hadmits.token
  have hkeys := hadmits.keys l.subject
  unfold refreshed at hl htoken hkeys
  split at hl
  · next hconnected =>
      rw [if_pos hconnected] at htoken hkeys
      refine ⟨hl, htoken, ?_⟩
      obtain ⟨y, hy⟩ := hexact.placed key l hl
      have hy' := (hkeys y).mpr (Or.inl hy)
      intro x
      rw [hy, hy']
  · rw [Registry.clear, Slots.get?_clear] at hl
    cases hl

end Registries

section Attaching

variable {p c : Nat} {sink : Sink} {start w : Session} {P : Policy} {answers : List Answer}
  {n : Nat} {r : Registry} {subject : SlotKey} {o : ObjectRef} {attr : String}

theorem Numbered.onward_withListener (hw : Numbered w) (p : Nat) (r : Registry)
    (subject : SlotKey) (o : ObjectRef) (attr : String) :
    Onward w (w.withListener p r subject o attr) := by
  refine hw.onward (sameShapes_withListener w p r subject o attr) ?_
  intro j holder' hholder' i hi _
  obtain ⟨holder, hholder, rfl | rfl⟩ := getElem?_modify_some hholder'
  · exact Or.inr ⟨holder, hholder, hi⟩
  · exact Or.inr ⟨holder', hholder, hi⟩

theorem Ground.withListener (h : Ground c sink start w n) (ho : w.HasObject o)
    (hchannel : r.token.channel = c) (p : Nat) (subject : SlotKey) (attr : String) :
    Ground c sink start (w.withListener p r subject o attr) n := by
  refine h.step (h.cells.onward_withListener p r subject o attr)
    (sameShapes_withListener w p r subject o attr) rfl (Nat.le_succ _) ?_
  intro i ob hob
  rw [observersAt_withListener ho, List.mem_append] at hob
  refine hob.imp_right ?_
  intro hnew
  split at hnew
  · obtain rfl := List.mem_singleton.mp hnew
    exact Or.inr ⟨h.counted, Nat.lt_succ_self _, _, _, rfl, hchannel⟩
  · cases hnew

/-- A policy gains a listener for an object and an attribute that have none. -/
theorem Clerk.withListener (h : Clerk p c start w P) (hground : Ground c sink start w n)
    (ho : w.HasObject o) (hslot : P.registry.subjects.slots.get? subject = some o)
    (hnone : Assoc.get? (subject, attr) P.registry.index = none) :
    Clerk p c start (w.withListener p P.registry subject o attr)
      { P with registry := P.registry.attach ⟨subject, attr, w.subscriptions⟩, busy := false } := by
  obtain ⟨hself, hother⟩ := getElem?_modifyPolicy h.policy fun q => { q with
    registry := P.registry.attach ⟨subject, attr, w.subscriptions⟩, busy := false }
  have hon := hground.cells.onward_withListener p P.registry subject o attr
  have hnumbered := (hground.withListener ho h.channel p subject attr).cells
  have hold : ∀ i, ∀ ob ∈ w.observersAt (.object i), ob.subscription < w.subscriptions := by
    intro i ob hob
    rcases hground.observers i ob hob with ⟨hlt, -⟩ | ⟨-, hlt, -⟩
    · exact Nat.lt_of_lt_of_le hlt hground.counted
    · exact hlt
  constructor
  · exact hself
  · exact fun q hq => (hother q hq).trans (h.others q hq)
  · rfl
  · exact h.channel
  · exact h.exact.attach hslot hnone
  · intro key x hx
    obtain ⟨hobject, hplace⟩ := h.known key x hx
    refine ⟨hon.hasObject hobject, ?_⟩
    intro y hy haddr
    exact hplace y (hon.present hground.cells hnumbered
      ((sameShapes_withListener w p P.registry subject o attr).symm.hasObject hy.1) hy) haddr
  · intro key l hl
    rw [h.exact.get?_attach] at hl
    split at hl
    · obtain rfl := Option.some.inj hl
      exact ⟨hground.counted, Nat.lt_succ_self _⟩
    · obtain ⟨hfirst, hlimit⟩ := h.numbered key l hl
      exact ⟨hfirst, Nat.lt_succ_of_lt hlimit⟩
  · intro key key' l l' hl hl' hsame
    rw [h.exact.get?_attach] at hl hl'
    split at hl
    · next hkey =>
        obtain rfl := Option.some.inj hl
        split at hl'
        · next hkey' => rw [hkey, hkey']
        · have hlt := (h.numbered key' l' hl').2
          rw [← hsame] at hlt
          exact absurd hlt (Nat.lt_irrefl _)
    · split at hl'
      · obtain rfl := Option.some.inj hl'
        have hlt := (h.numbered key l hl).2
        rw [hsame] at hlt
        exact absurd hlt (Nat.lt_irrefl _)
      · exact h.distinct key key' l l' hl hl' hsame
  · intro key l x hl hx i
    rw [subscribers, observersAt_withListener ho, List.filter_append]
    rw [h.exact.get?_attach] at hl
    split at hl
    · next hkey =>
        obtain rfl := Option.some.inj hl
        obtain rfl : o = x := Option.some.inj (hslot.symm.trans hx)
        have hfresh : (w.observersAt (.object i)).filter
            (fun ob => ob.subscription = w.subscriptions) = [] := by
          rw [List.filter_eq_nil_iff]
          intro ob hob hsame
          have hlt := hold i ob hob
          rw [of_decide_eq_true hsame] at hlt
          exact Nat.lt_irrefl _ hlt
        rw [hfresh, hkey, List.nil_append]
        by_cases hi : i = o.id
        · simp [hi, Registry.attach]
        · simp [hi]
    · have hlt := (h.numbered key l hl).2
      have hother : ((if i = o.id then [⟨attr, w.subscriptions,
          .forward (some P.registry.listeners.nextKey) P.registry.token⟩] else [] :
            List (Observer Reaction)).filter fun ob => ob.subscription = l.subscription) = [] := by
        rw [List.filter_eq_nil_iff]
        intro ob hob hsame
        split at hob
        · rw [List.mem_singleton.mp hob] at hsame
          rw [← of_decide_eq_true hsame] at hlt
          exact Nat.lt_irrefl _ hlt
        · cases hob
      rw [hother, List.append_nil]
      exact h.placed key l x hl hx i

/-- Counting a listener leaves everything else alone. -/
theorem Clerk.countListener (h : Clerk p c start w P) (hook : Hookup SlotKey) :
    ∃ attached, Clerk p c start (w.countListener p hook) { P with attached := attached } ∧
      P.attached ⊆ attached ∧ ∀ key, hook = .attached key → key ∈ attached := by
  cases hook with
  | attached key =>
      obtain ⟨hself, hother⟩ := getElem?_modifyPolicy h.policy fun q =>
        { q with attached := q.attached ++ [key] }
      refine ⟨P.attached ++ [key], ⟨hself, fun q hq => (hother q hq).trans (h.others q hq), h.idle,
        h.channel, h.exact, h.known, h.numbered, h.distinct, h.placed⟩,
        List.subset_append_left _ _, ?_⟩
      intro key' hkey
      cases hkey
      exact List.mem_append_right _ (List.mem_singleton_self key)
  | _ => exact ⟨P.attached, h, fun _ hkey => hkey, nofun⟩

theorem countListener_of_not_attached {hook : Hookup SlotKey} (h : ∀ key, hook ≠ .attached key)
    (p : Nat) (w : Session) : w.countListener p hook = w := by
  cases hook with
  | attached key => exact absurd rfl (h key)
  | _ => rfl

/-- An answer that names no listener. -/
theorem Tally.refuse (h : Tally c w P answers n) {hook : Hookup SlotKey} (hkey : hook.key? = none)
    (o : ObjectRef) (attr : String) : Tally c w P (⟨o, attr, hook⟩ :: answers) n := by
  have hnew : ∀ (a : Answer) key, a ∈ (⟨o, attr, hook⟩ :: answers : List Answer) →
      a.hookup.key? = some key → a ∈ answers := by
    intro a key ha hsome
    rcases List.mem_cons.mp ha with rfl | ha
    · rw [hkey] at hsome
      cases hsome
    · exact ha
  constructor
  · exact fun a ha key hsome => h.issued a (hnew a key ha hsome) key hsome
  · exact fun a ha key hsome => h.lasting a (hnew a key ha hsome) key hsome
  · exact fun a ha key hsome => h.observable a (hnew a key ha hsome) key hsome
  · exact fun a ha b hb key hsome hsome' =>
      h.shared a (hnew a key ha hsome) b (hnew b key hb hsome') key hsome hsome'
  · have hpair : Answer.newPair? ⟨o, attr, hook⟩ = none := by
      cases hook with
      | attached key => cases hkey
      | _ => rfl
    rw [List.filterMap_cons, hpair]
    exact h.once
  · exact fun a ha key hattached =>
      h.counted a (hnew a key ha (by rw [hattached]; rfl)) key hattached
  · exact h.stamped
  · intro hn htoken key l hl
    obtain ⟨a, ha, hattached⟩ := h.current hn htoken key l hl
    exact ⟨a, List.mem_cons_of_mem _ ha, hattached⟩
  · exact fun hn a ha key hbound => List.mem_cons_of_mem _
      (h.traced hn a (hnew a key ha (by rw [hbound]; rfl)) key hbound)

/-- An answer that names the listener that was there. -/
theorem Tally.find (h : Tally c w P answers n) (hexact : P.registry.Exact)
    (htoken : P.registry.token = w.issue c) (ho : w.HasObject o)
    (hobservable : w.declared? o attr = some .observable)
    (hslot : P.registry.subjects.slots.get? subject = some o) {key : SlotKey}
    (hkey : Assoc.get? (subject, attr) P.registry.index = some key) :
    Tally c w P (⟨o, attr, .alreadyBound key⟩ :: answers) n := by
  obtain ⟨l, hl, rfl, rfl⟩ := (hexact.indexed subject attr key).mp hkey
  have hread : ∀ l', P.registry.listeners.get? key = some l' →
      l'.attr = l.attr ∧ P.registry.subjects.slots.get? l'.subject = some o := by
    intro l' hl'
    obtain rfl := Option.some.inj (hl.symm.trans hl')
    exact ⟨rfl, hslot⟩
  have hshared : ∀ a ∈ answers, a.hookup.key? = some key → a.object = o ∧ a.attr = l.attr := by
    intro a ha hsome
    obtain ⟨hattr, hobject⟩ := (h.issued a ha key hsome).2 l hl
    exact ⟨(Option.some.inj (hslot.symm.trans hobject)).symm, hattr.symm⟩
  constructor
  · rw [List.forall_mem_cons]
    refine ⟨?_, h.issued⟩
    rintro _ ⟨⟩
    exact ⟨Slots.issued_of_get? hl, hread⟩
  · rw [List.forall_mem_cons]
    refine ⟨?_, h.lasting⟩
    rintro _ ⟨⟩ - -
    exact ⟨htoken, l, hl⟩
  · rw [List.forall_mem_cons]
    refine ⟨?_, h.observable⟩
    rintro _ ⟨⟩
    exact ⟨ho, hobservable⟩
  · intro a ha b hb key' hsome hsome'
    rcases List.mem_cons.mp ha with rfl | ha <;> rcases List.mem_cons.mp hb with rfl | hb
    · exact ⟨rfl, rfl⟩
    · cases hsome
      obtain ⟨hobject, hattr⟩ := hshared b hb hsome'
      exact ⟨hobject.symm, hattr.symm⟩
    · cases hsome'
      exact hshared a ha hsome
    · exact h.shared a ha b hb key' hsome hsome'
  · exact h.once
  · rw [List.forall_mem_cons]
    exact ⟨nofun, h.counted⟩
  · exact h.stamped
  · intro hn hissue key' l' hl'
    obtain ⟨a, ha, hattached⟩ := h.current hn hissue key' l' hl'
    exact ⟨a, List.mem_cons_of_mem _ ha, hattached⟩
  · intro hn
    rw [List.forall_mem_cons]
    refine ⟨?_, fun a ha key' hbound => List.mem_cons_of_mem _ (h.traced hn a ha key' hbound)⟩
    rintro _ ⟨⟩
    obtain ⟨⟨object, attr, hook⟩, ha, hattached, rfl, hobject⟩ := h.current hn htoken key l hl
    obtain rfl : hook = .attached key := hattached
    obtain rfl : o = object := Option.some.inj (hslot.symm.trans hobject)
    exact List.mem_cons_of_mem _ ha

/-- An answer that names a new listener. -/
theorem Tally.attach (h : Tally c w P answers n) (hexact : P.registry.Exact)
    (hw : Numbered w) (htoken : P.registry.token = w.issue c)
    (hchannel : w.channelAlive c = true) (ho : w.Present o)
    (hobservable : w.declared? o attr = some .observable)
    (hslot : P.registry.subjects.slots.get? subject = some o)
    (hnone : Assoc.get? (subject, attr) P.registry.index = none) {attached : List SlotKey}
    (hcounted : P.attached ⊆ attached) (hnew : P.registry.listeners.nextKey ∈ attached) :
    Tally c (w.withListener p P.registry subject o attr)
      { P with registry := P.registry.attach ⟨subject, attr, w.subscriptions⟩, busy := false,
               attached := attached }
      (⟨o, attr, .attached P.registry.listeners.nextKey⟩ :: answers) n := by
  have hon := hw.onward_withListener p P.registry subject o attr
  have hw' := (sameShapes_withListener w p P.registry subject o attr).numbered hw
  have hold : ∀ a ∈ answers, ∀ key, a.hookup.key? = some key →
      key ≠ P.registry.listeners.nextKey := by
    rintro a ha _ hsome rfl
    exact hexact.listeners.not_issued (h.issued a ha _ hsome).1
  have hfirst : (o, attr) ∉ answers.filterMap Answer.newPair? := by
    rw [List.mem_filterMap]
    rintro ⟨⟨object, attr', hook⟩, ha, hpair⟩
    cases hook with
    | attached key =>
        obtain ⟨rfl, rfl⟩ := Prod.mk.inj (Option.some.inj hpair)
        obtain ⟨-, l, hl⟩ := h.lasting _ ha key rfl hchannel ho.2
        obtain ⟨hattr, hobject⟩ := (h.issued _ ha key rfl).2 l hl
        have hsubject := hexact.subjects.key_eq hobject hslot rfl
        rw [(hexact.indexed subject attr' key).mpr ⟨l, hl, hsubject, hattr⟩] at hnone
        cases hnone
    | _ => cases hpair
  have hkept := h.step hon hw hw' rfl
  constructor
  · rw [List.forall_mem_cons]
    constructor
    · rintro _ ⟨⟩
      have hself := (hexact.get?_attach ⟨subject, attr, w.subscriptions⟩).trans (if_pos rfl)
      refine ⟨Slots.issued_of_get? hself, ?_⟩
      intro l hl
      obtain rfl := Option.some.inj (hself.symm.trans hl)
      exact ⟨rfl, hslot⟩
    · intro a ha key hsome
      obtain ⟨hissued, hread⟩ := h.issued a ha key hsome
      refine ⟨hexact.listeners.issued_insert hissued _, ?_⟩
      intro l hl
      dsimp only at hl
      rw [hexact.get?_attach, if_neg (hold a ha key hsome)] at hl
      exact hread l hl
  · rw [List.forall_mem_cons]
    constructor
    · rintro _ ⟨⟩ - -
      exact ⟨htoken, _, (hexact.get?_attach _).trans (if_pos rfl)⟩
    · intro a ha key hsome hchannel' halive
      obtain ⟨hissue, l, hl⟩ := hkept.lasting a ha key hsome hchannel' halive
      exact ⟨hissue, l, ((hexact.get?_attach _).trans (if_neg (hold a ha key hsome))).trans hl⟩
  · rw [List.forall_mem_cons]
    refine ⟨?_, hkept.observable⟩
    rintro _ ⟨⟩
    exact ⟨hon.hasObject ho.1, (hon.declared? ho.1 attr).trans hobservable⟩
  · intro a ha b hb key hsome hsome'
    rcases List.mem_cons.mp ha with rfl | ha <;> rcases List.mem_cons.mp hb with rfl | hb
    · exact ⟨rfl, rfl⟩
    · cases hsome
      exact absurd rfl (hold b hb _ hsome')
    · cases hsome'
      exact absurd rfl (hold a ha _ hsome)
    · exact h.shared a ha b hb key hsome hsome'
  · exact List.nodup_cons.mpr ⟨hfirst, h.once⟩
  · rw [List.forall_mem_cons]
    constructor
    · rintro _ ⟨⟩
      exact hnew
    · exact fun a ha key hattached => hcounted (h.counted a ha key hattached)
  · exact h.stamped
  · intro hn hissue key l hl
    dsimp only at hl
    rw [hexact.get?_attach] at hl
    split at hl
    · next hkey =>
        obtain rfl := Option.some.inj hl
        exact ⟨_, List.mem_cons_self, by rw [hkey], rfl, hslot⟩
    · obtain ⟨a, ha, hattached⟩ := h.current hn hissue key l hl
      exact ⟨a, List.mem_cons_of_mem _ ha, hattached⟩
  · intro hn
    rw [List.forall_mem_cons]
    exact ⟨nofun, fun a ha key hbound => List.mem_cons_of_mem _ (h.traced hn a ha key hbound)⟩

end Attaching

end Session
end TrackedExpr
