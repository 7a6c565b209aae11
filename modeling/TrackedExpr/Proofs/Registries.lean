import TrackedExpr.Proofs.Slots
import TrackedExpr.Tracking.Registry

/-!
# Registries know what they listen to

A sound registry has a listener for every entry of its index, and the listener's
subscription is heard at the object and attribute of the entry.  What is heard is
given from outside, since observers are kept by the objects.

**Definitions.**
* `Registry.Sound`: the arena, the listeners and the index fit each other;
* `Registry.Listens`: a registry has a listener that is heard.

**Results.**
* `Registry.Sound.intern`, `Registry.Sound.lookup`: the key of a live object, and the
  listener that the index has for it;
* `Registry.Sound.attach`: a new listener;
* `Registry.Sound.clear`, `Registry.Sound.resync`: starting over.
-/

namespace TrackedExpr

namespace SubjectArena

/-- The keys by address are those of live slots, and addresses are numbers of objects. -/
structure Sound (a : SubjectArena) : Prop where
  slots : a.slots.Sound
  known : ∀ addr key, Assoc.get? addr a.byAddress = some key →
    ∃ o, a.slots.get? key = some o ∧ o.address = addr ∧ o.id = addr

variable {a : SubjectArena} {o : ObjectRef}

theorem Sound.of_empty : Sound SubjectArena.empty := by
  constructor
  · exact Slots.Sound.of_empty
  · intro addr key h
    cases h

theorem Sound.clear (h : a.Sound) : a.clear.Sound := by
  constructor
  · exact h.slots.clear
  · intro addr key hkey
    cases hkey

theorem Sound.add (h : a.Sound) (ho : o.address = o.id) : (a.add o).1.Sound := by
  constructor
  · exact h.slots.insert o
  · intro addr key hkey
    by_cases haddr : addr = o.address
    · subst haddr
      obtain rfl : a.slots.nextKey = key := by simpa [SubjectArena.add] using hkey
      exact ⟨o, Slots.get?_insert_self h.slots o, rfl, ho.symm⟩
    · have hkey' : Assoc.get? addr a.byAddress = some key := by
        rw [← hkey]
        exact (Assoc.get?_put_ne haddr _ _).symm
      obtain ⟨o', hget, haddr', hid⟩ := h.known addr key hkey'
      have hne : key ≠ a.slots.nextKey := by
        rintro rfl
        rw [Slots.get?_nextKey h.slots] at hget
        cases hget
      exact ⟨o', by rw [← hget]; exact Slots.get?_insert_ne h.slots o hne, haddr', hid⟩

/-- A live object has one key, and other keys keep their objects. -/
theorem Sound.intern (h : a.Sound) {alive : ObjectRef → Bool} (ho : o.address = o.id)
    (halive : ∀ o', o'.id = o.id → alive o' = true) :
    (a.intern alive o).1.Sound ∧
      (∃ o', (a.intern alive o).1.slots.get? (a.intern alive o).2 = some o' ∧ o'.id = o.id) ∧
      ∀ key o', a.slots.get? key = some o' → (a.intern alive o).1.slots.get? key = some o' := by
  unfold SubjectArena.intern
  cases hkey : Assoc.get? o.address a.byAddress with
  | some key =>
      obtain ⟨o', hget, -, hid⟩ := h.known _ _ hkey
      have hid' : o'.id = o.id := by rw [hid, ho]
      have hlive : a.isAlive alive key = true := by
        simp [isAlive, SubjectArena.get?, hget, halive o' hid']
      simp only [hlive, if_true]
      exact ⟨h, ⟨o', hget, hid'⟩, fun _ _ h => h⟩
  | none =>
      refine ⟨h.add ho, ⟨o, Slots.get?_insert_self h.slots o, rfl⟩, ?_⟩
      intro key o' hget
      have hne : key ≠ a.slots.nextKey := by
        rintro rfl
        rw [Slots.get?_nextKey h.slots] at hget
        cases hget
      rw [← hget]
      exact Slots.get?_insert_ne h.slots o hne

end SubjectArena

namespace Registry

/-- What is heard: an object, an attribute, a subscription to it and the listener that it
reports to. -/
abbrev Heard := Nat → String → Nat → SlotKey → Prop

/-- Every entry of the index has an object and a listener, and the listener is heard. -/
structure Sound (r : Registry) (heard : Heard) : Prop where
  subjects : r.subjects.Sound
  listeners : r.listeners.Sound
  indexed : ∀ subject attr key, Assoc.get? (subject, attr) r.index = some key →
    ∃ o l, r.subjects.slots.get? subject = some o ∧ r.listeners.get? key = some l ∧
      heard o.id attr l.subscription key

/-- Some listener of the registry is heard at an attribute of an object. -/
def Listens (r : Registry) (heard : Heard) (id : Nat) (attr : String) : Prop :=
  ∃ key l, r.listeners.get? key = some l ∧ heard id attr l.subscription key

variable {r : Registry} {heard heard' : Heard}

theorem Sound.of_empty (token : Token) : (Registry.empty token).Sound heard := by
  constructor
  · exact SubjectArena.Sound.of_empty
  · exact Slots.Sound.of_empty
  · intro subject attr key h
    cases h

theorem mem_subscriptions_iff {s : Nat} : s ∈ r.subscriptions ↔
    ∃ key l, r.listeners.get? key = some l ∧ l.subscription = s := by
  rw [subscriptions, List.mem_map]
  constructor
  · rintro ⟨⟨key, l⟩, hentry, rfl⟩
    exact ⟨key, l, Slots.mem_entries.mp hentry, rfl⟩
  · rintro ⟨key, l, hl, rfl⟩
    exact ⟨(key, l), Slots.mem_entries.mpr hl, rfl⟩

theorem mem_subscriptions {key : SlotKey} {l : Listener} (h : r.listeners.get? key = some l) :
    l.subscription ∈ r.subscriptions :=
  mem_subscriptions_iff.mpr ⟨key, l, h, rfl⟩

/-- A registry stays sound as long as its own subscriptions are heard. -/
theorem Sound.mono (h : r.Sound heard)
    (hheard : ∀ id attr s key, s ∈ r.subscriptions → heard id attr s key →
      heard' id attr s key) : r.Sound heard' := by
  constructor
  · exact h.subjects
  · exact h.listeners
  · intro subject attr key hkey
    obtain ⟨o, l, ho, hl, hs⟩ := h.indexed subject attr key hkey
    exact ⟨o, l, ho, hl, hheard _ _ _ _ (mem_subscriptions hl) hs⟩

theorem Listens.mono {id : Nat} {attr : String} (h : r.Listens heard id attr)
    (hheard : ∀ s key, s ∈ r.subscriptions → heard id attr s key → heard' id attr s key) :
    r.Listens heard' id attr := by
  obtain ⟨key, l, hl, hs⟩ := h
  exact ⟨key, l, hl, hheard _ _ (mem_subscriptions hl) hs⟩

theorem Sound.clear (h : r.Sound heard) (token : Token) :
    ({ r.clear with token := token } : Registry).Sound heard' := by
  constructor
  · exact h.subjects.clear
  · exact h.listeners.clear
  · intro subject attr key hkey
    cases hkey

/-- The registry that a hookup starts from when there is a channel: this one while its token is
connected, else one without listeners. -/
theorem Sound.resync (h : r.Sound heard) {connected : Bool} {token : Token} :
    ∃ r', r.resync connected (some token) = (r', true) ∧
      r'.Sound (if connected then heard else heard') ∧
      r'.token = (if connected then r.token else token) ∧ (connected = true → r' = r) := by
  cases connected with
  | true => exact ⟨r, rfl, h, rfl, fun _ => rfl⟩
  | false =>
      refine ⟨{ r.clear with token := token }, rfl, h.clear token, rfl, ?_⟩
      intro hfalse
      cases hfalse

/-- Looking up a live object gives its key, and the listener that the index has for it. -/
theorem Sound.lookup (h : r.Sound heard) {alive : ObjectRef → Bool} {o : ObjectRef}
    {attr : String} (ho : o.address = o.id) (halive : ∀ o', o'.id = o.id → alive o' = true) :
    ∃ subjects subject, r.lookup alive o attr =
        ({ r with subjects := subjects }, subject, Assoc.get? (subject, attr) r.index) ∧
      ({ r with subjects := subjects } : Registry).Sound heard ∧
      ∃ o', subjects.slots.get? subject = some o' ∧ o'.id = o.id := by
  obtain ⟨hsound, hkey, hkept⟩ := h.subjects.intern ho halive
  refine ⟨(r.subjects.intern alive o).1, (r.subjects.intern alive o).2, rfl, ?_, hkey⟩
  constructor
  · exact hsound
  · exact h.listeners
  · intro subject attr key hindex
    obtain ⟨o', l, hget, hl, hs⟩ := h.indexed subject attr key hindex
    exact ⟨o', l, hkept subject o' hget, hl, hs⟩

/-- A new listener, which is heard, beside those that were there. -/
theorem Sound.attach (h : r.Sound heard) {l : Listener} {o : ObjectRef}
    (ho : r.subjects.slots.get? l.subject = some o)
    (hmono : ∀ id attr s key, heard id attr s key → heard' id attr s key)
    (hnew : heard' o.id l.attr l.subscription r.listeners.nextKey) :
    (r.attach l).Sound heard' ∧ (r.attach l).Listens heard' o.id l.attr ∧
      ∀ id attr, r.Listens heard id attr → (r.attach l).Listens heard' id attr := by
  have hself : (r.attach l).listeners.get? r.listeners.nextKey = some l :=
    Slots.get?_insert_self h.listeners l
  have hkept : ∀ key l', r.listeners.get? key = some l' →
      (r.attach l).listeners.get? key = some l' := by
    intro key l' hl
    have hne : key ≠ r.listeners.nextKey := by
      rintro rfl
      rw [Slots.get?_nextKey h.listeners] at hl
      cases hl
    rw [← hl]
    exact Slots.get?_insert_ne h.listeners l hne
  refine ⟨?_, ⟨_, l, hself, hnew⟩, ?_⟩
  · constructor
    · exact h.subjects
    · exact h.listeners.insert l
    · intro subject attr key hindex
      by_cases heq : (subject, attr) = (l.subject, l.attr)
      · obtain ⟨rfl, rfl⟩ := Prod.mk.inj heq
        obtain rfl : r.listeners.nextKey = key := by simpa [Registry.attach] using hindex
        exact ⟨o, l, ho, hself, hnew⟩
      · have hindex' : Assoc.get? (subject, attr) r.index = some key := by
          rw [← hindex]
          exact (Assoc.get?_put_ne heq _ _).symm
        obtain ⟨o', l', hget, hl, hs⟩ := h.indexed subject attr key hindex'
        exact ⟨o', l', hget, hkept key l' hl, hmono _ _ _ _ hs⟩
  · rintro id attr ⟨key, l', hl, hs⟩
    exact ⟨key, l', hkept key l' hl, hmono _ _ _ _ hs⟩

end Registry
end TrackedExpr
