import TrackedExpr.Proofs.Registries

/-!
# Registries keep exact books

The index of a registry and its listeners say the same: an entry for each listener and
a listener for each entry.  Every listener's object is in the arena, and the arena
knows its objects by their addresses, one object at each.

**Definitions.**
* `SubjectArena.Exact`, `Registry.Exact`: arenas and registries that are exact;
* `Registry.Admits`, `Registry.Pruned`: what looking up an object and pruning lead to;
* `Registry.Covers`, `Registry.pairs`: the attributes of objects for which there are listeners.

**Results.**
* `SubjectArena.Exact.intern_cases`: an object that exists keeps its key, or gets a new one;
* `SubjectArena.Exact.prune`: the objects that are gone are forgotten, and no others;
* `Registry.Exact.lookup`, `Registry.Exact.attach`, `Registry.Exact.clear`,
  `Registry.Exact.prune`: what each operation does to an exact registry;
* `Registry.Exact.contains_iff`, `Registry.Exact.pairs`: membership and size.
-/

namespace TrackedExpr

namespace SubjectArena

/-- The keys by address are those of the slots in use. -/
structure Exact (a : SubjectArena) : Prop where
  slots : a.slots.Sound
  unique : Assoc.Unique a.byAddress
  known : ∀ addr key, Assoc.get? addr a.byAddress = some key ↔
    ∃ o, a.slots.get? key = some o ∧ o.address = addr

variable {a : SubjectArena} {alive : ObjectRef → Bool} {o o' : ObjectRef} {key key' : SlotKey}

theorem Exact.of_empty : Exact SubjectArena.empty where
  slots := Slots.Sound.of_empty
  unique := Assoc.Unique.nil
  known := by
    intro addr key
    constructor
    · intro h
      cases h
    · rintro ⟨o, ho, -⟩
      cases ho

theorem Exact.clear (h : a.Exact) : a.clear.Exact where
  slots := h.slots.clear
  unique := Assoc.Unique.nil
  known := by
    intro addr key
    constructor
    · intro hkey
      cases hkey
    · rintro ⟨o, ho, -⟩
      rw [SubjectArena.clear, Slots.get?_clear] at ho
      cases ho

/-- Objects at one address have one key. -/
theorem Exact.key_eq (h : a.Exact) (ho : a.slots.get? key = some o)
    (ho' : a.slots.get? key' = some o') (haddr : o.address = o'.address) : key = key' := by
  have hkey := (h.known o.address key).mpr ⟨o, ho, rfl⟩
  have hkey' := (h.known o.address key').mpr ⟨o', ho', haddr.symm⟩
  exact Option.some.inj (hkey.symm.trans hkey')

/-- Adding an object leaves the other keys alone. -/
theorem Exact.get?_add (h : a.Exact) :
    (a.add o).1.slots.get? key = if key = (a.add o).2 then some o else a.slots.get? key := by
  by_cases hkey : key = (a.add o).2
  · rw [if_pos hkey, hkey]
    exact Slots.get?_insert_self h.slots o
  · rw [if_neg hkey]
    exact Slots.get?_insert_ne h.slots o hkey

theorem Exact.add (h : a.Exact)
    (hnew : ∀ key x, a.slots.get? key = some x → x.address ≠ o.address) : (a.add o).1.Exact where
  slots := h.slots.insert o
  unique := h.unique.put
  known := by
    intro addr key
    rw [h.get?_add]
    by_cases haddr : addr = o.address
    · subst haddr
      have hself : Assoc.get? o.address (a.add o).1.byAddress = some (a.add o).2 :=
        Assoc.get?_put_self _ _ _
      rw [hself]
      constructor
      · intro hkey
        exact ⟨o, by rw [if_pos (Option.some.inj hkey).symm], rfl⟩
      · rintro ⟨x, hx, hxaddr⟩
        split at hx
        · next hkey => rw [hkey]
        · exact absurd hxaddr (hnew key x hx)
    · have hother : Assoc.get? addr (a.add o).1.byAddress = Assoc.get? addr a.byAddress :=
        Assoc.get?_put_ne haddr _ _
      rw [hother, h.known]
      have hfree : a.slots.get? (a.add o).2 = none := Slots.get?_nextKey h.slots
      constructor
      · rintro ⟨x, hx, hxaddr⟩
        refine ⟨x, ?_, hxaddr⟩
        rw [if_neg, hx]
        rintro rfl
        rw [hfree] at hx
        cases hx
      · rintro ⟨x, hx, hxaddr⟩
        split at hx
        · rw [← Option.some.inj hx] at hxaddr
          exact absurd hxaddr.symm haddr
        · exact ⟨x, hx, hxaddr⟩

/-- An object that exists, and whose address no other object has that the arena remembers, has a
key or is added. -/
theorem Exact.intern_cases (h : a.Exact) (halive : alive o = true)
    (hplace : ∀ key x, a.slots.get? key = some x → x.address = o.address → x = o) :
    (∃ key, a.intern alive o = (a, key) ∧ a.slots.get? key = some o) ∨
      (a.intern alive o = a.add o ∧
        ∀ key x, a.slots.get? key = some x → x.address ≠ o.address) := by
  unfold SubjectArena.intern
  cases hkey : Assoc.get? o.address a.byAddress with
  | none =>
      refine Or.inr ⟨rfl, ?_⟩
      intro key x hx haddr
      rw [(h.known o.address key).mpr ⟨x, hx, haddr⟩] at hkey
      cases hkey
  | some key =>
      obtain ⟨x, hx, haddr⟩ := (h.known _ _).mp hkey
      obtain rfl := hplace key x hx haddr
      have hlive : a.isAlive alive key = true := by
        rw [isAlive, SubjectArena.get?, hx, Option.filter_some, if_pos halive]
        rfl
      exact Or.inl ⟨key, by simp [hlive], hx⟩

/-- The key of an object that exists is valid afterwards, and no key changes its object. -/
theorem Exact.intern (h : a.Exact) (halive : alive o = true)
    (hplace : ∀ key x, a.slots.get? key = some x → x.address = o.address → x = o) :
    (a.intern alive o).1.Exact ∧
      (a.intern alive o).1.slots.get? (a.intern alive o).2 = some o ∧
      ∀ key x, (a.intern alive o).1.slots.get? key = some x ↔
        a.slots.get? key = some x ∨ key = (a.intern alive o).2 ∧ x = o := by
  rcases h.intern_cases halive hplace with ⟨key, hintern, hkey⟩ | ⟨hintern, hnew⟩
  · rw [hintern]
    refine ⟨h, hkey, ?_⟩
    intro key' x
    constructor
    · exact Or.inl
    · rintro (hx | ⟨rfl, rfl⟩)
      · exact hx
      · exact hkey
  · rw [hintern]
    have hfree : a.slots.get? (a.add o).2 = none := Slots.get?_nextKey h.slots
    refine ⟨h.add hnew, by rw [h.get?_add, if_pos rfl], ?_⟩
    intro key x
    rw [h.get?_add]
    by_cases hkey : key = (a.add o).2
    · subst hkey
      rw [if_pos rfl, hfree]
      simp [eq_comm]
    · rw [if_neg hkey]
      simp [hkey]

/-- The keys that are dropped are those of the objects that are gone. -/
theorem mem_prune : key ∈ (a.prune alive).2 ↔
    ∃ x, a.slots.get? key = some x ∧ alive x = false := by
  simp only [SubjectArena.prune, List.mem_map, List.mem_filter, Bool.not_eq_true']
  constructor
  · rintro ⟨⟨key', x⟩, ⟨hentry, halive⟩, rfl⟩
    exact ⟨x, Slots.mem_entries.mp hentry, halive⟩
  · rintro ⟨x, hx, halive⟩
    exact ⟨(key, x), ⟨Slots.mem_entries.mpr hx, halive⟩, rfl⟩

theorem get?_prune : (a.prune alive).1.slots.get? key = (a.slots.get? key).filter alive := by
  have hremoved : (a.prune alive).1.slots.get? key
      = if key ∈ (a.prune alive).2 then none else a.slots.get? key := Slots.get?_removeAll _
  rw [hremoved]
  cases hkey : a.slots.get? key with
  | none => simp
  | some x =>
      cases halive : alive x with
      | true =>
          rw [if_neg, Option.filter_some, if_pos halive]
          rintro hdead
          obtain ⟨y, hy, hgone⟩ := mem_prune.mp hdead
          obtain rfl := Option.some.inj (hkey.symm.trans hy)
          rw [halive] at hgone
          cases hgone
      | false => rw [if_pos (mem_prune.mpr ⟨x, hkey, halive⟩), Option.filter_some, halive]; rfl

theorem Exact.prune (h : a.Exact) : (a.prune alive).1.Exact where
  slots := h.slots.removeAll _
  unique := h.unique.filter _
  known := by
    intro addr key
    have hfilter : Assoc.get? addr (a.prune alive).1.byAddress
        = (Assoc.get? addr a.byAddress).filter fun k => (a.prune alive).1.slots.contains k :=
      h.unique.get?_filter _
    rw [hfilter, Option.filter_eq_some_iff, h.known, Slots.contains, get?_prune]
    constructor
    · rintro ⟨⟨x, hx, haddr⟩, hsome⟩
      rw [hx, Option.filter_some] at hsome ⊢
      split at hsome
      · exact ⟨x, by rw [if_pos ‹_›], haddr⟩
      · cases hsome
    · rintro ⟨x, hx, haddr⟩
      rw [hx]
      exact ⟨⟨x, (Option.filter_eq_some_iff.mp hx).1, haddr⟩, rfl⟩

end SubjectArena

namespace Registry

/-- An entry of the index for each listener and a listener for each entry, and the objects of all
listeners are in the arena. -/
structure Exact (r : Registry) : Prop where
  subjects : r.subjects.Exact
  listeners : r.listeners.Sound
  indexed : ∀ subject attr key, Assoc.get? (subject, attr) r.index = some key ↔
    ∃ l, r.listeners.get? key = some l ∧ l.subject = subject ∧ l.attr = attr
  placed : ∀ key l, r.listeners.get? key = some l → ∃ o, r.subjects.slots.get? l.subject = some o

variable {r : Registry} {alive : ObjectRef → Bool} {o : ObjectRef} {attr : String}

theorem Exact.of_empty (token : Token) : (Registry.empty token).Exact where
  subjects := SubjectArena.Exact.of_empty
  listeners := Slots.Sound.of_empty
  indexed := by
    intro subject attr key
    constructor
    · intro h
      cases h
    · rintro ⟨l, hl, -⟩
      cases hl
  placed := by
    intro key l hl
    cases hl

/-- A registry that starts over is exact. -/
theorem Exact.clear (h : r.Exact) (token : Token) :
    ({ r.clear with token := token } : Registry).Exact where
  subjects := h.subjects.clear
  listeners := h.listeners.clear
  indexed := by
    intro subject attr key
    constructor
    · intro hkey
      cases hkey
    · rintro ⟨l, hl, -⟩
      rw [Registry.clear, Slots.get?_clear] at hl
      cases hl
  placed := by
    intro key l hl
    rw [Registry.clear, Slots.get?_clear] at hl
    cases hl

/-- A registry that gave an object a key, beside the keys that it had given before. -/
structure Admits (r : Registry) (o : ObjectRef) (r' : Registry) (subject : SlotKey) : Prop where
  exact : r'.Exact
  token : r'.token = r.token
  listeners : r'.listeners = r.listeners
  index : r'.index = r.index
  self : r'.subjects.slots.get? subject = some o
  keys : ∀ key x, r'.subjects.slots.get? key = some x ↔
    r.subjects.slots.get? key = some x ∨ key = subject ∧ x = o

/-- Looking up an object that exists gives its key, and the listener that the index has for it. -/
theorem Exact.lookup (h : r.Exact) (halive : alive o = true)
    (hplace : ∀ key x, r.subjects.slots.get? key = some x → x.address = o.address → x = o) :
    ∃ r' subject, r.lookup alive o attr = (r', subject, Assoc.get? (subject, attr) r'.index) ∧
      r.Admits o r' subject := by
  obtain ⟨hexact, hself, hkeys⟩ := h.subjects.intern halive hplace
  refine ⟨{ r with subjects := (r.subjects.intern alive o).1 }, (r.subjects.intern alive o).2, rfl,
    ⟨hexact, h.listeners, h.indexed, ?_⟩, rfl, rfl, rfl, hself, hkeys⟩
  intro key l hl
  obtain ⟨x, hx⟩ := h.placed key l hl
  exact ⟨x, (hkeys _ x).mpr (Or.inl hx)⟩

theorem Exact.get?_attach (h : r.Exact) (l : Listener) {key : SlotKey} :
    (r.attach l).listeners.get? key
      = if key = r.listeners.nextKey then some l else r.listeners.get? key := by
  by_cases hkey : key = r.listeners.nextKey
  · rw [if_pos hkey, hkey]
    exact Slots.get?_insert_self h.listeners l
  · rw [if_neg hkey]
    exact Slots.get?_insert_ne h.listeners l hkey

/-- A listener for an object and an attribute that have none. -/
theorem Exact.attach (h : r.Exact) {l : Listener}
    (ho : r.subjects.slots.get? l.subject = some o)
    (hnone : Assoc.get? (l.subject, l.attr) r.index = none) : (r.attach l).Exact where
  subjects := h.subjects
  listeners := h.listeners.insert l
  indexed := by
    intro subject attr key
    have hfree : r.listeners.get? r.listeners.nextKey = none := Slots.get?_nextKey h.listeners
    rw [h.get?_attach]
    by_cases hpair : (subject, attr) = (l.subject, l.attr)
    · obtain ⟨rfl, rfl⟩ := Prod.mk.inj hpair
      have hself : Assoc.get? (l.subject, l.attr) (r.attach l).index = some r.listeners.nextKey :=
        Assoc.get?_put_self _ _ _
      rw [hself]
      constructor
      · intro hkey
        exact ⟨l, by rw [if_pos (Option.some.inj hkey).symm], rfl, rfl⟩
      · rintro ⟨l', hl', hsubject, hattr⟩
        split at hl'
        · next hkey => rw [hkey]
        · rw [(h.indexed _ _ key).mpr ⟨l', hl', hsubject, hattr⟩] at hnone
          cases hnone
    · have hother : Assoc.get? (subject, attr) (r.attach l).index
          = Assoc.get? (subject, attr) r.index := Assoc.get?_put_ne hpair _ _
      rw [hother, h.indexed]
      constructor
      · rintro ⟨l', hl', hsubject, hattr⟩
        refine ⟨l', ?_, hsubject, hattr⟩
        rw [if_neg, hl']
        rintro rfl
        rw [hfree] at hl'
        cases hl'
      · rintro ⟨l', hl', hsubject, hattr⟩
        split at hl'
        · obtain rfl := Option.some.inj hl'
          exact absurd (by rw [hsubject, hattr]) hpair
        · exact ⟨l', hl', hsubject, hattr⟩
  placed := by
    intro key l' hl'
    rw [h.get?_attach] at hl'
    split at hl'
    · obtain rfl := Option.some.inj hl'
      exact ⟨o, ho⟩
    · exact h.placed key l' hl'

section Covering

/-- There is a listener for an attribute of an object. -/
def Covers (r : Registry) (o : ObjectRef) (attr : String) : Prop :=
  ∃ key l, r.listeners.get? key = some l ∧ l.attr = attr ∧
    r.subjects.slots.get? l.subject = some o

variable {r' : Registry} {subject : SlotKey} {x : ObjectRef} {a : String}

/-- There is a listener for what the index has an entry for. -/
theorem Exact.covers_iff (h : r.Exact) (ho : r.subjects.slots.get? subject = some o) :
    r.Covers o attr ↔ ∃ key, Assoc.get? (subject, attr) r.index = some key := by
  constructor
  · rintro ⟨key, l, hl, rfl, hslot⟩
    have hsubject := h.subjects.key_eq hslot ho rfl
    exact ⟨key, (h.indexed _ _ key).mpr ⟨l, hl, hsubject, rfl⟩⟩
  · rintro ⟨key, hkey⟩
    obtain ⟨l, hl, rfl, rfl⟩ := (h.indexed _ _ key).mp hkey
    exact ⟨key, l, hl, rfl, ho⟩

/-- Looking up an object that exists tells whether there is a listener for an attribute of it. -/
theorem Exact.contains_iff (h : r.Exact) (halive : alive o = true)
    (hplace : ∀ key x, r.subjects.slots.get? key = some x → x.address = o.address → x = o) :
    r.contains alive o attr = true ↔ r.Covers o attr := by
  unfold Registry.contains SubjectArena.find?
  cases hkey : Assoc.get? o.address r.subjects.byAddress with
  | none =>
      simp only [Option.filter_none, Bool.false_eq_true, false_iff]
      rintro ⟨key, l, -, -, hslot⟩
      rw [(h.subjects.known o.address l.subject).mpr ⟨o, hslot, rfl⟩] at hkey
      cases hkey
  | some subject =>
      obtain ⟨y, hy, haddr⟩ := (h.subjects.known _ _).mp hkey
      obtain rfl := hplace subject y hy haddr
      have hlive : r.subjects.isAlive alive subject = true := by
        rw [SubjectArena.isAlive, SubjectArena.get?, hy, Option.filter_some, if_pos halive]
        rfl
      rw [Option.filter_some, if_pos hlive, h.covers_iff hy]
      exact Option.isSome_iff_exists

theorem not_covers_clear (token : Token) :
    ¬ ({ r.clear with token := token } : Registry).Covers x a := by
  rintro ⟨key, l, hl, -⟩
  rw [Registry.clear, Slots.get?_clear] at hl
  cases hl

theorem Admits.covers_iff (h : r.Exact) (hadmits : r.Admits o r' subject) :
    r'.Covers x a ↔ r.Covers x a := by
  have hslots : ∀ key l, r.listeners.get? key = some l →
      (r'.subjects.slots.get? l.subject = some x ↔ r.subjects.slots.get? l.subject = some x) := by
    intro key l hl
    obtain ⟨y, hy⟩ := h.placed key l hl
    have hy' := (hadmits.keys l.subject y).mpr (Or.inl hy)
    rw [hy, hy']
  unfold Covers
  rw [hadmits.listeners]
  constructor
  · rintro ⟨key, l, hl, hattr, hslot⟩
    exact ⟨key, l, hl, hattr, (hslots key l hl).mp hslot⟩
  · rintro ⟨key, l, hl, hattr, hslot⟩
    exact ⟨key, l, hl, hattr, (hslots key l hl).mpr hslot⟩

/-- A new listener beside those that were there. -/
theorem Exact.covers_attach (h : r.Exact) (ho : r.subjects.slots.get? subject = some o) (s : Nat) :
    (r.attach ⟨subject, attr, s⟩).Covers x a ↔ r.Covers x a ∨ x = o ∧ a = attr := by
  constructor
  · rintro ⟨key, l, hl, rfl, hslot⟩
    rw [h.get?_attach] at hl
    split at hl
    · obtain rfl := Option.some.inj hl
      exact Or.inr ⟨Option.some.inj (hslot.symm.trans ho), rfl⟩
    · exact Or.inl ⟨key, l, hl, rfl, hslot⟩
  · rintro (⟨key, l, hl, rfl, hslot⟩ | ⟨rfl, rfl⟩)
    · refine ⟨key, l, ?_, rfl, hslot⟩
      rw [h.get?_attach, if_neg, hl]
      rintro rfl
      rw [Slots.get?_nextKey h.listeners] at hl
      cases hl
    · exact ⟨r.listeners.nextKey, _, (h.get?_attach _).trans (if_pos rfl), rfl, ho⟩

/-- The attributes of objects for which there are listeners. -/
def pairs (r : Registry) : List (ObjectRef × String) :=
  r.listeners.entries.filterMap fun e => (r.subjects.slots.get? e.2.subject).map (·, e.2.attr)

theorem mem_pairs : (x, a) ∈ r.pairs ↔ r.Covers x a := by
  simp only [pairs, List.mem_filterMap, Option.map_eq_some_iff, Prod.mk.injEq, Prod.exists]
  constructor
  · rintro ⟨key, l, hentry, o, hslot, rfl, hattr⟩
    exact ⟨key, l, Slots.mem_entries.mp hentry, hattr, hslot⟩
  · rintro ⟨key, l, hl, hattr, hslot⟩
    exact ⟨key, l, Slots.mem_entries.mpr hl, x, hslot, rfl, hattr⟩

/-- An exact registry has one listener for each. -/
theorem Exact.pairs (h : r.Exact) : r.pairs.Nodup ∧ r.pairs.length = r.size := by
  have hslot : ∀ e ∈ r.listeners.entries, ∃ o, r.subjects.slots.get? e.2.subject = some o :=
    fun e he => h.placed e.1 e.2 (Slots.mem_entries.mp he)
  constructor
  · -- two listeners for one attribute of one object would share their entry of the index
    have hkeys := List.pairwise_map.mp (Slots.nodup_entries r.listeners)
    rw [Registry.pairs, List.Nodup, List.pairwise_filterMap]
    refine hkeys.imp_of_mem ?_
    rintro ⟨key, l⟩ ⟨key', l'⟩ he he' hne _ hpair _ hpair' rfl
    obtain ⟨o, ho, rfl⟩ := Option.map_eq_some_iff.mp hpair
    obtain ⟨o', ho', hsame⟩ := Option.map_eq_some_iff.mp hpair'
    obtain ⟨rfl, hattr⟩ := Prod.mk.inj hsame
    have hsubject := h.subjects.key_eq ho' ho rfl
    have hkey := (h.indexed l.subject l.attr key).mpr ⟨l, Slots.mem_entries.mp he, rfl, rfl⟩
    have hkey' := (h.indexed l.subject l.attr key').mpr
      ⟨l', Slots.mem_entries.mp he', hsubject, hattr⟩
    exact hne (Option.some.inj (hkey.symm.trans hkey'))
  · rw [Registry.pairs, Registry.size, Slots.size, List.filterMap_length_eq_length]
    intro e he
    obtain ⟨o, ho⟩ := hslot e he
    rw [ho]
    rfl

end Covering

section Pruning

/-- The object of a listener exists. -/
def serves (alive : ObjectRef → Bool) (r : Registry) (l : Listener) : Bool :=
  r.subjects.isAlive alive l.subject

theorem serves_eq {l : Listener} (ho : r.subjects.slots.get? l.subject = some o) :
    r.serves alive l = alive o := by
  rw [serves, SubjectArena.isAlive, SubjectArena.get?, ho, Option.filter_some]
  cases alive o <;> rfl

/-- A listener is dropped if its object is gone. -/
theorem Exact.mem_prune (h : r.Exact) {key : SlotKey} {l : Listener}
    (hl : r.listeners.get? key = some l) :
    l.subject ∈ (r.subjects.prune alive).2 ↔ r.serves alive l = false := by
  obtain ⟨o, ho⟩ := h.placed key l hl
  rw [SubjectArena.mem_prune, serves_eq ho]
  constructor
  · rintro ⟨x, hx, halive⟩
    obtain rfl := Option.some.inj (ho.symm.trans hx)
    exact halive
  · exact fun halive => ⟨o, ho, halive⟩

/-- What pruning an exact registry does: the listeners of the objects that are gone are dropped,
and their number is answered. -/
structure Pruned (alive : ObjectRef → Bool) (r : Registry) (after : Registry × Nat) : Prop where
  exact : after.1.Exact
  token : after.1.token = r.token
  issued : ∀ key, r.listeners.Issued key → after.1.listeners.Issued key
  subjects : ∀ key, after.1.subjects.slots.get? key = (r.subjects.slots.get? key).filter alive
  listeners : ∀ key, after.1.listeners.get? key = (r.listeners.get? key).filter (r.serves alive)
  dropped : after.2 = (r.listeners.entries.filter fun e => !r.serves alive e.2).length

theorem Exact.prune (h : r.Exact) : Pruned alive r (r.prune alive) := by
  have hdropped : (r.listeners.entries.filter fun e => e.2.subject ∈ (r.subjects.prune alive).2)
      = r.listeners.entries.filter fun e => !r.serves alive e.2 := by
    apply List.filter_congr
    rintro ⟨key, l⟩ hentry
    have hdead := @Exact.mem_prune r alive h key l (Slots.mem_entries.mp hentry)
    cases hserves : r.serves alive l <;> simp [hdead, hserves]
  unfold Registry.prune
  dsimp only
  split
  · next hempty =>
      have hnone : (r.subjects.prune alive).2 = [] := by simpa using hempty
      refine ⟨h, rfl, fun _ hkey => hkey, ?_, ?_, ?_⟩
      · intro key
        cases hkey : r.subjects.slots.get? key with
        | none => rfl
        | some x =>
            cases halive : alive x with
            | true => rw [Option.filter_some, if_pos halive]
            | false =>
                have hdead := SubjectArena.mem_prune.mpr ⟨x, hkey, halive⟩
                rw [hnone] at hdead
                cases hdead
      · intro key
        cases hl : r.listeners.get? key with
        | none => rfl
        | some l =>
            cases hserves : r.serves alive l with
            | true => rw [Option.filter_some, if_pos hserves]
            | false =>
                have hdead := (h.mem_prune hl).mpr hserves
                rw [hnone] at hdead
                cases hdead
      · rw [← hdropped, hnone]
        simp
  · have hlisteners : ∀ key, (r.listeners.removeAll ((r.listeners.entries.filter fun e =>
        e.2.subject ∈ (r.subjects.prune alive).2).map Prod.fst)).get? key
          = (r.listeners.get? key).filter (r.serves alive) := by
      intro key
      rw [Slots.get?_removeAll, hdropped]
      cases hl : r.listeners.get? key with
      | none => simp
      | some l =>
          cases hserves : r.serves alive l with
          | true =>
              rw [if_neg, Option.filter_some, if_pos hserves]
              simp only [List.mem_map, List.mem_filter, not_exists, not_and, Prod.forall]
              rintro key' l' ⟨hentry, hgone⟩ rfl
              obtain rfl := Option.some.inj (hl.symm.trans (Slots.mem_entries.mp hentry))
              rw [hserves] at hgone
              cases hgone
          | false =>
              rw [if_pos, Option.filter_some, hserves]
              · rfl
              · exact List.mem_map.mpr ⟨(key, l), List.mem_filter.mpr
                  ⟨Slots.mem_entries.mpr hl, by rw [hserves]; rfl⟩, rfl⟩
    refine ⟨?_, rfl, fun _ hkey => hkey.removeAll _, fun key => SubjectArena.get?_prune,
      hlisteners, ?_⟩
    · constructor
      · exact h.subjects.prune
      · exact h.listeners.removeAll _
      · intro subject attr key
        have hindex : Assoc.get? (subject, attr)
            (r.index.filter fun e => e.1.1 ∉ (r.subjects.prune alive).2)
              = if subject ∉ (r.subjects.prune alive).2 then Assoc.get? (subject, attr) r.index
                else none := by
          rw [Assoc.get?_filter_key fun k : SlotKey × String =>
            decide (k.1 ∉ (r.subjects.prune alive).2)]
          simp
        dsimp only
        rw [hindex, hlisteners]
        constructor
        · intro hkey
          split at hkey
          · next hkept =>
              obtain ⟨l, hl, rfl, rfl⟩ := (h.indexed _ _ _).mp hkey
              have hserves : r.serves alive l = true := by
                rw [← Bool.not_eq_false]
                exact fun hgone => hkept ((h.mem_prune hl).mpr hgone)
              exact ⟨l, by rw [hl, Option.filter_some, if_pos hserves], rfl, rfl⟩
          · cases hkey
        · rintro ⟨l, hl, rfl, rfl⟩
          obtain ⟨hl, hserves⟩ := Option.filter_eq_some_iff.mp hl
          rw [if_pos, (h.indexed _ _ _).mpr ⟨l, hl, rfl, rfl⟩]
          intro hdead
          rw [(h.mem_prune hl).mp hdead] at hserves
          cases hserves
      · intro key l hl
        dsimp only at hl ⊢
        rw [hlisteners] at hl
        obtain ⟨hl, hserves⟩ := Option.filter_eq_some_iff.mp hl
        obtain ⟨x, hx⟩ := h.placed key l hl
        rw [serves_eq hx] at hserves
        exact ⟨x, by rw [SubjectArena.get?_prune, hx, Option.filter_some, if_pos hserves]⟩
    · rw [List.length_map, hdropped]

end Pruning

end Registry
end TrackedExpr
