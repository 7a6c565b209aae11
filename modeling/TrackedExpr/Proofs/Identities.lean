import TrackedExpr.Proofs.Exactness

/-!
# The keys of subjects are identities

Objects come and go around an arena.  A new object is made at an address that no reference leads to
any more, and the entries of the arena are references: as long as an entry is there, no other object
takes the address of its object.  So an address at which the arena finds a key belongs to the object
that the key was given to, and a key that ended is not given to anything else.

**Definitions.**
* `Habitat`: an arena and the objects around it;
* `Habitat.Event`, `Habitat.Allows`, `Habitat.after`, `Habitat.answer`: what can happen, what it
  leaves and what is answered;
* `Habitat.Run`: everything that happened and was answered between two states;
* `Habitat.Forgets`, `Habitat.Ends`: what makes the arena forget a key, and what ends a key.

**Results.**
* `Habitat.Tidy.run`: no object has the address of an object that the arena remembers, unless it is
  this object;
* `Habitat.get?_after_iff`, `Habitat.mem_living_after`: one event;
* `Habitat.Handed.run`, `Habitat.Handed.get?_run`: what becomes of a key that was handed out;
* `Habitat.Run.resolves`, `Habitat.Run.key_eq_iff`, `Habitat.Run.mem_prune_iff`: what the past says
  of the answers;
* `Habitat.subject_keys_are_identities`.
-/

namespace TrackedExpr

/-- An arena, the objects that exist, and all objects made so far. -/
structure Habitat where
  arena : SubjectArena
  living : List ObjectRef
  made : List ObjectRef

namespace Habitat

section Events

/-- What happens to an object, and what is asked of the arena. -/
inductive Event
  | create (o : ObjectRef)
  | destroy (o : ObjectRef)
  | intern (o : ObjectRef)
  | find (o : ObjectRef)
  | get (key : SlotKey)
  | isAlive (key : SlotKey)
  | prune
  | clear

inductive Answer
  | nothing
  | key (key : SlotKey)
  | found (key : Option SlotKey)
  | object (o : Option ObjectRef)
  | truth (b : Bool)
  | keys (keys : List SlotKey)

abbrev History := List (Event × Answer)

/-- No objects, and an arena that met none. -/
def empty : Habitat := ⟨SubjectArena.empty, [], []⟩

variable (h : Habitat)

def alive (o : ObjectRef) : Bool := decide (o ∈ h.living)

/-- The objects to which a strong reference is left, or the weak one of an entry. -/
def held : List ObjectRef := h.living ++ h.arena.slots.entries.map Prod.snd

/-- A new object has an identity of its own, and an address to which no reference is left (other
references than these only rule out more).  Only an object that exists can be given to the arena. -/
def Allows : Event → Prop
  | .create o => (∀ x ∈ h.made, x.id ≠ o.id) ∧ ∀ x ∈ h.held, x.address ≠ o.address
  | .destroy o | .intern o | .find o => o ∈ h.living
  | .get _ | .isAlive _ | .prune | .clear => True

instance : (e : Event) → Decidable (h.Allows e)
  | .create o => inferInstanceAs
      (Decidable ((∀ x ∈ h.made, x.id ≠ o.id) ∧ ∀ x ∈ h.held, x.address ≠ o.address))
  | .destroy o | .intern o | .find o => inferInstanceAs (Decidable (o ∈ h.living))
  | .get _ | .isAlive _ | .prune | .clear => inferInstanceAs (Decidable True)

def after : Event → Habitat
  | .create o => { h with living := o :: h.living, made := o :: h.made }
  | .destroy o => { h with living := h.living.filter fun x => x ≠ o }
  | .intern o => { h with arena := (h.arena.intern h.alive o).1 }
  | .prune => { h with arena := (h.arena.prune h.alive).1 }
  | .clear => { h with arena := h.arena.clear }
  | .find _ | .get _ | .isAlive _ => h

def answer : Event → Answer
  | .intern o => .key (h.arena.intern h.alive o).2
  | .find o => .found (h.arena.find? h.alive o)
  | .get key => .object (h.arena.get? h.alive key)
  | .isAlive key => .truth (h.arena.isAlive h.alive key)
  | .prune => .keys (h.arena.prune h.alive).2
  | .create _ | .destroy _ | .clear => .nothing

/-- What happened between two states, with the answers. -/
inductive Run : Habitat → History → Habitat → Prop
  | done (h : Habitat) : Run h [] h
  | next {h h' : Habitat} {e : Event} {later : History} :
      h.Allows e → Run (h.after e) later h' → Run h ((e, h.answer e) :: later) h'

/-- The arena forgets a key: it is pruned, or everything is cleared. -/
def Forgets (key : SlotKey) : Event × Answer → Prop
  | (.prune, .keys keys) => key ∈ keys
  | (.clear, _) => True
  | _ => False

/-- The key of an object ends: the object dies, or the arena forgets the key. -/
def Ends (o : ObjectRef) (key : SlotKey) (e : Event × Answer) : Prop :=
  e.1 = .destroy o ∨ Forgets key e

end Events

variable {h h' : Habitat} {e : Event} {o x : ObjectRef} {key : SlotKey} {later : History}

theorem alive_eq_true : h.alive x = true ↔ x ∈ h.living := decide_eq_true_iff

theorem mem_held : x ∈ h.held ↔ x ∈ h.living ∨ ∃ key, h.arena.slots.get? key = some x := by
  rw [held, List.mem_append, List.mem_map]
  refine or_congr_right ⟨?_, ?_⟩
  · rintro ⟨⟨key, y⟩, hentry, rfl⟩
    exact ⟨key, Slots.mem_entries.mp hentry⟩
  · rintro ⟨key, hx⟩
    exact ⟨(key, x), Slots.mem_entries.mpr hx, rfl⟩

/-- The object of a key is answered as long as it exists. -/
theorem get?_eq_some_iff :
    h.arena.get? h.alive key = some x ↔ h.arena.slots.get? key = some x ∧ x ∈ h.living := by
  rw [SubjectArena.get?, Option.filter_eq_some_iff, alive_eq_true]

section Tidiness

/-- An exact arena that remembers only objects that were made; and no object that exists has the
address of another one that exists or is remembered. -/
structure Tidy (h : Habitat) : Prop where
  exact : h.arena.Exact
  known : ∀ x ∈ h.held, x ∈ h.made
  apart : ∀ x ∈ h.held, ∀ o ∈ h.living, x.address = o.address → x = o

theorem Tidy.of_empty : Tidy empty where
  exact := SubjectArena.Exact.of_empty
  known := nofun
  apart := nofun

variable (tidy : h.Tidy)
include tidy

theorem Tidy.place (ho : o ∈ h.living) (key : SlotKey) (x : ObjectRef)
    (hx : h.arena.slots.get? key = some x) : x.address = o.address → x = o :=
  tidy.apart x (mem_held.mpr (Or.inr ⟨key, hx⟩)) o ho

/-- An object that exists has a key, or gets the next one. -/
theorem Tidy.intern_cases (ho : o ∈ h.living) :
    (∃ key, h.arena.intern h.alive o = (h.arena, key) ∧ h.arena.slots.get? key = some o) ∨
      h.arena.intern h.alive o = h.arena.add o :=
  (tidy.exact.intern_cases (alive_eq_true.mpr ho) (tidy.place ho)).imp_right And.left

/-- A key is read after an event if it was read before and is not forgotten, or if the event hands
it out. -/
theorem get?_after_iff (hallows : h.Allows e) :
    (h.after e).arena.slots.get? key = some x ↔
      (h.arena.slots.get? key = some x ∧ ¬ Forgets key (e, h.answer e)) ∨
        e = .intern x ∧ h.answer e = .key key := by
  cases e with
  | intern o =>
      obtain ⟨-, -, hkeys⟩ := tidy.exact.intern (alive_eq_true.mpr hallows) (tidy.place hallows)
      simp only [after, answer, hkeys, Forgets, not_false_eq_true, and_true, Event.intern.injEq,
        Answer.key.injEq]
      exact or_congr_right ⟨fun ⟨hkey, hx⟩ => ⟨hx.symm, hkey.symm⟩,
        fun ⟨hx, hkey⟩ => ⟨hkey.symm, hx.symm⟩⟩
  | prune =>
      simp only [after, answer, Forgets, SubjectArena.get?_prune, Option.filter_eq_some_iff,
        SubjectArena.mem_prune, reduceCtorEq, false_and, or_false]
      refine and_congr_right fun hx => ?_
      simp [hx]
  | clear => simp [after, SubjectArena.clear, Forgets]
  | _ => simp [after, Forgets]

omit tidy in
theorem mem_living_after :
    x ∈ (h.after e).living ↔ (x ∈ h.living ∧ e ≠ .destroy x) ∨ e = .create x := by
  cases e with
  | create o => simp [after, or_comm, eq_comm (a := x)]
  | destroy o => simp [after, eq_comm (a := x)]
  | _ => simp [after]

omit tidy in
theorem mem_made_after : x ∈ (h.after e).made ↔ x ∈ h.made ∨ e = .create x := by
  cases e with
  | create o => simp [after, or_comm, eq_comm (a := x)]
  | _ => simp [after]

theorem Tidy.exact_after (hallows : h.Allows e) : (h.after e).arena.Exact := by
  cases e with
  | intern o => exact (tidy.exact.intern (alive_eq_true.mpr hallows) (tidy.place hallows)).1
  | prune => exact tidy.exact.prune
  | clear => exact tidy.exact.clear
  | _ => exact tidy.exact

/-- Nothing that no reference led to is referred to again. -/
theorem mem_held_after (hallows : h.Allows e) (hx : x ∈ (h.after e).held) :
    x ∈ h.held ∨ e = .create x := by
  rcases mem_held.mp hx with hliving | ⟨key, hkey⟩
  · exact (mem_living_after.mp hliving).imp_left fun hx => mem_held.mpr (Or.inl hx.1)
  · rcases (get?_after_iff tidy hallows).mp hkey with ⟨hkey, -⟩ | ⟨rfl, -⟩
    · exact Or.inl (mem_held.mpr (Or.inr ⟨key, hkey⟩))
    · exact Or.inl (mem_held.mpr (Or.inl hallows))

theorem Tidy.after (hallows : h.Allows e) : (h.after e).Tidy where
  exact := tidy.exact_after hallows
  known := by
    intro x hx
    rw [mem_made_after]
    exact (mem_held_after tidy hallows hx).imp_left (tidy.known x)
  apart := by
    intro x hx o ho haddr
    rcases mem_held_after tidy hallows hx with hold | rfl
    · rcases mem_living_after.mp ho with ⟨ho, -⟩ | rfl
      · exact tidy.apart x hold o ho haddr
      · exact absurd haddr (hallows.2 x hold)
    · rcases mem_living_after.mp ho with ⟨ho, -⟩ | ho
      · exact absurd haddr.symm (hallows.2 o (mem_held.mpr (Or.inl ho)))
      · exact Event.create.inj ho

theorem Tidy.run (run : Run h later h') : h'.Tidy := by
  induction run with
  | done h => exact tidy
  | next hallows _ ih => exact ih (tidy.after hallows)

end Tidiness

section Keys

/-- The key that is found for an object that exists is the one that reads it. -/
theorem Tidy.find?_eq_some_iff (tidy : h.Tidy) (ho : o ∈ h.living) :
    h.arena.find? h.alive o = some key ↔ h.arena.slots.get? key = some o := by
  rw [SubjectArena.find?, Option.filter_eq_some_iff, tidy.exact.known]
  constructor
  · rintro ⟨⟨y, hy, haddr⟩, -⟩
    rwa [tidy.place ho key y hy haddr] at hy
  · intro hslot
    refine ⟨⟨o, hslot, rfl⟩, ?_⟩
    rw [SubjectArena.isAlive, get?_eq_some_iff.mpr ⟨hslot, ho⟩]
    rfl

/-- A key that was handed out for an object: it is not handed out for another one. -/
structure Handed (h : Habitat) (o : ObjectRef) (key : SlotKey) : Prop where
  issued : h.arena.slots.Issued key
  only : ∀ x, h.arena.slots.get? key = some x → x = o
  made : o ∈ h.made

theorem issued_after (tidy : h.Tidy) (hissued : h.arena.slots.Issued key) (hallows : h.Allows e) :
    (h.after e).arena.slots.Issued key := by
  cases e with
  | intern o =>
      rw [after]
      rcases tidy.intern_cases hallows with ⟨key', hintern, -⟩ | hintern
      · rw [hintern]
        exact hissued
      · rw [hintern]
        exact tidy.exact.slots.issued_insert hissued o
  | prune => exact hissued.removeAll _
  | clear => exact hissued.clear
  | _ => exact hissued

/-- A key that was handed out before is handed out again only for the object that it reads. -/
theorem get?_of_answer (tidy : h.Tidy) (ho : o ∈ h.living) (hissued : h.arena.slots.Issued key)
    (hanswer : h.answer (.intern o) = .key key) : h.arena.slots.get? key = some o := by
  have hkey : (h.arena.intern h.alive o).2 = key := Answer.key.inj hanswer
  rcases tidy.intern_cases ho with ⟨key', hintern, hget⟩ | hintern
  · rw [hintern] at hkey
    rwa [← hkey]
  · rw [hintern] at hkey
    obtain rfl : h.arena.slots.nextKey = key := hkey
    exact absurd hissued tidy.exact.slots.not_issued

/-- Interning hands out a key that reads the object. -/
theorem get?_intern (tidy : h.Tidy) (ho : o ∈ h.living)
    (hanswer : h.answer (.intern o) = .key key) :
    (h.after (.intern o)).arena.slots.get? key = some o :=
  (get?_after_iff (e := .intern o) tidy ho).mpr (Or.inr ⟨rfl, hanswer⟩)

theorem Handed.of_intern (tidy : h.Tidy) (ho : o ∈ h.living)
    (hanswer : h.answer (.intern o) = .key key) : (h.after (.intern o)).Handed o key := by
  have hget := get?_intern tidy ho hanswer
  refine ⟨Slots.issued_of_get? hget, ?_, tidy.known o (mem_held.mpr (Or.inl ho))⟩
  intro x hx
  exact (Option.some.inj (hget.symm.trans hx)).symm

/-- What a key that was handed out reads after an event. -/
theorem Handed.get?_after (hk : h.Handed o key) (tidy : h.Tidy) (hallows : h.Allows e) :
    (h.after e).arena.slots.get? key = some x ↔
      h.arena.slots.get? key = some x ∧ ¬ Forgets key (e, h.answer e) := by
  rw [get?_after_iff tidy hallows, or_iff_left_iff_imp]
  rintro ⟨rfl, hanswer⟩
  exact ⟨get?_of_answer tidy hallows hk.issued hanswer, id⟩

theorem Handed.after (hk : h.Handed o key) (tidy : h.Tidy) (hallows : h.Allows e) :
    (h.after e).Handed o key where
  issued := issued_after tidy hk.issued hallows
  only := fun x hx => hk.only x ((hk.get?_after tidy hallows).mp hx).1
  made := mem_made_after.mpr (Or.inl hk.made)

theorem Handed.run (hk : h.Handed o key) (tidy : h.Tidy) (run : Run h later h') :
    h'.Handed o key := by
  induction run with
  | done h => exact hk
  | next hallows _ ih => exact ih (hk.after tidy hallows) (tidy.after hallows)

theorem Handed.slot_run (hk : h.Handed o key) (tidy : h.Tidy) (run : Run h later h') :
    h'.arena.slots.get? key = some o ↔
      h.arena.slots.get? key = some o ∧ ∀ e ∈ later, ¬ Forgets key e := by
  induction run with
  | done h => simp
  | next hallows _ ih =>
      rw [ih (hk.after tidy hallows) (tidy.after hallows), hk.get?_after tidy hallows, and_assoc,
        List.forall_mem_cons]

/-- An object that was made exists until it dies; it is not made again. -/
theorem Run.mem_living (run : Run h later h') (hmade : o ∈ h.made) :
    o ∈ h'.living ↔ o ∈ h.living ∧ ∀ e ∈ later, e.1 ≠ .destroy o := by
  induction run with
  | done h => simp
  | @next h h' e later hallows _ ih =>
      have hnew : e ≠ .create o := by
        rintro rfl
        exact hallows.1 o hmade rfl
      rw [ih (mem_made_after.mpr (Or.inl hmade)), mem_living_after, or_iff_left hnew, and_assoc,
        List.forall_mem_cons]

/-- **What a key resolves to**: to its object, until it ends. -/
theorem Handed.get?_run (hk : h.Handed o key) (tidy : h.Tidy) (run : Run h later h') :
    h'.arena.get? h'.alive key = some o ↔
      h.arena.get? h.alive key = some o ∧ ∀ e ∈ later, ¬ Ends o key e := by
  rw [get?_eq_some_iff, get?_eq_some_iff, hk.slot_run tidy run, run.mem_living hk.made]
  simp only [Ends, not_or, forall₂_and]
  tauto

/-- The arena does not forget the key of an object that exists, unless everything is cleared. -/
theorem not_forgets (hslot : h.arena.slots.get? key = some o) (ho : o ∈ h.living)
    (hclear : e ≠ .clear) : ¬ Forgets key (e, h.answer e) := by
  cases e with
  | prune =>
      intro hmem
      obtain ⟨y, hy, hgone⟩ := SubjectArena.mem_prune.mp hmem
      obtain rfl := Option.some.inj (hslot.symm.trans hy)
      rw [alive_eq_true.mpr ho] at hgone
      cases hgone
  | clear => exact absurd rfl hclear
  | _ => exact id

theorem Handed.slot_kept (hk : h.Handed o key) (tidy : h.Tidy) (run : Run h later h')
    (hslot : h.arena.slots.get? key = some o) (ho : o ∈ h'.living)
    (hclear : ∀ e ∈ later, e.1 ≠ .clear) : h'.arena.slots.get? key = some o := by
  induction run with
  | done h => exact hslot
  | next hallows run ih =>
      rw [List.forall_mem_cons] at hclear
      have hliving := ((Run.next hallows run).mem_living hk.made).mp ho
      refine ih (hk.after tidy hallows) (tidy.after hallows) ?_ ho hclear.2
      exact (hk.get?_after tidy hallows).mpr ⟨hslot, not_forgets hslot hliving.1 hclear.1⟩

/-- A key reads the object that it was handed out for. -/
theorem Run.mem_of_get? (run : Run h later h') (tidy : h.Tidy)
    (hx : h'.arena.slots.get? key = some x) :
    h.arena.slots.get? key = some x ∨ (Event.intern x, Answer.key key) ∈ later := by
  induction run with
  | done h => exact Or.inl hx
  | next hallows _ ih =>
      rcases ih (tidy.after hallows) hx with hx | hmem
      · rcases (get?_after_iff tidy hallows).mp hx with ⟨hx, -⟩ | ⟨rfl, hanswer⟩
        · exact Or.inl hx
        · exact Or.inr (List.mem_cons.mpr (Or.inl (by rw [hanswer])))
      · exact Or.inr (List.mem_cons_of_mem _ hmem)

end Keys

section Histories

variable {r : Answer} {pre mid post past : History}

theorem Run.split (run : Run h (pre ++ later) h') : ∃ m, Run h pre m ∧ Run m later h' := by
  induction pre generalizing h with
  | nil => exact ⟨h, .done h, run⟩
  | cons first rest ih =>
      cases run with
      | next hallows run =>
          obtain ⟨m, hpre, hpost⟩ := ih run
          exact ⟨m, .next hallows hpre, hpost⟩

/-- The state in which an event of the past happened. -/
theorem Run.moment (run : Run empty (pre ++ (e, r) :: post) h') :
    ∃ m : Habitat, Run empty pre m ∧ m.Tidy ∧ m.Allows e ∧ m.answer e = r ∧
      Run (m.after e) post h' := by
  obtain ⟨m, hpre, hrest⟩ := run.split
  cases hrest with
  | next hallows hpost => exact ⟨m, hpre, Tidy.of_empty.run hpre, hallows, rfl, hpost⟩

/-- The states between which everything happened since a key was handed out for an object. -/
theorem Run.since (run : Run empty (pre ++ (.intern o, .key key) :: mid) h') :
    ∃ m : Habitat, m.Tidy ∧ m.Handed o key ∧ m.arena.slots.get? key = some o ∧ o ∈ m.living ∧
      Run m mid h' := by
  obtain ⟨m, -, htidy, ho, hanswer, hmid⟩ := run.moment
  exact ⟨m.after (.intern o), htidy.after ho, Handed.of_intern htidy ho hanswer,
    get?_intern htidy ho hanswer, ho, hmid⟩

/-- A key resolves to its object until it ends, and to nothing afterwards. -/
theorem Run.resolves (run : Run empty (pre ++ (.intern o, .key key) :: mid) h') :
    h'.arena.get? h'.alive key = some o ∧ (∀ e ∈ mid, ¬ Ends o key e) ∨
      h'.arena.get? h'.alive key = none ∧ ∃ e ∈ mid, Ends o key e := by
  obtain ⟨m, htidy, hk, hslot, ho, hmid⟩ := run.since
  have hiff := hk.get?_run htidy hmid
  rw [and_iff_right (get?_eq_some_iff.mpr ⟨hslot, ho⟩)] at hiff
  by_cases hends : ∀ e ∈ mid, ¬ Ends o key e
  · exact Or.inl ⟨hiff.mpr hends, hends⟩
  · refine Or.inr ⟨?_, by push Not at hends; exact hends⟩
    cases hget : h'.arena.get? h'.alive key with
    | none => rfl
    | some y =>
        obtain rfl := (hk.run htidy hmid).only y (get?_eq_some_iff.mp hget).1
        exact absurd (hiff.mp hget) hends

/-- Two keys that were handed out are the same if they are of the same object and the arena was not
cleared in between. -/
theorem Run.key_eq_iff {o' : ObjectRef} {key' : SlotKey}
    (run : Run empty (pre ++ (.intern o, .key key) :: mid ++ (.intern o', .key key') :: post) h') :
    key = key' ↔ o = o' ∧ ∀ e ∈ mid, e.1 ≠ .clear := by
  obtain ⟨m, hpast, htidy, ho', hanswer, -⟩ := run.moment
  obtain ⟨m₁, htidy₁, hk₁, hslot₁, ho, hmid⟩ := hpast.since
  have hk := hk₁.run htidy₁ hmid
  constructor
  · rintro rfl
    have hslot := get?_of_answer htidy ho' hk.issued hanswer
    obtain rfl := hk.only o' hslot
    refine ⟨rfl, ?_⟩
    rintro ⟨e, a⟩ he hclear
    obtain rfl : e = .clear := hclear
    exact ((hk₁.slot_run htidy₁ hmid).mp hslot).2 _ he trivial
  · rintro ⟨rfl, hclear⟩
    have hslot := hk₁.slot_kept htidy₁ hmid hslot₁ ho' hclear
    have hslot' := (hk.get?_after (e := .intern o) htidy ho').mpr ⟨hslot, id⟩
    exact (htidy.exact_after ho').key_eq hslot' (get?_intern htidy ho' hanswer) rfl

/-- The keys that are pruned are those that were handed out and not forgotten since, and whose
objects died. -/
theorem Run.mem_prune_iff (run : Run empty past h') :
    key ∈ (h'.arena.prune h'.alive).2 ↔ ∃ pre mid o, past = pre ++ (.intern o, .key key) :: mid ∧
      (∃ e ∈ mid, e.1 = .destroy o) ∧ ∀ e ∈ mid, ¬ Forgets key e := by
  rw [SubjectArena.mem_prune]
  constructor
  · rintro ⟨x, hx, hgone⟩
    rcases run.mem_of_get? Tidy.of_empty hx with hnone | hmem
    · cases hnone
    · obtain ⟨pre, mid, rfl⟩ := List.append_of_mem hmem
      obtain ⟨m, htidy, hk, hslot, ho, hmid⟩ := run.since
      refine ⟨pre, mid, x, rfl, ?_, ((hk.slot_run htidy hmid).mp hx).2⟩
      by_contra hnever
      push Not at hnever
      rw [alive_eq_true.mpr ((hmid.mem_living hk.made).mpr ⟨ho, hnever⟩)] at hgone
      cases hgone
  · rintro ⟨pre, mid, o, rfl, ⟨e, he, hdead⟩, hkept⟩
    obtain ⟨m, htidy, hk, hslot, ho, hmid⟩ := run.since
    refine ⟨o, (hk.slot_run htidy hmid).mpr ⟨hslot, hkept⟩, ?_⟩
    rw [Bool.eq_false_iff, ne_eq, alive_eq_true, hmid.mem_living hk.made]
    exact fun hliving => hliving.2 e he hdead

/-- No key is pruned twice. -/
theorem nodup_prune (a : SubjectArena) (alive : ObjectRef → Bool) : (a.prune alive).2.Nodup :=
  (Slots.nodup_entries a.slots).sublist (List.filter_sublist.map _)

end Histories

/-- **The keys of subjects are identities.**  Whatever happened to the objects and was asked of the
arena: the keys by address are the addresses by key; two keys handed out are the same if and only if
they are of the same object and the arena was not cleared in between; a key is answered with the
object that it was handed out for until it ends, and with nothing ever after; and the keys that are
pruned are those whose objects died. -/
theorem subject_keys_are_identities {past : History} {h : Habitat} (run : Run empty past h) :
    (∀ addr key, Assoc.get? addr h.arena.byAddress = some key ↔
      ∃ o, h.arena.slots.get? key = some o ∧ o.address = addr) ∧
    (∀ (pre mid post : History) o o' key key',
      past = pre ++ (.intern o, .key key) :: mid ++ (.intern o', .key key') :: post →
      (key = key' ↔ o = o' ∧ ∀ e ∈ mid, e.1 ≠ .clear)) ∧
    (∀ (pre mid post : History) o key r,
      past = pre ++ (.intern o, .key key) :: mid ++ (.get key, .object r) :: post →
      r = some o ∧ (∀ e ∈ mid, ¬ Ends o key e) ∨ r = none ∧ ∃ e ∈ mid, Ends o key e) ∧
    (∀ (pre mid post : History) o key b,
      past = pre ++ (.intern o, .key key) :: mid ++ (.isAlive key, .truth b) :: post →
      (b = true ↔ ∀ e ∈ mid, ¬ Ends o key e)) ∧
    (∀ (pre mid post : History) o key o' r,
      past = pre ++ (.intern o, .key key) :: mid ++ (.find o', .found r) :: post →
      (r = some key ↔ o' = o ∧ ∀ e ∈ mid, ¬ Ends o key e)) ∧
    ∀ (pre post : History) keys, past = pre ++ (.prune, .keys keys) :: post →
      keys.Nodup ∧ ∀ key, key ∈ keys ↔ ∃ (before since : History) (o : ObjectRef),
        pre = before ++ (.intern o, .key key) :: since ∧
          (∃ e ∈ since, e.1 = .destroy o) ∧ ∀ e ∈ since, ¬ Forgets key e := by
  refine ⟨(Tidy.of_empty.run run).exact.known, ?_, ?_, ?_, ?_, ?_⟩
  · rintro pre mid post o o' key key' rfl
    exact run.key_eq_iff
  · rintro pre mid post o key r rfl
    obtain ⟨m, hpast, -, -, hanswer, -⟩ := run.moment
    obtain rfl : m.arena.get? m.alive key = r := Answer.object.inj hanswer
    exact hpast.resolves
  · rintro pre mid post o key b rfl
    obtain ⟨m, hpast, -, -, hanswer, -⟩ := run.moment
    obtain rfl : (m.arena.get? m.alive key).isSome = b := Answer.truth.inj hanswer
    rcases hpast.resolves with ⟨hget, hends⟩ | ⟨hget, e, he, hends⟩
    · simpa [hget] using hends
    · simpa [hget] using ⟨e.1, e.2, he, hends⟩
  · rintro pre mid post o key o' r rfl
    obtain ⟨m, hpast, htidy, ho', hanswer, -⟩ := run.moment
    obtain rfl : m.arena.find? m.alive o' = r := Answer.found.inj hanswer
    have hfind : m.arena.find? m.alive o' = some key ↔ m.arena.get? m.alive key = some o' := by
      rw [htidy.find?_eq_some_iff ho', get?_eq_some_iff]
      exact (and_iff_left ho').symm
    rw [hfind]
    rcases hpast.resolves with ⟨hget, hends⟩ | ⟨hget, e, he, hends⟩
    · rw [hget, Option.some.injEq, eq_comm, and_iff_left hends]
    · rw [hget]
      exact ⟨nofun, fun hkept => absurd hends (hkept.2 e he)⟩
  · rintro pre post keys rfl
    obtain ⟨m, hpast, -, -, hanswer, -⟩ := run.moment
    obtain rfl : (m.arena.prune m.alive).2 = keys := Answer.keys.inj hanswer
    exact ⟨nodup_prune _ _, fun key => hpast.mem_prune_iff⟩

/-- Two objects at one address, one after the other. -/
def firstTenant : ObjectRef := ⟨0, 0, "first", "Thing"⟩
def secondTenant : ObjectRef := ⟨1, 0, "second", "Thing"⟩

/-- The first object dies and is pruned, and the second one takes over its address. -/
def takeover : History :=
  [(.destroy firstTenant, .nothing), (.prune, .keys [⟨0, 0⟩]), (.create secondTenant, .nothing)]

def succession : History :=
  (.create firstTenant, .nothing) :: (.intern firstTenant, .key ⟨0, 0⟩) :: takeover ++
    [(.intern secondTenant, .key ⟨0, 1⟩), (.get ⟨0, 0⟩, .object none)]

theorem subject_keys_are_identities_succession :
    ∃ h, Run empty succession h ∧ (∃ o, h.arena.slots.get? ⟨0, 1⟩ = some o ∧ o.address = 0) ∧
      ((⟨0, 0⟩ : SlotKey) = ⟨0, 1⟩ ↔ firstTenant = secondTenant ∧ ∀ e ∈ takeover, e.1 ≠ .clear) ∧
      ∃ e ∈ takeover ++ [(.intern secondTenant, .key ⟨0, 1⟩)], Ends firstTenant ⟨0, 0⟩ e := by
  have run : Run empty succession _ :=
    .next (by decide) <| .next (by decide) <| .next (by decide) <| .next (by decide) <|
      .next (by decide) <| .next (by decide) <| .next (by decide) <| .done _
  obtain ⟨hknown, hkeys, hget, -, -, -⟩ := subject_keys_are_identities run
  refine ⟨_, run, (hknown 0 ⟨0, 1⟩).mp rfl, ?_, ?_⟩
  · exact hkeys [(.create firstTenant, .nothing)] takeover _ _ _ ⟨0, 0⟩ ⟨0, 1⟩ rfl
  · have hends := hget [(.create firstTenant, .nothing)]
      (takeover ++ [(.intern secondTenant, .key ⟨0, 1⟩)]) [] firstTenant ⟨0, 0⟩ none rfl
    exact (hends.resolve_left nofun).2

end Habitat
end TrackedExpr
