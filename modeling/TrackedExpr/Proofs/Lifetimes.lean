import Mathlib
import TrackedExpr.Session.Lifetime

/-!
# What is held exists

A binding that is held keeps its channel, its policies and the subscriptions of
their listeners, and an object that something holds on to exists.

**Definitions.**
* `Session.HasObject`, `Session.Present`: the objects of a session, and those that exist;
* `Session.Numbered`: every object is kept under its number.

**Results.**
* `Session.channelAlive_of_binding`, `Session.policyAlive_of_binding`: what a binding
  keeps;
* `Session.mem_heldSubscriptions`, `Session.heldSubscriptions_cases`: what a policy keeps;
* `Session.objectAlive_of_pinned`: an object in a value that is held on to exists;
* `Session.Numbered.gone`: an object that is gone does not come back.
-/

namespace TrackedExpr

namespace Value

theorem mem_itemObjects {o : ObjectRef} {vs : List Value} :
    o ∈ itemObjects vs ↔ ∃ v ∈ vs, o ∈ v.objects := by
  induction vs with
  | nil => simp [itemObjects]
  | cons v vs ih => simp [itemObjects, ih]

end Value

namespace Session

/-- The objects of a session, as it refers to them. -/
def HasObject (w : Session) (o : ObjectRef) : Prop := ∃ cell, w.object? o = some cell ∧ cell.ref = o

/-- The objects that exist. -/
def Present (w : Session) (o : ObjectRef) : Prop := w.HasObject o ∧ w.objectAlive o = true

variable {w : Session} {b p : Nat} {B : Binding} {P : Policy}

section Holders

theorem bindingAlive_of_named (h : ∃ e ∈ w.names.bindings, e.2 = b) :
    w.bindingAlive b = true := by
  obtain ⟨e, he, rfl⟩ := h
  simp only [bindingAlive, Bool.or_eq_true, List.any_eq_true, decide_eq_true_eq]
  exact Or.inl ⟨e, he, rfl⟩

theorem bindingAlive_of_pinned (pins : List Pin) (h : w.bindingAlive b = true) :
    bindingAlive { w with pins := pins ++ w.pins } b = true := by
  simp only [bindingAlive, Bool.or_eq_true, decide_eq_true_eq, List.filterMap_append,
    List.mem_append] at h ⊢
  exact h.imp_right Or.inr

theorem mem_liveBindings (hb : w.bindings[b]? = some B) (halive : w.bindingAlive b = true) :
    B ∈ w.liveBindings := by
  rw [liveBindings, List.mem_map]
  refine ⟨(B, b), ?_, rfl⟩
  rw [List.mem_filter]
  exact ⟨List.mem_zipIdx_iff_getElem?.mpr hb, halive⟩

theorem channelAlive_of_binding (h : B ∈ w.liveBindings) : w.channelAlive B.channel = true := by
  simp only [channelAlive, Bool.or_eq_true, List.any_eq_true, decide_eq_true_eq]
  exact Or.inr ⟨B, h, rfl⟩

theorem policyAlive_of_binding (h : B ∈ w.liveBindings) (hp : p ∈ B.policies) :
    w.policyAlive p = true := by
  simp only [policyAlive, Bool.or_eq_true, List.any_eq_true, decide_eq_true_eq]
  exact Or.inr ⟨B, h, hp⟩

theorem mem_livePolicies (hp : w.policies[p]? = some P) (halive : w.policyAlive p = true) :
    P ∈ w.livePolicies := by
  rw [livePolicies, List.mem_map]
  refine ⟨(P, p), ?_, rfl⟩
  rw [List.mem_filter]
  exact ⟨List.mem_zipIdx_iff_getElem?.mpr hp, halive⟩

theorem mem_heldSubscriptions {s : Nat} (h : P ∈ w.livePolicies)
    (hs : s ∈ P.registry.subscriptions) : s ∈ w.heldSubscriptions := by
  rw [heldSubscriptions]
  exact List.mem_append_right _ (List.mem_flatMap.mpr ⟨P, h, hs⟩)

/-- What is held while no reaction runs, a name or a policy holds. -/
theorem heldSubscriptions_cases {s : Nat} (h : s ∈ w.heldSubscriptions)
    (hpins : ∀ pin ∈ w.pins, pin.subscription? = none) :
    s ∈ w.names.subscriptions.map Prod.snd ++ w.names.handles.map Prod.snd ∨
      ∃ (p : Nat) (P : Policy), w.policies[p]? = some P ∧ s ∈ P.registry.subscriptions := by
  rw [heldSubscriptions, List.mem_append, List.mem_append, List.mem_flatMap] at h
  rcases h with (hnamed | hpinned) | ⟨P, hP, hs⟩
  · exact Or.inl hnamed
  · obtain ⟨pin, hpin, hsome⟩ := List.mem_filterMap.mp hpinned
    rw [hpins pin hpin] at hsome
    cases hsome
  · rw [livePolicies, List.mem_map] at hP
    obtain ⟨⟨P', p⟩, hmem, rfl⟩ := hP
    exact Or.inr ⟨p, P', List.mem_zipIdx_iff_getElem?.mp (List.mem_filter.mp hmem).1, hs⟩

end Holders

section Objects

variable {cell : ObjectCell}

/-- What a root refers to is never left out. -/
theorem mem_settle {roots : List Nat} (hroot : cell.ref.id ∈ roots) (rounds : Nat) :
    ∀ {cells : List ObjectCell}, cell ∈ cells → cell ∈ settle roots rounds cells := by
  induction rounds with
  | zero => exact fun h => h
  | succ rounds ih =>
      intro cells h
      rw [settle]
      split
      · exact h
      · apply ih
        rw [supported, List.mem_filter]
        exact ⟨h, by simp [hroot]⟩

theorem mem_liveObjects {o : ObjectRef} {v : Value} (hpin : .value v ∈ w.pins)
    (ho : o ∈ v.objects) (hcell : w.objects[o.id]? = some cell) (hid : cell.ref.id = o.id) :
    o.id ∈ w.liveObjects := by
  have hvalue : v ∈ w.rootValues := by
    have hpinned : v ∈ w.pins.filterMap Pin.value? := List.mem_filterMap.mpr ⟨_, hpin, rfl⟩
    simp only [rootValues, List.mem_append]
    exact Or.inl (Or.inl (Or.inl (Or.inr hpinned)))
  have hroot : cell.ref.id ∈ referred w.rootValues := by
    rw [hid, referred, List.mem_map]
    exact ⟨o, Value.mem_itemObjects.mpr ⟨v, hvalue, ho⟩, rfl⟩
  rw [liveObjects, List.mem_map]
  exact ⟨cell, mem_settle hroot _ (List.mem_of_getElem? hcell), hid⟩

/-- An object in a value that is held on to exists. -/
theorem objectAlive_of_pinned {o : ObjectRef} {v : Value} (hpin : .value v ∈ w.pins)
    (ho : o ∈ v.objects) (hcell : w.objects[o.id]? = some cell) (hid : cell.ref.id = o.id) :
    ∀ o', o'.id = o.id → w.objectAlive o' = true := by
  intro o' ho'
  have hlive := mem_liveObjects hpin ho hcell hid
  rw [← ho'] at hlive
  simpa [objectAlive] using hlive

theorem objectAlive_iff {o : ObjectRef} : w.objectAlive o = true ↔ o.id ∈ w.liveObjects := by
  simp [objectAlive]

end Objects

section Gone

variable {roots : List Nat} {cells : List ObjectCell} {cell : ObjectCell}

/-- Whether a root or one of some objects refers to an object. -/
def Referenced (roots : List Nat) (cells : List ObjectCell) (cell : ObjectCell) : Prop :=
  cell.ref.id ∈ roots ∨ ∃ holder ∈ cells, cell.ref.id ∈ holder.referred

theorem mem_supported :
    cell ∈ supported roots cells ↔ cell ∈ cells ∧ Referenced roots cells cell := by
  simp [supported, Referenced, List.mem_filter]

/-- Nothing is left out in the end that some object left refers to, given enough rounds. -/
theorem supported_settle (roots : List Nat) : ∀ {rounds : Nat} {cells : List ObjectCell},
    cells.length ≤ rounds →
      ∀ cell ∈ settle roots rounds cells, Referenced roots (settle roots rounds cells) cell
  | 0, cells, hlength, cell, hcell => by
      obtain rfl : cells = [] := List.length_eq_zero_iff.mp (Nat.le_zero.mp hlength)
      cases hcell
  | rounds + 1, cells, hlength, cell, hcell => by
      rw [settle] at hcell ⊢
      split at hcell
      · next hall =>
          rw [if_pos hall]
          have hsame : supported roots cells = cells := List.filter_sublist.eq_of_length hall
          rw [← hsame] at hcell
          exact (mem_supported.mp hcell).2
      · next hfewer =>
          rw [if_neg hfewer]
          have hle : (supported roots cells).length ≤ cells.length := List.length_filter_le _ _
          exact supported_settle roots (by omega) cell hcell

theorem settle_subset (roots : List Nat) : ∀ {rounds : Nat} {cells : List ObjectCell},
    cell ∈ settle roots rounds cells → cell ∈ cells
  | 0, _, h => h
  | rounds + 1, cells, h => by
      rw [settle] at h
      split at h
      · exact h
      · exact (mem_supported.mp (settle_subset roots h)).1

/-- Objects that roots or others of them refer to are never left out. -/
theorem mem_settle_of_closed (kept : ObjectCell → Prop) (rounds : Nat) :
    ∀ {cells : List ObjectCell}, (∀ cell ∈ cells, kept cell → cell.ref.id ∈ roots ∨
        ∃ holder ∈ cells, kept holder ∧ cell.ref.id ∈ holder.referred) →
      cell ∈ cells → kept cell → cell ∈ settle roots rounds cells := by
  induction rounds with
  | zero => exact fun _ hcell _ => hcell
  | succ rounds ih =>
      intro cells hclosed hcell hkept
      have hstay : ∀ c ∈ cells, kept c → c ∈ supported roots cells := by
        intro c hc hc'
        refine mem_supported.mpr ⟨hc, ?_⟩
        rcases hclosed c hc hc' with hroot | ⟨holder, hholder, -, hrefers⟩
        · exact Or.inl hroot
        · exact Or.inr ⟨holder, hholder, hrefers⟩
      rw [settle]
      split
      · exact hcell
      · apply ih _ (hstay cell hcell hkept) hkept
        intro c hc hc'
        rcases hclosed c (mem_supported.mp hc).1 hc' with hroot | ⟨holder, hholder, hk, hrefers⟩
        · exact Or.inl hroot
        · exact Or.inr ⟨holder, hstay holder hholder hk, hk, hrefers⟩

/-- The objects of a session under their numbers. -/
def Numbered (w : Session) : Prop :=
  ∀ (i : Nat) (cell : ObjectCell), w.objects[i]? = some cell → cell.ref.id = i

theorem Numbered.mem_liveObjects_iff (h : Numbered w) {i : Nat} : i ∈ w.liveObjects ↔
    ∃ cell ∈ settle (referred w.rootValues) w.objects.length w.objects,
      w.objects[i]? = some cell ∧ cell.ref.id = i := by
  rw [liveObjects, List.mem_map]
  constructor
  · rintro ⟨cell, hcell, rfl⟩
    refine ⟨cell, hcell, ?_, rfl⟩
    obtain ⟨j, hj⟩ := List.getElem?_of_mem (settle_subset _ hcell)
    rw [h j cell hj, hj]
  · rintro ⟨cell, hcell, -, hid⟩
    exact ⟨cell, hcell, hid⟩

/-- An object that exists is referred to by a root or by an object that exists. -/
theorem Numbered.referenced (h : Numbered w) {i : Nat} (hi : i ∈ w.liveObjects) :
    i ∈ referred w.rootValues ∨
      ∃ j ∈ w.liveObjects, ∃ holder, w.objects[j]? = some holder ∧ i ∈ holder.referred := by
  obtain ⟨cell, hcell, -, rfl⟩ := h.mem_liveObjects_iff.mp hi
  rcases supported_settle _ (Nat.le_refl _) cell hcell with hroot | ⟨holder, hholder, hrefers⟩
  · exact Or.inl hroot
  · obtain ⟨j, hj⟩ := List.getElem?_of_mem (settle_subset _ hholder)
    exact Or.inr ⟨j, h.mem_liveObjects_iff.mpr ⟨holder, hholder, hj, h j holder hj⟩, holder, hj,
      hrefers⟩

/-- **What is gone stays gone**, as long as new references are only made to objects that exist. -/
theorem Numbered.gone (h : Numbered w) {w' : Session} (h' : Numbered w')
    (hroots : ∀ i ∈ referred w'.rootValues, i < w.objects.length → i ∈ w.liveObjects)
    (hcells : ∀ (j : Nat) (holder' : ObjectCell), w'.objects[j]? = some holder' →
      ∀ i ∈ holder'.referred, i < w.objects.length → i ∈ w.liveObjects ∨
        ∃ holder, w.objects[j]? = some holder ∧ i ∈ holder.referred) :
    ∀ i ∈ w'.liveObjects, i < w.objects.length → i ∈ w.liveObjects := by
  intro i hi hlt
  let kept : ObjectCell → Prop := fun c => c.ref.id ∈ w'.liveObjects ∨ c.ref.id ∈ w.liveObjects
  have hlive : ∀ k ∈ w.liveObjects, k ∈ referred w.rootValues ∨
      ∃ holder ∈ w.objects, kept holder ∧ k ∈ holder.referred := by
    intro k hk
    rcases h.referenced hk with hroot | ⟨j, hj, holder, hholder, hrefers⟩
    · exact Or.inl hroot
    · exact Or.inr ⟨holder, List.mem_of_getElem? hholder,
        Or.inr (by rwa [h j holder hholder]), hrefers⟩
  have hclosed : ∀ c ∈ w.objects, kept c → c.ref.id ∈ referred w.rootValues ∨
      ∃ holder ∈ w.objects, kept holder ∧ c.ref.id ∈ holder.referred := by
    rintro c hc (hnew | hold)
    · obtain ⟨k, hk⟩ := List.getElem?_of_mem hc
      have hbound : c.ref.id < w.objects.length := by
        rw [h k c hk]
        exact (List.getElem?_eq_some_iff.mp hk).1
      rcases h'.referenced hnew with hroot | ⟨j, hj, holder', hholder', hrefers⟩
      · exact hlive _ (hroots _ hroot hbound)
      · rcases hcells j holder' hholder' _ hrefers hbound with hexists | ⟨holder, hholder, href⟩
        · exact hlive _ hexists
        · exact Or.inr ⟨holder, List.mem_of_getElem? hholder,
            Or.inl (by rwa [h j holder hholder]), href⟩
    · exact hlive _ hold
  obtain ⟨cell, hcell⟩ : ∃ cell, w.objects[i]? = some cell :=
    ⟨_, List.getElem?_eq_getElem hlt⟩
  have hid := h i cell hcell
  refine h.mem_liveObjects_iff.mpr ⟨cell, ?_, hcell, hid⟩
  exact mem_settle_of_closed kept _ hclosed (List.mem_of_getElem? hcell)
    (Or.inl (by rwa [hid]))

end Gone

end Session
end TrackedExpr
