import TrackedExpr.Proofs.Lifetimes
import TrackedExpr.Session.Hookup

/-!
# How a session goes on

Between two callbacks a program may name, forget, make and change objects, and forget
channels.  Whatever it does, it can only refer to things that exist, so that neither an
object nor a channel comes back once it is gone.

**Definitions.**
* `Onward`: what one operation of a program may do to a session;
* `Lasts`: objects that are still there;
* `SameShapes`: objects that differ in attributes and observers only.

**Results.**
* `Onward.channelAlive`, `Onward.present`: what exists afterwards existed before;
* `Onward.hasObject`, `Onward.declared?`: objects stay what they are;
* `Numbered.onward`: changing attributes and observers.
-/

namespace TrackedExpr
namespace Session

/-- What one operation of a program may do: it refers to things that exist and to new objects, and
leaves the kinds of objects, the bindings, the recorders and the sinks of channels as they are. -/
structure Onward (w w' : Session) : Prop where
  names : w'.names = { w.names with objects := w'.names.objects, channels := w'.names.channels }
  pins : w'.pins = w.pins
  bindings : w'.bindings = w.bindings
  recorders : w'.recorders = w.recorders
  history : w'.policyHistory = w.policyHistory
  sinks : ∀ i : Nat, w'.channels[i]?.map Channel.sink = w.channels[i]?.map Channel.sink
  channels : ∀ e ∈ w'.names.channels, w.channelAlive e.2 = true
  values : ∀ v ∈ w'.names.objects.map (fun e => Value.object e.2) ++ w'.scope.map Prod.snd,
    ∀ o ∈ v.objects, o.id < w.objects.length → o.id ∈ w.liveObjects
  cells : ∀ (i : Nat) (cell : ObjectCell), w.objects[i]? = some cell →
    ∃ cell', w'.objects[i]? = some cell' ∧ cell'.ref = cell.ref ∧ cell'.kind = cell.kind
  attrs : ∀ (j : Nat) (holder' : ObjectCell), w'.objects[j]? = some holder' →
    ∀ i ∈ holder'.referred, i < w.objects.length → i ∈ w.liveObjects ∨
      ∃ holder, w.objects[j]? = some holder ∧ i ∈ holder.referred

/-- The objects of a session are still there, and of the same kinds. -/
def Lasts (w w' : Session) : Prop :=
  ∀ (i : Nat) (cell : ObjectCell), w.objects[i]? = some cell →
    ∃ cell', w'.objects[i]? = some cell' ∧ cell'.ref = cell.ref ∧ cell'.kind = cell.kind

/-- A value that refers to nothing but objects that exist. -/
def InHand (w : Session) (v : Value) : Prop := ∀ o ∈ v.objects, w.Present o

section Roots

variable {w w' : Session}

theorem mem_referred {vs : List Value} {i : Nat} :
    i ∈ referred vs ↔ ∃ v ∈ vs, ∃ o ∈ v.objects, o.id = i := by
  simp only [referred, List.mem_map, Value.mem_itemObjects]
  constructor
  · rintro ⟨o, ⟨v, hv, ho⟩, hid⟩
    exact ⟨v, hv, o, ho, hid⟩
  · rintro ⟨v, hv, o, ho, hid⟩
    exact ⟨o, ⟨v, hv, ho⟩, hid⟩

/-- What a root refers to exists. -/
theorem Numbered.live_of_root (h : Numbered w) {i : Nat} (hroot : i ∈ referred w.rootValues)
    (hlt : i < w.objects.length) : i ∈ w.liveObjects := by
  have hcell : w.objects[i]? = some w.objects[i] := List.getElem?_eq_getElem hlt
  have hid := h i _ hcell
  refine h.mem_liveObjects_iff.mpr ⟨_, mem_settle ?_ _ (List.mem_of_getElem? hcell), hcell, hid⟩
  rwa [hid]

theorem Onward.liveBindings (h : Onward w w') : w'.liveBindings = w.liveBindings := by
  have hnames : w'.names.bindings = w.names.bindings := by rw [h.names]
  simp only [Session.liveBindings, bindingAlive, hnames, h.pins, h.bindings]

/-- A channel that is gone does not come back. -/
theorem Onward.channelAlive (h : Onward w w') {c : Nat} (halive : w'.channelAlive c = true) :
    w.channelAlive c = true := by
  rw [Session.channelAlive, h.liveBindings, h.pins] at halive
  simp only [Bool.or_eq_true, List.any_eq_true, decide_eq_true_eq] at halive
  rcases halive with (⟨e, he, rfl⟩ | hpin) | hbinding
  · exact h.channels e he
  · simp only [Session.channelAlive, Bool.or_eq_true, decide_eq_true_eq]
    exact Or.inl (Or.inr hpin)
  · simp only [Session.channelAlive, Bool.or_eq_true, List.any_eq_true, decide_eq_true_eq]
    exact Or.inr hbinding

theorem Onward.recorderAlive (h : Onward w w') {r : Nat} (halive : w'.recorderAlive r = true) :
    w.recorderAlive r = true := by
  have hnames : w'.names.recorders = w.names.recorders := by rw [h.names]
  simp only [Session.recorderAlive, h.liveBindings, hnames, Bool.or_eq_true] at halive ⊢
  refine halive.imp_left (Or.imp_right ?_)
  simp only [List.any_eq_true, Prod.exists, List.mem_zipIdx_iff_getElem?]
  rintro ⟨channel', i, hchannel', hrecords⟩
  obtain ⟨channel, hchannel, hsink⟩ : ∃ channel, w.channels[i]? = some channel ∧
      channel.sink = channel'.sink := by
    have hi := h.sinks i
    rw [hchannel'] at hi
    obtain ⟨channel, hchannel, hsink⟩ := Option.map_eq_some_iff.mp hi.symm
    exact ⟨channel, hchannel, hsink⟩
  refine ⟨channel, i, hchannel, ?_⟩
  rw [hsink]
  split at hrecords
  · next k hk =>
      simp only [Bool.and_eq_true] at hrecords ⊢
      exact ⟨hrecords.1, h.channelAlive hrecords.2⟩
  · cases hrecords

/-- A value that a root holds afterwards was held by a root before, or is named. -/
theorem Onward.rootValues (h : Onward w w') {v : Value} (hv : v ∈ w'.rootValues) :
    v ∈ w.rootValues ∨
      v ∈ w'.names.objects.map (fun e => Value.object e.2) ++ w'.scope.map Prod.snd := by
  have htracked : w'.names.tracked = w.names.tracked := by rw [h.names]
  simp only [Session.rootValues, h.liveBindings, h.pins, htracked, List.mem_append] at hv ⊢
  rcases hv with ((((hobject | hscope) | hpin) | hbinding) | hcode) | hrecorded
  · exact Or.inr (Or.inl hobject)
  · exact Or.inr (Or.inr hscope)
  · exact Or.inl (Or.inl (Or.inl (Or.inl (Or.inr hpin))))
  · exact Or.inl (Or.inl (Or.inl (Or.inr hbinding)))
  · exact Or.inl (Or.inl (Or.inr hcode))
  · refine Or.inl (Or.inr ?_)
    rw [recordedValues, List.mem_flatMap] at hrecorded ⊢
    obtain ⟨e, he, hv⟩ := hrecorded
    rw [h.recorders, List.mem_filter] at he
    exact ⟨e, List.mem_filter.mpr ⟨he.1, h.recorderAlive he.2⟩, hv⟩

/-- An object that is gone does not come back. -/
theorem Onward.liveObjects (h : Onward w w') (hw : Numbered w) (hw' : Numbered w') :
    ∀ i ∈ w'.liveObjects, i < w.objects.length → i ∈ w.liveObjects := by
  apply hw.gone hw' _ h.attrs
  intro i hi hlt
  obtain ⟨v, hv, o, ho, rfl⟩ := mem_referred.mp hi
  rcases h.rootValues hv with hroot | hnamed
  · exact hw.live_of_root (mem_referred.mpr ⟨v, hroot, o, ho, rfl⟩) hlt
  · exact h.values v hnamed o ho hlt

end Roots

section Objects

variable {w w' w'' : Session} {o : ObjectRef}

theorem Lasts.refl (w : Session) : Lasts w w := fun _ cell hcell => ⟨cell, hcell, rfl, rfl⟩

theorem Lasts.trans (h : Lasts w w') (h' : Lasts w' w'') : Lasts w w'' := by
  intro i cell hcell
  obtain ⟨cell', hcell', href, hkind⟩ := h i cell hcell
  obtain ⟨cell'', hcell'', href', hkind'⟩ := h' i cell' hcell'
  exact ⟨cell'', hcell'', href'.trans href, hkind'.trans hkind⟩

theorem Lasts.hasObject (h : Lasts w w') (ho : w.HasObject o) : w'.HasObject o := by
  obtain ⟨cell, hcell, rfl⟩ := ho
  obtain ⟨cell', hcell', href, -⟩ := h _ cell hcell
  exact ⟨cell', hcell', href⟩

theorem Lasts.declared? (h : Lasts w w') (ho : w.HasObject o) (attr : String) :
    w'.declared? o attr = w.declared? o attr := by
  obtain ⟨cell, hcell, -⟩ := ho
  obtain ⟨cell', hcell', -, hkind⟩ := h _ cell hcell
  rw [Session.declared?, Session.declared?, hcell, show w'.object? o = some cell' from hcell',
    Option.bind_some, Option.bind_some, hkind]

theorem Onward.hasObject (h : Onward w w') (ho : w.HasObject o) : w'.HasObject o :=
  Lasts.hasObject h.cells ho

theorem Onward.present (h : Onward w w') (hw : Numbered w) (hw' : Numbered w')
    (ho : w.HasObject o) (hpresent : w'.Present o) : w.Present o := by
  refine ⟨ho, objectAlive_iff.mpr (h.liveObjects hw hw' _ (objectAlive_iff.mp hpresent.2) ?_)⟩
  obtain ⟨cell, hcell, -⟩ := ho
  exact (List.getElem?_eq_some_iff.mp hcell).1

theorem Onward.declared? (h : Onward w w') (ho : w.HasObject o) (attr : String) :
    w'.declared? o attr = w.declared? o attr :=
  Lasts.declared? h.cells ho attr

end Objects

section Building

variable {w w' : Session}

/-- What is named already exists. -/
theorem channelAlive_of_named {e : String × Nat} (he : e ∈ w.names.channels) :
    w.channelAlive e.2 = true := by
  simp only [channelAlive, Bool.or_eq_true, List.any_eq_true, decide_eq_true_eq]
  exact Or.inl (Or.inl ⟨e, he, rfl⟩)

theorem Numbered.live_of_named (h : Numbered w) : ∀ v ∈ w.names.objects.map
    (fun e => Value.object e.2) ++ w.scope.map Prod.snd,
      ∀ o ∈ v.objects, o.id < w.objects.length → o.id ∈ w.liveObjects := by
  intro v hv o ho hlt
  refine h.live_of_root (mem_referred.mpr ⟨v, ?_, o, ho, rfl⟩) hlt
  simp only [rootValues, List.mem_append] at hv ⊢
  exact Or.inl (Or.inl (Or.inl (Or.inl hv)))

/-- What an object is: its reference and its kind. -/
def ObjectCell.shape (cell : ObjectCell) : ObjectRef × ObjectKind := (cell.ref, cell.kind)

/-- The same objects under the same numbers, with other attributes and observers perhaps. -/
def SameShapes (objects objects' : List ObjectCell) : Prop :=
  ∀ i : Nat, objects'[i]?.map ObjectCell.shape = objects[i]?.map ObjectCell.shape

theorem SameShapes.refl (objects : List ObjectCell) : SameShapes objects objects := fun _ => rfl

theorem SameShapes.modify (objects : List ObjectCell) (id : Nat) {f : ObjectCell → ObjectCell}
    (hf : ∀ cell, (f cell).shape = cell.shape) : SameShapes objects (objects.modify id f) := by
  intro i
  rw [List.getElem?_modify]
  cases objects[i]? with
  | none => rfl
  | some cell => by_cases hi : id = i <;> simp [hi, hf]

theorem SameShapes.symm {objects objects' : List ObjectCell} (h : SameShapes objects objects') :
    SameShapes objects' objects := fun i => (h i).symm

/-- An object has a counterpart of the same kind. -/
theorem SameShapes.cell {objects objects' : List ObjectCell} (h : SameShapes objects objects')
    {i : Nat} {cell : ObjectCell} (hcell : objects[i]? = some cell) :
    ∃ cell', objects'[i]? = some cell' ∧ cell'.ref = cell.ref ∧ cell'.kind = cell.kind := by
  have hi := h i
  rw [hcell] at hi
  obtain ⟨cell', hcell', hshape⟩ := Option.map_eq_some_iff.mp hi
  obtain ⟨href, hkind⟩ := Prod.mk.inj hshape
  exact ⟨cell', hcell', href, hkind⟩

theorem SameShapes.numbered (h : SameShapes w.objects w'.objects) (hw : Numbered w) :
    Numbered w' := by
  intro i cell' hcell'
  obtain ⟨cell, hcell, href, -⟩ := h.symm.cell hcell'
  rw [← href]
  exact hw i cell hcell

theorem SameShapes.lasts (h : SameShapes w.objects w'.objects) : Lasts w w' :=
  fun _ _ hcell => h.cell hcell

theorem SameShapes.hasObject (h : SameShapes w.objects w'.objects) {o : ObjectRef}
    (ho : w.HasObject o) : w'.HasObject o :=
  h.lasts.hasObject ho

/-- A session in which objects have other attributes and observers goes on, as long as the
attributes refer to what exists. -/
theorem Numbered.onward (hw : Numbered w) {objects : List ObjectCell} {policies : List Policy}
    {subscriptions : Nat} {log : List LogEntry} (hshapes : SameShapes w.objects objects)
    (hattrs : ∀ (j : Nat) (holder' : ObjectCell), objects[j]? = some holder' →
      ∀ i ∈ holder'.referred, i < w.objects.length → i ∈ w.liveObjects ∨
        ∃ holder, w.objects[j]? = some holder ∧ i ∈ holder.referred) :
    Onward w { w with objects := objects, policies := policies, subscriptions := subscriptions,
                      log := log } where
  names := rfl
  pins := rfl
  bindings := rfl
  recorders := rfl
  history := rfl
  sinks := fun _ => rfl
  channels := fun _ he => channelAlive_of_named he
  values := hw.live_of_named
  cells := fun _ _ hcell => hshapes.cell hcell
  attrs := hattrs

end Building

end Session
end TrackedExpr
