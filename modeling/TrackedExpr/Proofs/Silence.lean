import TrackedExpr.Proofs.Accesses
import TrackedExpr.Proofs.Changes
import TrackedExpr.Session.Perform

/-!
# Assignments that nobody is told of

An assignment that reports no change puts a value in the place of an equal one.  To
expressions equal values are the same thing, except that an integer equals the float
nearest to it and zero equals its negative, and that a missing attribute counts as
`None` when values are compared but not when it is loaded.

**Definitions.**
* `Value.FloatsAgree`: values with the very same floats;
* `Frame.DefaultsToNone`: a call of `getattr` to which a missing attribute is `None`;
* `Session.framesOf`: the frames that an evaluation goes through.

**Results.**
* `Value.eq_of_same`: equal values whose floats agree are the same value;
* `Host.run_eq_of_steps`: runs without native calls agree if their steps do;
* `unreported_assignment_unseen`: evaluations give the same before and after an assignment that
  reports nothing, unless they read what it hides;
* `unreported_assignment_seen`: why a missing attribute has to be excepted.
-/

namespace TrackedExpr

universe u

section Equality

mutual

/-- Values that have the very same floats at the same places. -/
def Value.FloatsAgree : Value → Value → Prop
  | .float x, .float y => x = y
  | .int _, .float _ | .float _, .int _ => False
  | .tuple as, .tuple bs => Value.ItemsAgree as bs
  | _, _ => True

/-- Lists of such values, as far as both go. -/
def Value.ItemsAgree : List Value → List Value → Prop
  | a :: as, b :: bs => a.FloatsAgree b ∧ Value.ItemsAgree as bs
  | _, _ => True

end

/-- References of a kind that are told apart by their identity. -/
structure ToldApart (objects : ObjectRef → Prop) (natives : NativeRef → Prop) : Prop where
  objects : ∀ o p, objects o → objects p → o.id = p.id → o = p
  natives : ∀ f g, natives f → natives g → f.id = g.id → f = g

variable {objects : ObjectRef → Prop} {natives : NativeRef → Prop}

mutual

/-- Equal values whose floats agree are the same value. -/
theorem Value.eq_of_same (h : ToldApart objects natives) :
    ∀ {a b : Value}, a.Among objects natives → b.Among objects natives →
      a.FloatsAgree b → a.same b = true → a = b
  | .none, b, _, _, _, hsame => by
      cases b with
      | none => rfl
      | _ => cases hsame
  | .bool x, b, _, _, _, hsame => by
      cases b with
      | bool y => rw [eq_of_beq (a := x) (b := y) hsame]
      | _ => cases hsame
  | .int x, b, _, _, hfloats, hsame => by
      cases b with
      | int y => rw [eq_of_beq (a := x) (b := y) hsame]
      | float y => exact hfloats.elim
      | _ => cases hsame
  | .float x, b, _, _, hfloats, hsame => by
      cases b with
      | float y => rw [show x = y from hfloats]
      | int y => exact hfloats.elim
      | _ => cases hsame
  | .str x, b, _, _, _, hsame => by
      cases b with
      | str y => rw [eq_of_beq (a := x) (b := y) hsame]
      | _ => cases hsame
  | .tuple as, b, ha, hb, hfloats, hsame => by
      cases b with
      | tuple bs => rw [Value.eq_of_sameItems h ha hb hfloats hsame]
      | _ => cases hsame
  | .object o, b, ha, hb, _, hsame => by
      cases b with
      | object p => rw [h.objects o p ha hb (eq_of_beq hsame)]
      | _ => cases hsame
  | .builtin x, b, _, _, _, hsame => by
      cases b with
      | builtin y => rw [eq_of_beq (a := x) (b := y) hsame]
      | _ => cases hsame
  | .native f, b, ha, hb, _, hsame => by
      cases b with
      | native g => rw [h.natives f g ha hb (eq_of_beq hsame)]
      | _ => cases hsame

theorem Value.eq_of_sameItems (h : ToldApart objects natives) : ∀ {as bs : List Value},
    Value.AllAmong objects natives as → Value.AllAmong objects natives bs →
      Value.ItemsAgree as bs → Value.sameItems as bs = true → as = bs
  | [], bs, _, _, _, hsame => by
      cases bs with
      | nil => rfl
      | cons b bs => cases hsame
  | a :: as, bs, ha, hb, hfloats, hsame => by
      cases bs with
      | nil => cases hsame
      | cons b bs =>
          rw [Value.sameItems, Bool.and_eq_true] at hsame
          rw [Value.eq_of_same h ha.1 hb.1 hfloats.1 hsame.1,
            Value.eq_of_sameItems h ha.2 hb.2 hfloats.2 hsame.2]

end

end Equality

section Defaults

variable {c : Code} {read read' : AttributeReader} {f : Frame}

/-- The next step calls `getattr` with `None` in place of a missing attribute. -/
def Frame.DefaultsToNone (c : Code) (f : Frame) : Prop :=
  ∃ target name, f.pendingCall? c = some ⟨.builtin .getattr, [target, .str name, .none], []⟩

/-- With a default there is always an answer. -/
theorem getattr_of_default (read : AttributeReader) (o : ObjectRef) (name : String)
    (default : Value) : getattr read [.object o, .str name, default]
      = .ok ((read o name).getD default) := by
  unfold getattr
  simp only [getattrRequest, loadAttr]
  cases read o name <;> rfl

theorem getattr_of_no_object (read : AttributeReader) {target : Value}
    (htarget : target.asObject? = none) (name : String) (default : Value) :
    getattr read [target, .str name, default] = .ok default := by
  unfold getattr
  simp only [getattrRequest, loadAttr]
  cases target with
  | object o => cases htarget
  | _ => rfl

/-- A step to which a missing attribute is `None` depends on the attribute with that default. -/
theorem Frame.step_congr_of_default (scope : Scope) (hdefaults : f.DefaultsToNone c)
    (h : ∀ o a, f.access? c = some (o, a) → (read o a).getD .none = (read' o a).getD .none) :
    f.step read c scope = f.step read' c scope := by
  obtain ⟨target, name, hpending⟩ := hdefaults
  unfold step
  unfold pendingCall? at hpending
  unfold access? at h
  cases hop : c.instructions[f.pc]? with
  | none => rfl
  | some op =>
      rw [hop] at hpending h
      rw [Option.bind_some] at h
      cases op with
      | call form operand =>
          dsimp only at hpending
          obtain ⟨below, hcall⟩ := @call?_of_report (f.pc + 1) _ _ _ _ hpending
          simp only [Instruction.access?, hpending, Option.bind_some] at h
          have hanswer : getattr read [target, .str name, .none]
              = getattr read' [target, .str name, .none] := by
            cases target with
            | object o => rw [getattr_of_default, getattr_of_default, h o name rfl]
            | _ => rw [getattr_of_no_object read rfl, getattr_of_no_object read' rfl]
          simp only [execute?, hcall, invoke, Builtin.call, hanswer]
      | _ => cases hpending

end Defaults

/-- Runs agree if they call nothing native and take the same steps. -/
theorem Host.run_eq_of_steps {σ : Type u} {host : Host σ} {c : Code} {scope : Scope} {s t : σ} :
    ∀ (n : Nat) {f : Frame}, (∀ g ∈ host.visited c scope n f s,
      (g.step (host.read s) c scope).native? = none ∧
        g.step (host.read s) c scope = g.step (host.read t) c scope) →
      (host.run c scope n f t).outcome = (host.run c scope n f s).outcome
  | 0, _, _ => rfl
  | n + 1, f, h => by
      rw [visited] at h
      obtain ⟨⟨hnative, hstep⟩, hrest⟩ := List.forall_mem_cons.mp h
      rw [run_succ, run_succ]
      unfold turn at hrest ⊢
      rw [← hstep]
      cases hprogress : f.step (host.read s) c scope with
      | running g =>
          rw [hprogress] at hrest
          exact run_eq_of_steps n hrest
      | calling call g =>
          rw [hprogress] at hnative
          cases hnative
      | finished v => rfl
      | failed e => rfl

namespace Session

/-- The frames that an evaluation of code goes through. -/
def framesOf (re : Reentry) (c : Code) (scope : Scope) (limit : Nat) (w : Session) : List Frame :=
  (host re).visited c scope limit Frame.start
    { w with pins := pinValues (scope.map Prod.snd ++ c.constants) ++ w.pins }

section Unseen

variable {re : Reentry} {w : Session} {o : ObjectRef} {schema : Schema} {attr : String} {v : Value}
  {c : Code} {scope : Scope}

theorem toldApart_hasObject (w : Session) (names : Nat → String) :
    ToldApart w.HasObject fun f => f.name = names f.id where
  objects := by
    rintro o p ⟨cell, hcell, rfl⟩ ⟨cell', hcell', rfl⟩ hid
    rw [object?] at hcell hcell'
    rw [hid, hcell'] at hcell
    rw [Option.some.inj hcell]
  natives := by
    rintro ⟨i, name⟩ ⟨j, name'⟩ hf hg rfl
    obtain rfl : name = names i := hf
    obtain rfl : name' = names i := hg
    rfl

theorem object?_ne_none_of_schema? (h : w.schema? o = some schema) : w.object? o ≠ none := by
  intro hnone
  rw [schema?, hnone] at h
  cases h

theorem accepts_of_observable (h : schema.describe attr = .observable) :
    schema.accepts attr = true := by
  unfold Schema.describe at h
  unfold Schema.accepts
  cases hget : Assoc.get? attr schema.declared with
  | none =>
      rw [hget] at h
      dsimp only at h
      split at h <;> cases h
  | some b => simp

/-- An assignment that is accepted and reports nothing puts an equal value in place. -/
theorem assign_of_silent (re : Reentry) (hobservable : schema.describe attr = .observable)
    (hsilent : ¬ w.Reports o schema attr v) :
    w.assign re o schema attr v = (w.putAt o attr v, .ok ()) ∧
      ((w.attribute? o attr).getD .none).same v = true := by
  have haccepts := accepts_of_observable hobservable
  have hsame : ((w.attribute? o attr).getD .none).same v = true := by
    rw [← Bool.not_eq_false]
    exact fun hdiffers => hsilent ⟨haccepts, hobservable, hdiffers⟩
  refine ⟨?_, hsame⟩
  unfold assign
  simp only [haccepts, hobservable, hsame]
  rfl

/-- **An assignment that reports nothing is not seen**: it is accepted, and code that calls nothing
native gives the same before and after it.  Excepted is code that reads the attribute itself, if
this was missing before and `None` is not the default, or if the new value has a float where the
old one has another float or an integer, or the other way round. -/
theorem unreported_assignment_unseen (names : Nat → String) {limit : Nat}
    (hschema : w.schema? o = some schema) (hobservable : schema.describe attr = .observable)
    (hold : ∀ u, w.attribute? o attr = some u → u.Among w.HasObject fun f => f.name = names f.id)
    (hv : v.Among w.HasObject fun f => f.name = names f.id)
    (hsilent : ¬ w.Reports o schema attr v)
    (hnatives : ∀ f ∈ w.framesOf re c scope limit, (f.step w.attribute? c scope).native? = none)
    (hreads : ∀ f ∈ w.framesOf re c scope limit, ∀ x, f.access? c = some (x, attr) → x.id = o.id →
      (w.attribute? o attr ≠ none ∨ f.DefaultsToNone c) ∧
        ((w.attribute? o attr).getD .none).FloatsAgree v) :
    (w.assign re o schema attr v).2 = .ok () ∧
      ((w.assign re o schema attr v).1.execute re c scope limit).outcome
        = (w.execute re c scope limit).outcome := by
  obtain ⟨hassign, hsame⟩ := assign_of_silent re hobservable hsilent
  have hplace := object?_ne_none_of_schema? hschema
  rw [hassign]
  refine ⟨rfl, ?_⟩
  apply Host.run_eq_of_steps
  intro f hf
  refine ⟨hnatives f hf, ?_⟩
  by_cases hreading : ∃ x, f.access? c = some (x, attr) ∧ x.id = o.id
  · obtain ⟨x, hx, hid⟩ := hreading
    obtain ⟨hpresent, hfloats⟩ := hreads f hf x hx hid
    have hmade : ((w.attribute? o attr).getD .none).Among w.HasObject
        fun f => f.name = names f.id := by
      cases hu : w.attribute? o attr with
      | none => trivial
      | some u => exact hold u hu
    have heq := Value.eq_of_same (toldApart_hasObject w names) hmade hv hfloats hsame
    have hafter : (w.putAt o attr v).attribute? x attr = some v :=
      attribute?_putAt_self hid hplace
    have hbefore : w.attribute? x attr = w.attribute? o attr := by
      rw [attribute?, attribute?, object?, object?, hid]
    rcases hpresent with hpresent | hdefaults
    · obtain ⟨u, hu⟩ := Option.ne_none_iff_exists'.mp hpresent
      apply Frame.step_congr
      intro y a hy
      obtain ⟨rfl, rfl⟩ := Prod.mk.inj (Option.some.inj (hx.symm.trans hy))
      rw [hu] at heq
      exact (hbefore.trans hu).trans ((congrArg some heq).trans hafter.symm)
    · apply Frame.step_congr_of_default scope hdefaults
      intro y a hy
      obtain ⟨rfl, rfl⟩ := Prod.mk.inj (Option.some.inj (hx.symm.trans hy))
      show (w.attribute? x attr).getD .none = ((w.putAt o attr v).attribute? x attr).getD .none
      rw [hbefore, hafter, heq]
      rfl
  · apply Frame.step_congr
    intro x a hx
    refine (attribute?_putAt_ne ?_).symm
    rw [← not_and_or]
    rintro ⟨hid, rfl⟩
    exact hreading ⟨x, hx, hid⟩

end Unseen

section Tags

/-- The object of the examples, which declares `tag` observable. -/
def parcel : ObjectRef := ⟨0, 0, "p", "Parcel"⟩

def parcelSchema : Schema := (Schema.empty "Parcel").observable "tag"

/-- A tag that holds the object itself. -/
def parcelTag : Value := .tuple [.int 3, .object parcel]

/-- A session in which the object has a tag. -/
def taggedSession : Session where
  objects := [⟨parcel, .model parcelSchema, [("tag", parcelTag)], []⟩]
  patience := 100

/-- A session in which the object has no tag. -/
def untaggedSession : Session where
  objects := [⟨parcel, .model parcelSchema, [], []⟩]
  patience := 100

/-- The length of the object's tag. -/
def tagSize : Code := Code.ofInstructions
  [.loadName "len", .loadName "p", .loadAttr "tag", .call .plain 1, .returnValue]

/-- The object's tag. -/
def tagOnly : Code := Code.ofInstructions [.loadName "p", .loadAttr "tag", .returnValue]

theorem unreported_assignment_unseen_parcel :
    ¬ taggedSession.Reports parcel parcelSchema "tag" parcelTag ∧
      (taggedSession.assign (enter 1) parcel parcelSchema "tag" parcelTag).2 = .ok () ∧
      ((taggedSession.assign (enter 1) parcel parcelSchema "tag" parcelTag).1.execute (enter 1)
          tagSize [("p", .object parcel)] 10).outcome
        = (taggedSession.execute (enter 1) tagSize [("p", .object parcel)] 10).outcome := by
  have htag : parcelTag.Among taggedSession.HasObject fun f => f.name = (fun _ => "") f.id :=
    ⟨trivial, ⟨_, rfl, rfl⟩, trivial⟩
  have hpresent : taggedSession.attribute? parcel "tag" = some parcelTag := by cbv
  have hsilent : ¬ taggedSession.Reports parcel parcelSchema "tag" parcelTag := by
    rintro ⟨-, -, hdiffers⟩
    have hsame : ((taggedSession.attribute? parcel "tag").getD .none).same parcelTag = true := by
      cbv
    rw [hsame] at hdiffers
    cases hdiffers
  have hframes : taggedSession.framesOf (enter 1) tagSize [("p", .object parcel)] 10
      = [⟨[], 0⟩, ⟨[.builtin .len], 1⟩, ⟨[.object parcel, .builtin .len], 2⟩,
          ⟨[parcelTag, .builtin .len], 3⟩, ⟨[.int 2], 4⟩] := by cbv
  refine ⟨hsilent, unreported_assignment_unseen (fun _ => "") rfl (by cbv) ?_ htag hsilent ?_ ?_⟩
  · intro u hu
    obtain rfl := Option.some.inj (hpresent.symm.trans hu)
    exact htag
  · rw [hframes]
    simp only [List.forall_mem_cons, List.not_mem_nil, false_implies, implies_true, and_true]
    exact ⟨by cbv, by cbv, by cbv, by cbv, by cbv⟩
  · intro f _ x _ _
    rw [hpresent]
    exact ⟨Or.inl (by rintro ⟨⟩), ⟨trivial, trivial, trivial⟩⟩

/-- **A missing attribute is seen to become `None`**: the assignment reports nothing, but code that
loads the attribute fails before it and not after it. -/
theorem unreported_assignment_seen :
    untaggedSession.schema? parcel = some parcelSchema ∧
      parcelSchema.describe "tag" = .observable ∧
      ¬ untaggedSession.Reports parcel parcelSchema "tag" .none ∧
      (untaggedSession.assign (enter 1) parcel parcelSchema "tag" .none).2 = .ok () ∧
      (untaggedSession.execute (enter 1) tagOnly [("p", .object parcel)] 10).outcome
        = some (.error (.noAttribute "Parcel" "tag")) ∧
      ((untaggedSession.assign (enter 1) parcel parcelSchema "tag" .none).1.execute (enter 1)
        tagOnly [("p", .object parcel)] 10).outcome = some (.ok .none) := by
  refine ⟨rfl, by cbv, ?_, by cbv, by cbv, by cbv⟩
  rintro ⟨-, -, hdiffers⟩
  have hsame : ((untaggedSession.attribute? parcel "tag").getD .none).same .none = true := by cbv
  rw [hsame] at hdiffers
  cases hdiffers

end Tags

end Session
end TrackedExpr
