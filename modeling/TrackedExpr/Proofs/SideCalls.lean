import TrackedExpr.Proofs.Coverage
import TrackedExpr.Proofs.Wiring
import TrackedExpr.Session.Evaluation

/-!
# What the side-calls of a binding do

The side-calls of a wired binding answer what their sites need.  They leave the binding
wired up, and afterwards a policy listens to the attribute that is aimed at next.

**Definitions.**
* `Wiring.Feeds`: which side-call stands in front of an instruction;
* `Session.Heeds`: some policy is tuned to an attribute;
* `Session.spotOf`: what an instruction is aimed at.

**Results.**
* `Frame.splitArguments_of_report`: a call is reported as it is made;
* `Host.mem_aims_iff`: code that makes plain calls only is aimed at what it looks up, and at what
  it would look up in calls whose keywords are not text;
* `Session.Wired.sideCall`, `Session.Wired.served`: one side-call, and all that stand in
  front of an instruction.
-/

namespace TrackedExpr

section Aiming

/-- Keyword slots that are accepted are reported as they are. -/
theorem textPairs_of_keywordSlots {slots : List Value} {kwargs : Kwargs}
    (h : keywordSlots slots = .ok kwargs) : textPairs slots = kwargs := by
  fun_induction keywordSlots slots generalizing kwargs with
  | case1 name value rest ih =>
      cases name with
      | str n =>
          simp only [keywordPair] at h
          cases hrest : keywordSlots rest with
          | error e =>
              rw [hrest] at h
              cases h
          | ok more =>
              rw [hrest] at h
              cases h
              rw [textPairs, ih hrest]
      | _ => cases h
  | case2 slots hslots =>
      cases h
      rcases slots with _ | ⟨v, _ | ⟨w, rest⟩⟩
      · rfl
      · cases v <;> rfl
      · exact absurd rfl (hslots v w rest)

/-- A plain call is reported as it is made. -/
theorem Frame.splitArguments_of_report {raw : UInt16} {stack : List Value} {r : CallReport}
    (h : Frame.callReport? .plain raw stack = some r) :
    (∃ below, stack.drop (ArgSpec.decode raw).slots = r.function :: below) ∧
      splitArguments (callSlots raw stack) (ArgSpec.decode raw) = (r.args, r.kwargs) := by
  simp only [callReport?, CallForm.operands] at h
  cases hdrop : stack.drop (ArgSpec.decode raw).slots with
  | nil => simp [hdrop] at h
  | cons function below =>
      rw [hdrop] at h
      dsimp only at h
      rw [show (stack.take (ArgSpec.decode raw).slots).reverse = callSlots raw stack from rfl] at h
      cases hnamed : keywordSlots ((callSlots raw stack).drop (ArgSpec.decode raw).positional.toNat)
        with
      | error e =>
          simp only [callArguments, hnamed] at h
          cases h
      | ok named =>
          simp only [callArguments, hnamed] at h
          cases h
          refine ⟨⟨below, rfl⟩, ?_⟩
          rw [splitArguments, textPairs_of_keywordSlots hnamed]
          exact Prod.ext (List.append_nil _).symm (List.append_nil _).symm

/-- A plain call whose keywords are text is reported. -/
theorem Frame.exists_callReport? {raw : UInt16} {stack below : List Value} {function : Value}
    (hdrop : stack.drop (ArgSpec.decode raw).slots = function :: below)
    (hbalks : (Instruction.call .plain raw).balks stack = false) :
    ∃ r, callReport? .plain raw stack = some r := by
  simp only [Instruction.balks, callSlots, Bool.not_eq_false'] at hbalks
  cases hnamed : keywordSlots
      ((stack.take (ArgSpec.decode raw).slots).reverse.drop (ArgSpec.decode raw).positional.toNat)
    with
  | error e =>
      rw [hnamed] at hbalks
      cases hbalks
  | ok named =>
      simp only [callReport?, CallForm.operands, hdrop, callArguments, hnamed]
      exact ⟨_, rfl⟩

/-- What an instruction is aimed at it looks up, unless it is a call whose keywords are not
text. -/
theorem Instruction.access?_of_aim? {op : Instruction} {stack : List Value}
    {x : ObjectRef × String} (hx : op.aim? stack = some x) (hbalks : op.balks stack = false) :
    op.access? stack = some x := by
  cases op with
  | loadAttr a =>
      cases stack with
      | nil => cases hx
      | cons v below => exact hx
  | call form raw =>
      cases form with
      | plain =>
          cases hdrop : stack.drop (ArgSpec.decode raw).slots with
          | nil => simp [aim?, hdrop] at hx
          | cons function below =>
              obtain ⟨r, hr⟩ := Frame.exists_callReport? hdrop hbalks
              obtain ⟨⟨below', hdrop'⟩, hsplit⟩ := Frame.splitArguments_of_report hr
              rw [aim?_call hdrop', hsplit] at hx
              rw [access?, hr]
              exact hx
      | _ => cases hx
  | _ => cases hx

/-- What a plain call looks up is what it is aimed at. -/
theorem Instruction.aim?_of_access? {raw : UInt16} {stack : List Value} {x : ObjectRef × String}
    (hx : (Instruction.call .plain raw).access? stack = some x) :
    (Instruction.call .plain raw).aim? stack = some x := by
  obtain ⟨r, hr, hx⟩ := Option.bind_eq_some_iff.mp hx
  obtain ⟨⟨below, hdrop⟩, hsplit⟩ := Frame.splitArguments_of_report hr
  rw [aim?_call hdrop, hsplit]
  exact hx

variable {c : Code} (hcalls : ∀ form raw, .call form raw ∈ c.instructions → form = .plain)
include hcalls

/-- Code that makes plain calls only looks up what it is aimed at. -/
theorem Frame.aim?_of_access? {f : Frame} {x : ObjectRef × String} (hx : f.access? c = some x) :
    f.aim? c = some x := by
  obtain ⟨op, hop, hx⟩ := Option.bind_eq_some_iff.mp hx
  rw [aim?_eq hop]
  cases op with
  | loadAttr a =>
      cases hstack : f.stack with
      | nil =>
          rw [hstack] at hx
          cases hx
      | cons v below =>
          rw [hstack] at hx
          exact hx
  | call form raw =>
      obtain rfl := hcalls form raw (List.mem_of_getElem? hop)
      exact Instruction.aim?_of_access? hx
  | _ => cases hx

/-- Code that makes plain calls only is aimed at what it looks up, and at what it would look up in
calls whose keywords are not text. -/
theorem Host.mem_aims_iff {σ : Type} {host : Host σ} {scope : Scope} {limit : Nat} {f : Frame}
    {s : σ} {x : ObjectRef × String} : x ∈ host.aims c scope limit f s ↔
      x ∈ host.accesses c scope limit f s ∨ x ∈ host.balked c scope limit f s := by
  simp only [aims, accesses, balked, List.mem_filterMap, List.mem_filter]
  constructor
  · rintro ⟨g, hg, hx⟩
    cases hbalks : g.balks c with
    | false =>
        obtain ⟨op, hop, hx⟩ := Option.bind_eq_some_iff.mp hx
        rw [Frame.balks, hop, Option.any_some] at hbalks
        refine Or.inl ⟨g, hg, ?_⟩
        rw [Frame.access?, hop]
        exact Instruction.access?_of_aim? hx hbalks
    | true => exact Or.inr ⟨g, ⟨hg, hbalks⟩, hx⟩
  · rintro (⟨g, hg, hx⟩ | ⟨g, ⟨hg, -⟩, hx⟩)
    · exact ⟨g, hg, Frame.aim?_of_access? hcalls hx⟩
    · exact ⟨g, hg, hx⟩

end Aiming

section Reports

theorem toUInt16_ofNat_toNat (raw : UInt16) :
    (Int64.ofNat raw.toNat).toUInt64.toUInt16 = raw := by
  have hlt := raw.toNat_lt
  apply UInt16.toNat_inj.mp
  simp [Int64.toUInt64_ofNat']

theorem mem_args_of_getattrAccess? {function target : Value} {args : List Value}
    {kwargs : Kwargs} {attr : String}
    (h : getattrAccess? function args kwargs = some (target, attr)) : target ∈ args := by
  unfold getattrAccess? at h
  split at h
  · cases h
    exact List.mem_cons_self
  · cases h
    exact List.mem_cons_self
  · cases h

end Reports

namespace Session

/-- The side-call in front of an instruction. -/
def Wiring.Feeds (k : Wiring) (ref : NativeRef) : Instruction → Prop
  | .loadAttr _ => ref = k.loads
  | .call .plain _ => ref = k.calls
  | _ => False

/-- A policy of a binding listens to an attribute of an object. -/
def Heeds (k : Wiring) (w : Session) (o : ObjectRef) (attr : String) : Prop :=
  ∃ p ∈ k.policies, Tuned k w p o.id attr

theorem Grows.heeds {k : Wiring} {spots : Nat → String → Prop} {w w' : Session}
    (h : Grows k spots w w') {o : ObjectRef}
    {attr : String} (ht : Heeds k w o attr) : Heeds k w' o attr := by
  obtain ⟨p, hp, ht⟩ := ht
  exact ⟨p, hp, h.tuned p o.id attr ht⟩

section SideCalls

/-- The attribute that an instruction is aimed at, as the only one. -/
def spotOf (op : Instruction) (stack : List Value) (id : Nat) (attr : String) : Prop :=
  ∃ o, op.aim? stack = some (o, attr) ∧ o.id = id

variable {k : Wiring} {w : Session} {ref : NativeRef} {op : Instruction} {stack : List Value}
  {call : NativeCall}

/-- The side-call of an attribute load tells its policy. -/
theorem callNative_loads {p : Nat} (hrole : w.natives[ref.id]? = some (.attributeSite (.policy p)))
    (re : Reentry) (v : Value) (a : String) (below : List Value) :
    callNative re ⟨ref, [v, .str a], [], v :: below⟩ w = ({ see re p v a
        { w with pins := pinValues (NativeCall.values ⟨ref, [v, .str a], [], v :: below⟩) ++ w.pins }
          with pins := w.pins }, .ok .none) := by
  simp only [callNative, holding, hrole]
  rfl

/-- The side-call of a call tells its policy, and puts the slots back. -/
theorem callNative_calls {p : Nat} (hrole : w.natives[ref.id]? = some (.callSite (.policy p)))
    {raw : UInt16} {function : Value} {below : List Value}
    (hdrop : stack.drop (ArgSpec.decode raw).slots = function :: below) (re : Reentry)
    (hcall : call = ⟨ref, [function, .tuple (callSlots raw stack),
      .int (Int64.ofNat raw.toNat)], [], below⟩) :
    callNative re call w = ({ tellCall re (.policy p)
        ⟨function, (splitArguments (callSlots raw stack) (ArgSpec.decode raw)).1,
          (splitArguments (callSlots raw stack) (ArgSpec.decode raw)).2⟩
        { w with pins := pinValues (NativeCall.values call) ++ w.pins } with pins := w.pins },
      .ok (siteAnswer (.call .plain raw) stack)) := by
  subst hcall
  have hside : answerCallSite [function, .tuple (callSlots raw stack),
        .int (Int64.ofNat raw.toNat)]
      = .ok (some ⟨function, (splitArguments (callSlots raw stack) (ArgSpec.decode raw)).1,
          (splitArguments (callSlots raw stack) (ArgSpec.decode raw)).2⟩,
        .tuple [.tuple (callSlots raw stack).reverse, function]) := by
    simp only [answerCallSite, toUInt16_ofNat_toNat]
  simp only [callNative, holding, hrole, answerCallSide, hside, siteAnswer, hdrop]

theorem Wired.attributeCall (h : Wired k w) {a : String}
    (hstack : ∀ v ∈ stack, v.MadeOf AtHome)
    (hcall : sideCallAt k.loads (.loadAttr a) stack = some call) (re : Reentry) :
    ∃ t, callNative re call w = (t, .ok (siteAnswer (.loadAttr a) stack)) ∧ Wired k t ∧
      Grows k (spotOf (.loadAttr a) stack) w t ∧
      ∀ o b, (Instruction.loadAttr a).aim? stack = some (o, b) →
        w.declared? o b = some .observable → Heeds k t o b := by
  cases stack with
  | nil => cases hcall
  | cons v below =>
      cases hcall
      let pins := pinValues (NativeCall.values ⟨k.loads, [v, .str a], [], v :: below⟩)
      have hv : ∀ o, v = .object o → AtHome o ∧ ∃ u, .value u ∈ pins ++ w.pins ∧ o ∈ u.objects := by
        rintro o rfl
        refine ⟨hstack (.object o) List.mem_cons_self, .object o, ?_, List.mem_singleton_self o⟩
        exact List.mem_append_left _ List.mem_cons_self
      have hpolicy : k.attributes ∈ k.policies := List.mem_cons_self
      have hspot : ∀ o, v = .object o → spotOf (.loadAttr a) (v :: below) o.id a := by
        rintro o rfl
        exact ⟨o, rfl, rfl⟩
      obtain ⟨hwired, hgrows, htuned⟩ := (h.pinned pins).see hpolicy hv hspot re
      refine ⟨_, callNative_loads h.loads re v a below, hwired.unpinned h hgrows.names,
        hgrows.unpinned, ?_⟩
      intro o b haccess hobservable
      cases objectAccess?_eq_some haccess
      exact ⟨k.attributes, hpolicy, htuned o rfl hobservable⟩

/-- The object at which a call is aimed is one of its slots. -/
theorem target_mem_callSlots {raw : UInt16} {function target : Value} {attr : String}
    (haccess : getattrAccess? function
      (splitArguments (callSlots raw stack) (ArgSpec.decode raw)).1
      (splitArguments (callSlots raw stack) (ArgSpec.decode raw)).2 = some (target, attr)) :
    target ∈ callSlots raw stack ∧ target ∈ stack := by
  have hmem : target ∈ callSlots raw stack :=
    List.mem_of_mem_take (mem_args_of_getattrAccess? haccess)
  exact ⟨hmem, List.mem_of_mem_take (List.mem_reverse.mp hmem)⟩

theorem Wired.callCall (h : Wired k w) {raw : UInt16}
    (hstack : ∀ v ∈ stack, v.MadeOf AtHome)
    (hcall : sideCallAt k.calls (.call .plain raw) stack = some call) (re : Reentry) :
    ∃ t, callNative re call w = (t, .ok (siteAnswer (.call .plain raw) stack)) ∧ Wired k t ∧
      Grows k (spotOf (.call .plain raw) stack) w t ∧
      ∀ o b, (Instruction.call .plain raw).aim? stack = some (o, b) →
        w.declared? o b = some .observable → Heeds k t o b := by
  simp only [sideCallAt] at hcall
  cases hdrop : stack.drop (ArgSpec.decode raw).slots with
  | nil =>
      rw [hdrop] at hcall
      cases hcall
  | cons function below =>
      rw [hdrop] at hcall
      refine ⟨_, callNative_calls h.calls hdrop re (Option.some.inj hcall).symm, ?_⟩
      cases hcall
      let bundle := Value.tuple (callSlots raw stack)
      let pins := pinValues (NativeCall.values
        ⟨k.calls, [function, bundle, .int (Int64.ofNat raw.toNat)], [], below⟩)
      have hpolicy : k.getattr ∈ k.policies := List.mem_cons_of_mem _ List.mem_cons_self
      have haim := Instruction.aim?_call hdrop
      simp only [tellCall]
      cases haccess : getattrAccess? function
          (splitArguments (callSlots raw stack) (ArgSpec.decode raw)).1
          (splitArguments (callSlots raw stack) (ArgSpec.decode raw)).2 with
      | none =>
          rw [haccess] at haim
          refine ⟨h, Grows.refl k _ w, ?_⟩
          intro o b hob
          rw [haim] at hob
          cases hob
      | some access =>
          obtain ⟨target, attr⟩ := access
          rw [haccess] at haim
          obtain ⟨hslot, hmem⟩ := target_mem_callSlots haccess
          have hv : ∀ o, target = .object o →
              AtHome o ∧ ∃ u, .value u ∈ pins ++ w.pins ∧ o ∈ u.objects := by
            rintro o rfl
            refine ⟨hstack (.object o) hmem, bundle, ?_, ?_⟩
            · exact List.mem_append_left _ (List.mem_cons_of_mem _ List.mem_cons_self)
            · exact Value.mem_itemObjects.mpr ⟨.object o, hslot, List.mem_singleton_self o⟩
          have hspot : ∀ o, target = .object o → spotOf (.call .plain raw) stack o.id attr := by
            rintro o rfl
            exact ⟨o, haim, rfl⟩
          obtain ⟨hwired, hgrows, htuned⟩ := (h.pinned pins).see hpolicy hv hspot re
          refine ⟨hwired.unpinned h hgrows.names, hgrows.unpinned, ?_⟩
          intro o b hob hobservable
          cases objectAccess?_eq_some (haim.symm.trans hob)
          exact ⟨k.getattr, hpolicy, htuned o rfl hobservable⟩

/-- **A side-call answers its site**, and a policy then listens to what is aimed at next, and to
nothing else that is new. -/
theorem Wired.sideCall (h : Wired k w) (hfeeds : k.Feeds ref op)
    (hstack : ∀ v ∈ stack, v.MadeOf AtHome) (hcall : sideCallAt ref op stack = some call)
    (re : Reentry) :
    ∃ t, (host re).call call w = (t, .ok (siteAnswer op stack)) ∧ Wired k t ∧
      Grows k (spotOf op stack) w t ∧
      ∀ o a, op.aim? stack = some (o, a) → w.declared? o a = some .observable →
        Heeds k t o a := by
  cases op with
  | loadAttr a =>
      obtain rfl : ref = k.loads := hfeeds
      exact h.attributeCall hstack hcall re
  | call form raw =>
      cases form with
      | plain =>
          obtain rfl : ref = k.calls := hfeeds
          exact h.callCall hstack hcall re
      | _ => exact hfeeds.elim
  | _ => exact hfeeds.elim

/-- The side-calls in front of an instruction leave a binding wired up; if there is any, a policy
then listens to what the instruction is aimed at. -/
theorem Wired.served {re : Reentry} {refs : List NativeRef} {w t : Session}
    (hserved : (host re).Served op stack refs w t) (h : Wired k w)
    (hfeeds : ∀ ref ∈ refs, k.Feeds ref op) (hstack : ∀ v ∈ stack, v.MadeOf AtHome) :
    Wired k t ∧ Grows k (spotOf op stack) w t ∧
      (refs ≠ [] → ∀ o a, op.aim? stack = some (o, a) → w.declared? o a = some .observable →
        Heeds k t o a) := by
  induction hserved with
  | nil w => exact ⟨h, Grows.refl k _ w, fun hne => absurd rfl hne⟩
  | @cons ref refs call w u t hcall hanswer _ ih =>
      obtain ⟨u', hanswer', hwired, hgrows, hheeds⟩ :=
        h.sideCall (hfeeds ref List.mem_cons_self) hstack hcall re
      obtain rfl : u' = u := by
        rw [hanswer] at hanswer'
        exact (Prod.mk.inj hanswer').1.symm
      obtain ⟨hwired', hgrows', -⟩ := ih hwired fun r hr => hfeeds r (List.mem_cons_of_mem _ hr)
      refine ⟨hwired', hgrows.trans hgrows', ?_⟩
      intro _ o a haccess hobservable
      exact hgrows'.heeds (hheeds o a haccess hobservable)

end SideCalls

end Session
end TrackedExpr
