import Mathlib
import TrackedExpr.Proofs.Dependencies
import TrackedExpr.Proofs.Reports

/-!
# What the side-call of a call takes for a lookup

A side-call in front of a plain call of `getattr` is shown the slots of the call and says
which attribute will be looked up.  It reads the slots in another way than the call does:
keywords whose names are not text it skips, where the call refuses them.

**Definitions.**
* `getattrThrough`, `Builtin.callThrough`, `Frame.callThrough?`: calls that make their attribute
  lookups in a monad;
* `Frame.lookups`: the lookups that the next step makes in calls of `getattr`;
* `recognised?`: the lookup that the side-call in front of a call announces;
* `Misread`: a call that is taken for a lookup though its keywords are refused.

**Results.**
* `Frame.callThrough?_eq`: without effects these are the calls that are executed;
* `Frame.lookups_eq`: what a plain call looks up;
* `recognised_iff_looked_up`: a side-call announces the lookup that follows, and else only calls
  that are refused for their keywords;
* `misread_call`: such a call.
-/

namespace TrackedExpr

section Through

variable {m : Type → Type} [Monad m] (look : Value → String → m (Except EvalError Value))

/-- A call of `getattr`, in which the attribute is looked up by `look`. -/
def getattrThrough (args : List Value) : m (Except EvalError Value) :=
  match getattrRequest args with
  | .error e => pure (.error e)
  | .ok (target, name, default) => do
      match ← look target name, default with
      | .error (.noAttribute _ _), some v => pure (.ok v)
      | result, _ => pure result

/-- A call of a builtin, in which attributes are looked up by `look`. -/
def Builtin.callThrough (b : Builtin) (args : List Value) (kwargs : Kwargs) :
    m (Except EvalError Value) :=
  if !kwargs.isEmpty then pure (.error (.type (.keywordsRefused b.name)))
  else
    match b, args with
    | .getattr, args => getattrThrough look args
    | .len, [v] => pure v.length
    | .str, [v] => pure (.ok v.text)
    | .abs, [v] => pure v.absolute
    | b, args => pure (.error (.type (.argumentCount b.name 1 args.length)))

namespace Frame

/-- A call of a value, in which attributes are looked up by `look`. -/
def invokeThrough (pc : Nat) (below : List Value) (function : Value) (args : List Value)
    (kwargs : Kwargs) : m Progress :=
  match function with
  | .builtin b => push pc below <$> b.callThrough look args kwargs
  | .native ref => pure (.calling ⟨ref, args, kwargs, below⟩ ⟨below, pc⟩)
  | v => pure (.failed (.type (.notCallable v.typeName)))

/-- A call instruction, in which attributes are looked up by `look`. -/
def callThrough? (pc : Nat) (form : CallForm) (operand : UInt16) (stack : List Value) :
    Option (m Progress) :=
  let spec := ArgSpec.decode operand
  match form.operands stack with
  | none => none
  | some (star, mapping, rest) =>
      match rest.drop spec.slots with
      | [] => none
      | function :: below =>
          some <|
            match callArguments spec (rest.take spec.slots).reverse star mapping with
            | .ok (args, kwargs) => invokeThrough look pc below function args kwargs
            | .error e => pure (.failed e)

end Frame

end Through

section Plain

variable (read : AttributeReader)

theorem getattrThrough_eq (args : List Value) :
    getattrThrough (m := Id) (loadAttr read) args = getattr read args := by
  unfold getattrThrough getattr
  cases getattrRequest args with
  | error e => rfl
  | ok request => rfl

theorem Builtin.callThrough_eq (b : Builtin) (args : List Value) (kwargs : Kwargs) :
    b.callThrough (m := Id) (loadAttr read) args kwargs = b.call read args kwargs := by
  unfold callThrough call
  split
  · rfl
  · cases b with
    | getattr => exact getattrThrough_eq read args
    | _ => rcases args with _ | ⟨v, _ | ⟨w, rest⟩⟩ <;> rfl

/-- **Without effects** calls through a lookup are the calls that are executed. -/
theorem Frame.callThrough?_eq (pc : Nat) (form : CallForm) (operand : UInt16)
    (stack : List Value) :
    callThrough? (m := Id) (loadAttr read) pc form operand stack
      = call? read pc form operand stack := by
  unfold callThrough? call?
  cases form.operands stack with
  | none => rfl
  | some taken =>
      obtain ⟨star, mapping, rest⟩ := taken
      dsimp only
      cases rest.drop (ArgSpec.decode operand).slots with
      | nil => rfl
      | cons function below =>
          dsimp only
          cases callArguments (ArgSpec.decode operand)
              (rest.take (ArgSpec.decode operand).slots).reverse star mapping with
          | error e => rfl
          | ok passed =>
              cases function with
              | builtin b => exact congrArg (some ∘ push pc below) (b.callThrough_eq read _ _)
              | _ => rfl

end Plain

section Lookups

/-- A lookup that is written down. -/
def written (read : AttributeReader) (target : Value) (attr : String) :
    StateM (List (Value × String)) (Except EvalError Value) := fun log =>
  (loadAttr read target attr, log ++ [(target, attr)])

/-- The lookups that an instruction makes in calls of `getattr`, in order. -/
def Instruction.lookups (read : AttributeReader) (pc : Nat) :
    Instruction → List Value → List (Value × String)
  | .call form operand, stack =>
      match Frame.callThrough? (written read) pc form operand stack with
      | some run => (run.run []).2
      | none => []
  | _, _ => []

/-- The lookups that the next step makes in calls of `getattr`, in order. -/
def Frame.lookups (read : AttributeReader) (c : Code) (f : Frame) : List (Value × String) :=
  match c.instructions[f.pc]? with
  | some op => op.lookups read (f.pc + 1) f.stack
  | none => []

/-- The lookup that the side-call in front of a call announces. -/
def recognised? (raw : UInt16) (function : Value) (slots : List Value) : Option (Value × String) :=
  match answerCallSite [function, .tuple slots, .int (Int64.ofNat raw.toNat)] with
  | .ok (some r, _) => getattrAccess? r.function r.args r.kwargs
  | _ => none

/-- A call of `getattr` for an attribute of a value, with a keyword but with none whose name is
text. -/
def Misread (raw : UInt16) (function : Value) (slots : List Value) (x : Value × String) : Prop :=
  function = .builtin .getattr ∧ (ArgSpec.decode raw).keyword ≠ 0 ∧
    (∀ name ∈ keywordNames (slots.drop (ArgSpec.decode raw).positional.toNat), ∀ text,
      name ≠ .str text) ∧
    ∃ default, getattrRequest (slots.take (ArgSpec.decode raw).positional.toNat)
      = .ok (x.1, x.2, default)

end Lookups

section Keywords

/-- No keyword is reported just if no name is text. -/
theorem textPairs_eq_nil_iff (slots : List Value) :
    textPairs slots = [] ↔ ∀ name ∈ keywordNames slots, ∀ text, name ≠ .str text := by
  fun_induction keywordNames slots with
  | case1 name value rest ih =>
      rw [List.forall_mem_cons, ← ih]
      cases name with
      | str n => exact ⟨fun h => absurd h (List.cons_ne_nil _ _), fun h => absurd rfl (h.1 n)⟩
      | _ =>
          refine ⟨fun h => ⟨fun text heq => ?_, h⟩, And.right⟩
          cases heq
  | case2 slots hslots =>
      have hnone : ∀ name ∈ ([] : List Value), ∀ text, name ≠ .str text := List.forall_mem_nil _
      rcases slots with _ | ⟨v, _ | ⟨w, rest⟩⟩
      · exact ⟨fun _ => hnone, fun _ => rfl⟩
      · refine ⟨fun _ => hnone, fun _ => ?_⟩
        cases v <;> rfl
      · exact absurd rfl (hslots v w rest)

/-- Keywords are refused for the name of one. -/
theorem keywordSlots_error {slots : List Value} {e : EvalError}
    (h : keywordSlots slots = .error e) : ∃ typeName, e = .type (.keywordNotText typeName) := by
  fun_induction keywordSlots slots with
  | case1 name value rest ih =>
      cases name with
      | str n =>
          cases hrest : keywordSlots rest with
          | error e' =>
              rw [hrest] at h
              cases h
              exact ih hrest
          | ok more =>
              rw [hrest] at h
              cases h
      | _ =>
          cases h
          exact ⟨_, rfl⟩
  | case2 slots hslots => cases h

/-- Keywords of which none is text are refused, if there are any. -/
theorem keywordSlots_of_no_text {slots : List Value} (hlen : 2 ≤ slots.length)
    (h : ∀ name ∈ keywordNames slots, ∀ text, name ≠ .str text) :
    ∃ typeName, keywordSlots slots = .error (.type (.keywordNotText typeName)) := by
  cases hnamed : keywordSlots slots with
  | error e =>
      obtain ⟨typeName, rfl⟩ := keywordSlots_error hnamed
      exact ⟨typeName, rfl⟩
  | ok named =>
      have hsome : textPairs slots ≠ [] := textPairs_ne_nil (by rw [hnamed]; rfl) hlen
      exact absurd ((textPairs_eq_nil_iff slots).mpr h) hsome

end Keywords

section Calls

variable {read : AttributeReader} {c : Code} {scope : Scope} {pc : Nat} {raw : UInt16}
  {function : Value} {slots below : List Value}

/-- Arguments are recognised just if `getattr` accepts them. -/
theorem getattrAccess?_getattr (args : List Value) :
    getattrAccess? (.builtin .getattr) args []
      = match getattrRequest args with
        | .ok (target, name, _) => some (target, name)
        | .error _ => none := by
  rcases args with _ | ⟨v, _ | ⟨u, _ | ⟨t, _ | ⟨x, rest⟩⟩⟩⟩
  · rfl
  · rfl
  · cases u <;> rfl
  · cases u <;> rfl
  · cases u <;> rfl

theorem getattrAccess?_eq_some_iff (args : List Value) (x : Value × String) :
    getattrAccess? (.builtin .getattr) args [] = some x ↔
      ∃ default, getattrRequest args = .ok (x.1, x.2, default) := by
  rw [getattrAccess?_getattr]
  cases getattrRequest args with
  | error e => simp
  | ok request =>
      obtain ⟨target, name, default⟩ := request
      obtain ⟨t, a⟩ := x
      simp

/-- What a call looks up is what its arguments ask `getattr` for. -/
theorem lookups_invokeThrough (read : AttributeReader) (pc : Nat) (below : List Value)
    (function : Value) (args : List Value) (kwargs : Kwargs) :
    ((Frame.invokeThrough (written read) pc below function args kwargs).run []).2
      = (getattrAccess? function args kwargs).toList := by
  by_cases hfunction : function = .builtin .getattr
  · subst hfunction
    cases kwargs with
    | cons e rest => rw [getattrAccess?_of_kwargs (List.cons_ne_nil e rest)]; rfl
    | nil =>
        rw [getattrAccess?_getattr]
        show ((getattrThrough (written read) args).run []).2 = _
        unfold getattrThrough
        cases getattrRequest args with
        | error e => rfl
        | ok request =>
            obtain ⟨target, name, default⟩ := request
            have hanswer : ∀ found : Except EvalError Value, ∀ log : List (Value × String),
                (StateT.run (m := Id) (match found, default with
                  | .error (.noAttribute _ _), some v => pure (.ok v)
                  | result, _ => pure result) log).2 = log := by
              intro found log
              split <;> rfl
            exact hanswer (loadAttr read target name) [(target, name)]
  · rw [getattrAccess?_of_ne hfunction]
    cases function with
    | builtin b =>
        show ((Builtin.callThrough (written read) b args kwargs).run []).2 = []
        unfold Builtin.callThrough
        split
        · rfl
        · cases b with
          | getattr => exact absurd rfl hfunction
          | _ => rcases args with _ | ⟨v, _ | ⟨w, rest⟩⟩ <;> rfl
    | _ => rfl

theorem recognised?_eq (raw : UInt16) (function : Value) (slots : List Value) :
    recognised? raw function slots
      = getattrAccess? function (slots.take (ArgSpec.decode raw).positional.toNat)
          (textPairs (slots.drop (ArgSpec.decode raw).positional.toNat)) := by
  simp only [recognised?, answerCallSite, toUInt16_ofNat_toNat, splitArguments]

variable (hslots : slots.length = (ArgSpec.decode raw).slots)
include hslots

/-- A plain call whose slots are on the stack. -/
theorem Frame.callThrough?_plain {m : Type → Type} [Monad m]
    (look : Value → String → m (Except EvalError Value)) :
    callThrough? look pc .plain raw (slots.reverse ++ function :: below)
      = some (match keywordSlots (slots.drop (ArgSpec.decode raw).positional.toNat) with
        | .ok named => invokeThrough look pc below function
            (slots.take (ArgSpec.decode raw).positional.toNat) named
        | .error e => pure (.failed e)) := by
  simp only [callThrough?, CallForm.operands, ← hslots]
  rw [← List.length_reverse, List.drop_left, List.take_left, List.reverse_reverse]
  simp only [callArguments, starItems, mappingOperand]
  cases keywordSlots (slots.drop (ArgSpec.decode raw).positional.toNat) with
  | error e => rfl
  | ok named =>
      show some (invokeThrough look pc below function (_ ++ []) (named ++ [])) = _
      rw [List.append_nil, List.append_nil]

theorem length_keyword_slots : (slots.drop (ArgSpec.decode raw).positional.toNat).length
    = 2 * (ArgSpec.decode raw).keyword.toNat := by
  rw [List.length_drop, hslots, ArgSpec.slots]
  omega

/-- A call that is misread is refused for a keyword. -/
theorem Misread.refused {x : Value × String} (h : Misread raw function slots x) :
    ∃ typeName, keywordSlots (slots.drop (ArgSpec.decode raw).positional.toNat)
      = .error (.type (.keywordNotText typeName)) := by
  obtain ⟨-, hne, htext, -⟩ := h
  refine keywordSlots_of_no_text ?_ htext
  have hpos : (ArgSpec.decode raw).keyword.toNat ≠ 0 := fun hzero => hne (UInt8.toNat_inj.mp hzero)
  have hlen := length_keyword_slots hslots
  omega

/-- Of the calls that are refused for a keyword those are announced that are misread. -/
theorem recognised?_eq_some_iff_misread {e : EvalError}
    (herror : keywordSlots (slots.drop (ArgSpec.decode raw).positional.toNat) = .error e)
    (x : Value × String) :
    recognised? raw function slots = some x ↔ Misread raw function slots x := by
  have hne : (ArgSpec.decode raw).keyword ≠ 0 := by
    intro hzero
    have hlen := length_keyword_slots hslots
    rw [hzero] at hlen
    rw [List.eq_nil_of_length_eq_zero hlen] at herror
    cases herror
  rw [recognised?_eq]
  constructor
  · intro haccess
    have hfunction : function = .builtin .getattr := by
      by_contra hother
      rw [getattrAccess?_of_ne hother] at haccess
      cases haccess
    have hnil : textPairs (slots.drop (ArgSpec.decode raw).positional.toNat) = [] := by
      by_contra hsome
      rw [getattrAccess?_of_kwargs hsome] at haccess
      cases haccess
    rw [hnil, hfunction] at haccess
    exact ⟨hfunction, hne, (textPairs_eq_nil_iff _).mp hnil,
      (getattrAccess?_eq_some_iff _ x).mp haccess⟩
  · rintro ⟨rfl, -, htext, hrequest⟩
    rw [(textPairs_eq_nil_iff _).mpr htext]
    exact (getattrAccess?_eq_some_iff _ x).mpr hrequest

variable (hop : c.instructions[pc]? = some (.call .plain raw))
include hop

/-- A step that makes a plain call executes the call, and its lookups are those of the call. -/
theorem Frame.step_plain (read : AttributeReader) (scope : Scope) :
    some ((Frame.mk (slots.reverse ++ function :: below) pc).step read c scope)
        = callThrough? (m := Id) (loadAttr read) (pc + 1) .plain raw
            (slots.reverse ++ function :: below) ∧
      (Frame.mk (slots.reverse ++ function :: below) pc).lookups read c
        = match keywordSlots (slots.drop (ArgSpec.decode raw).positional.toNat) with
          | .ok named => (getattrAccess? function
              (slots.take (ArgSpec.decode raw).positional.toNat) named).toList
          | .error _ => [] := by
  have henough : ¬ (slots.reverse ++ function :: below).length
      < ((Instruction.call .plain raw).effect false).pops := by
    simp only [Instruction.effect, CallForm.extras, List.length_append, List.length_reverse,
      List.length_cons, hslots]
    omega
  constructor
  · rw [callThrough?_plain hslots, step]
    have hcall := callThrough?_eq read (pc + 1) .plain raw (slots.reverse ++ function :: below)
    rw [callThrough?_plain hslots] at hcall
    simp only [hop, if_neg henough, execute?, ← hcall]
  · simp only [lookups, hop, Instruction.lookups, callThrough?_plain hslots]
    cases keywordSlots (slots.drop (ArgSpec.decode raw).positional.toNat) with
    | error e => rfl
    | ok named => exact lookups_invokeThrough read (pc + 1) below function _ named

/-- **A side-call announces the lookup that follows.**  What it announces is looked up in the call
behind it, unless the call has keywords none of which is text; this is refused for a keyword and
looks nothing up.  Of a call with a keyword that is text nothing is announced. -/
theorem recognised_iff_looked_up (read : AttributeReader) (scope : Scope) :
    some ((Frame.mk (slots.reverse ++ function :: below) pc).step read c scope)
      = Frame.callThrough? (m := Id) (loadAttr read) (pc + 1) .plain raw
          (slots.reverse ++ function :: below) ∧
    (∀ x, recognised? raw function slots = some x ↔
      (Frame.mk (slots.reverse ++ function :: below) pc).lookups read c = [x] ∨
        Misread raw function slots x) ∧
    (∀ x, Misread raw function slots x →
      (Frame.mk (slots.reverse ++ function :: below) pc).lookups read c = [] ∧
        ∃ typeName, (Frame.mk (slots.reverse ++ function :: below) pc).step read c scope
          = .failed (.type (.keywordNotText typeName))) ∧
    ((∃ name ∈ keywordNames (slots.drop (ArgSpec.decode raw).positional.toNat), ∃ text,
      name = .str text) → recognised? raw function slots = none) := by
  obtain ⟨hstep, hlookups⟩ :=
    @Frame.step_plain c pc raw function slots below hslots hop read scope
  refine ⟨hstep, fun x => ?_, fun x hx => ?_, ?_⟩
  · rw [hlookups]
    cases hnamed : keywordSlots (slots.drop (ArgSpec.decode raw).positional.toNat) with
    | ok named =>
        have hproper : ¬ Misread raw function slots x := by
          intro hx
          obtain ⟨typeName, herror⟩ := hx.refused hslots
          rw [hnamed] at herror
          cases herror
        rw [recognised?_eq, textPairs_of_keywordSlots hnamed, or_iff_left hproper]
        exact Option.toList_eq_singleton_iff.symm
    | error e =>
        rw [recognised?_eq_some_iff_misread hslots hnamed]
        exact (or_iff_right (List.cons_ne_nil x []).symm).symm
  · obtain ⟨typeName, herror⟩ := hx.refused hslots
    rw [hlookups, herror]
    refine ⟨rfl, typeName, ?_⟩
    rw [Frame.callThrough?_plain hslots, herror] at hstep
    exact Option.some.inj hstep
  · rintro ⟨name, hname, text, rfl⟩
    rw [recognised?_eq]
    refine getattrAccess?_of_kwargs fun hnil => ?_
    exact (textPairs_eq_nil_iff _).mp hnil _ hname text rfl

end Calls

section Slider

/-- An object. -/
def slider : ObjectRef := ⟨0, 0, "m", "Slider"⟩

/-- **A call that looks nothing up may be announced as a lookup**: `getattr` with a keyword that is
a number. -/
theorem misread_call :
    ¬ ∀ (c : Code) (pc : Nat) (raw : UInt16) (function : Value) (slots below : List Value)
      (read : AttributeReader), slots.length = (ArgSpec.decode raw).slots →
      c.instructions[pc]? = some (.call .plain raw) → ∀ x,
      (recognised? raw function slots = some x ↔
        (Frame.mk (slots.reverse ++ function :: below) pc).lookups read c = [x]) := by
  intro hexact
  have hsame := hexact (Code.ofInstructions [.call .plain 0x0102]) 0 0x0102 (.builtin .getattr)
    [.object slider, .str "x", .int 5, .int 1] [] (fun _ _ => none) rfl rfl (.object slider, "x")
  exact List.cons_ne_nil _ _ (hsame.mp rfl).symm

/-- `getattr` with a default looks the attribute up; with a number for a keyword it is announced
all the same, and refused; with a keyword that is text it is not announced. -/
theorem recognised_iff_looked_up_slider :
    (Frame.mk [.none, .str "x", .object slider, .builtin .getattr] 0).lookups (fun _ _ => none)
        (Code.ofInstructions [.call .plain 3]) = [(.object slider, "x")] ∧
    (Frame.mk [.int 1, .int 5, .str "x", .object slider, .builtin .getattr] 0).lookups
        (fun _ _ => none) (Code.ofInstructions [.call .plain 0x0102]) = [] ∧
    recognised? 0x0102 (.builtin .getattr) [.object slider, .str "x", .str "default", .int 1]
      = none := by
  obtain ⟨-, hlookup, -, -⟩ := @recognised_iff_looked_up (Code.ofInstructions [.call .plain 3]) 0 3
    (.builtin .getattr) [.object slider, .str "x", .none] [] rfl rfl (fun _ _ => none) []
  obtain ⟨-, -, hmisread, -⟩ := @recognised_iff_looked_up
    (Code.ofInstructions [.call .plain 0x0102]) 0 0x0102 (.builtin .getattr)
    [.object slider, .str "x", .int 5, .int 1] [] rfl rfl
    (fun _ _ => none) []
  obtain ⟨-, -, -, hkeyword⟩ := @recognised_iff_looked_up
    (Code.ofInstructions [.call .plain 0x0102]) 0 0x0102 (.builtin .getattr)
    [.object slider, .str "x", .str "default", .int 1] [] rfl rfl
    (fun _ _ => none) []
  refine ⟨?_, ?_, ?_⟩
  · rcases (hlookup (.object slider, "x")).mp rfl with hlookup | ⟨-, hne, -⟩
    · exact hlookup
    · exact absurd rfl hne
  · refine (hmisread (.object slider, "x") ⟨rfl, by decide, ?_, none, rfl⟩).1
    intro name hname text
    obtain rfl := List.mem_singleton.mp hname
    exact nofun
  · exact hkeyword ⟨.str "default", List.mem_singleton_self _, "default", rfl⟩

end Slider

end TrackedExpr
