import Mathlib
import TrackedExpr.Frame

/-!
# Call forms

A call with a star operand or a mapping operand passes on what the plain call passes on
that has the items of the operands among its counted slots.

**Definitions.**
* `pairSlots`, `pairTuples`: keyword arguments as slots, and as the items of a mapping;
* `ArgSpec.count`: the operand that counts given arguments;
* `Frame.beforeCall`: the frame of a call;
* `Frame.invokeNamed`: calling a value with keyword arguments that may not be text.

**Results.**
* `ArgSpec.decode_encode`: a call operand keeps both counts;
* `keywordSlots_pairSlots`, `mappingItems_pairTuples`: keywords are accepted one by one, wherever
  they come from;
* `Frame.step_call`: what a call of any form does;
* `call_forms_agree`: calls with operands do what the plain call does.
-/

namespace TrackedExpr

namespace ArgSpec

theorem toNat_encode (spec : ArgSpec) :
    spec.encode.toNat = spec.positional.toNat + 256 * spec.keyword.toNat := by
  obtain ⟨p, k⟩ := spec
  have hp := p.toNat_lt
  have hk := k.toNat_lt
  have hshift : (k.toUInt16 <<< 8).toNat = k.toNat <<< 8 := by
    rw [UInt16.toNat_shiftLeft, UInt8.toNat_toUInt16, Nat.shiftLeft_eq]
    show k.toNat * 2 ^ 8 % 2 ^ 16 = k.toNat <<< 8
    rw [Nat.shiftLeft_eq, Nat.mod_eq_of_lt]
    omega
  have hor := Nat.shiftLeft_add_eq_or_of_lt (show p.toNat < 2 ^ 8 by omega) k.toNat
  rw [encode, UInt16.toNat_or, UInt8.toNat_toUInt16, hshift, Nat.or_comm, ← hor, Nat.shiftLeft_eq]
  show k.toNat * 2 ^ 8 + p.toNat = p.toNat + 256 * k.toNat
  omega

/-- A call operand keeps both counts. -/
theorem decode_encode (spec : ArgSpec) : decode spec.encode = spec := by
  have hcounts := spec.toNat_encode
  have hp := spec.positional.toNat_lt
  have hk := spec.keyword.toNat_lt
  have hlow : spec.encode.toUInt8 = spec.positional := by
    apply UInt8.toNat_inj.mp
    rw [UInt16.toNat_toUInt8, hcounts]
    omega
  have hhigh : (spec.encode >>> 8).toUInt8 = spec.keyword := by
    apply UInt8.toNat_inj.mp
    rw [UInt16.toNat_toUInt8, UInt16.toNat_shiftRight, hcounts, Nat.shiftRight_eq_div_pow]
    show (spec.positional.toNat + 256 * spec.keyword.toNat) / 2 ^ 8 % 2 ^ 8 = spec.keyword.toNat
    omega
  rw [decode, hlow, hhigh]

/-- The operand that counts positional and keyword arguments. -/
def count (args : List Value) (named : List (Value × Value)) : UInt16 :=
  encode ⟨UInt8.ofNat args.length, UInt8.ofNat named.length⟩

end ArgSpec

section Arguments

/-- Keyword arguments as slots, name and value in turn. -/
def pairSlots (named : List (Value × Value)) : List Value := named.flatMap fun e => [e.1, e.2]

/-- Keyword arguments as the items of a mapping. -/
def pairTuples (named : List (Value × Value)) : List Value :=
  named.map fun e => .tuple [e.1, e.2]

theorem length_pairSlots (named : List (Value × Value)) :
    (pairSlots named).length = 2 * named.length := by
  induction named with
  | nil => rfl
  | cons e rest ih =>
      rw [pairSlots, List.flatMap_cons, List.length_append, ← pairSlots, ih, List.length_cons]
      simp only [List.length_cons, List.length_nil]
      omega

/-- Keyword slots are accepted one by one, or the first that is not text is refused. -/
theorem keywordSlots_pairSlots (named : List (Value × Value)) :
    keywordSlots (pairSlots named) = named.mapM fun e => keywordPair e.1 e.2 := by
  induction named with
  | nil => rfl
  | cons e rest ih =>
      rw [List.mapM_cons, ← ih]
      rfl

/-- The items of a mapping are accepted one by one, or the first that is not text is refused. -/
theorem mappingItems_pairTuples (named : List (Value × Value)) :
    mappingItems (pairTuples named) = named.mapM fun e => keywordPair e.1 e.2 := by
  induction named with
  | nil => rfl
  | cons e rest ih =>
      rw [List.mapM_cons, ← ih]
      rfl

/-- The arguments passed on: positional ones, counted ones first, and keyword arguments, counted
ones first. -/
theorem callArguments_counted {spec : ArgSpec} {args more : List Value}
    {named mapped : List (Value × Value)} {star mapping : Option Value}
    (hcount : spec.positional.toNat = args.length) (hstar : starItems star = .ok more)
    (hmapping : mappingOperand mapping = mapped.mapM fun e => keywordPair e.1 e.2) :
    callArguments spec (args ++ pairSlots named) star mapping
      = ((named ++ mapped).mapM fun e => keywordPair e.1 e.2).map
          fun kwargs => (args ++ more, kwargs) := by
  rw [callArguments, hcount, List.drop_left, List.take_left, keywordSlots_pairSlots, hstar,
    hmapping, List.mapM_append]
  cases named.mapM fun e => keywordPair e.1 e.2 with
  | error e => rfl
  | ok kwargs =>
      cases mapped.mapM fun e => keywordPair e.1 e.2 with
      | error e => rfl
      | ok more => rfl

end Arguments

section Operands

/-- The further arguments that a call form has operands for. -/
def CallForm.Takes : CallForm → List Value → List (Value × Value) → Prop
  | .plain, more, mapped => more = [] ∧ mapped = []
  | .star, _, mapped => mapped = []
  | .mapping, more, _ => more = []
  | .starMapping, _, _ => True

/-- The operands of a call form, the topmost first. -/
def CallForm.above : CallForm → List Value → List (Value × Value) → List Value
  | .plain, _, _ => []
  | .star, more, _ => [.tuple more]
  | .mapping, _, mapped => [.tuple (pairTuples mapped)]
  | .starMapping, more, mapped => [.tuple (pairTuples mapped), .tuple more]

/-- The operands of a call form hold the further arguments. -/
theorem CallForm.Takes.operands {form : CallForm} {more : List Value}
    {mapped : List (Value × Value)} (h : form.Takes more mapped) :
    ∃ star mapping, (form.above more mapped).length = form.extras ∧
      (∀ rest, form.operands (form.above more mapped ++ rest) = some (star, mapping, rest)) ∧
      starItems star = .ok more ∧
      mappingOperand mapping = mapped.mapM fun e => keywordPair e.1 e.2 := by
  cases form with
  | plain =>
      obtain ⟨rfl, rfl⟩ := h
      exact ⟨none, none, rfl, fun _ => rfl, rfl, rfl⟩
  | star =>
      obtain rfl : mapped = [] := h
      exact ⟨some (.tuple more), none, rfl, fun _ => rfl, rfl, rfl⟩
  | mapping =>
      obtain rfl : more = [] := h
      exact ⟨none, some (.tuple (pairTuples mapped)), rfl, fun _ => rfl, rfl,
        mappingItems_pairTuples mapped⟩
  | starMapping =>
      exact ⟨some (.tuple more), some (.tuple (pairTuples mapped)), rfl, fun _ => rfl, rfl,
        mappingItems_pairTuples mapped⟩

end Operands

namespace Frame

/-- The frame of a call at `pc`: on the stack are, from below, the function, the arguments and
what the call takes above them. -/
def beforeCall (pc : Nat) (below : List Value) (function : Value) (args : List Value)
    (named : List (Value × Value)) (above : List Value) : Frame :=
  ⟨above ++ (args ++ pairSlots named).reverse ++ function :: below, pc⟩

/-- Calls a value with keyword arguments, unless the name of one is not text. -/
def invokeNamed (read : AttributeReader) (pc : Nat) (below : List Value) (function : Value)
    (args : List Value) (named : List (Value × Value)) : Progress :=
  match named.mapM fun e => keywordPair e.1 e.2 with
  | .ok kwargs => invoke read pc below function args kwargs
  | .error e => .failed e

/-- **What a call does**, of whatever form: it invokes the function with the counted arguments and
those of its operands. -/
theorem step_call (read : AttributeReader) (scope : Scope) (below : List Value) (function : Value)
    {c : Code} {pc : Nat} {form : CallForm} {args more : List Value}
    {named mapped : List (Value × Value)} (htakes : form.Takes more mapped)
    (hop : c.instructions[pc]? = some (.call form (ArgSpec.count args named)))
    (hargs : args.length ≤ 255) (hnamed : named.length ≤ 255) :
    (beforeCall pc below function args named (form.above more mapped)).step read c scope
      = invokeNamed read (pc + 1) below function (args ++ more) (named ++ mapped) := by
  obtain ⟨star, mapping, hlength, habove, hstar, hmapping⟩ := htakes.operands
  generalize form.above more mapped = above at hlength habove ⊢
  have hspec : ArgSpec.decode (ArgSpec.count args named)
      = ⟨UInt8.ofNat args.length, UInt8.ofNat named.length⟩ := ArgSpec.decode_encode _
  have hpositional : (UInt8.ofNat args.length).toNat = args.length :=
    UInt8.toNat_ofNat_of_lt' (Nat.lt_succ_of_le hargs)
  have hkeyword : (UInt8.ofNat named.length).toNat = named.length :=
    UInt8.toNat_ofNat_of_lt' (Nat.lt_succ_of_le hnamed)
  have hslots : (ArgSpec.decode (ArgSpec.count args named)).slots
      = (args ++ pairSlots named).reverse.length := by
    rw [hspec, ArgSpec.slots, hpositional, hkeyword, List.length_reverse, List.length_append,
      length_pairSlots]
  have henough : ¬ (beforeCall pc below function args named above).stack.length
      < ((Instruction.call form (ArgSpec.count args named)).effect false).pops := by
    simp only [beforeCall, Instruction.effect, hslots, List.length_append, List.length_cons,
      hlength]
    omega
  have hcall : call? read (pc + 1) form (ArgSpec.count args named)
      (beforeCall pc below function args named above).stack
        = some (invokeNamed read (pc + 1) below function (args ++ more) (named ++ mapped)) := by
    rw [call?, beforeCall, List.append_assoc, habove]
    dsimp only
    rw [hslots, List.drop_left, List.take_left, List.reverse_reverse,
      callArguments_counted (by rw [hspec, hpositional]) hstar hmapping, invokeNamed]
    cases (named ++ mapped).mapM fun e => keywordPair e.1 e.2 with
    | error e => rfl
    | ok kwargs => rfl
  rw [step]
  simp only [show (beforeCall pc below function args named above).pc = pc from rfl, hop,
    if_neg henough, execute?, hcall]

end Frame

/-- **Call forms agree**: a call with a star operand, a mapping operand or both does what the plain
call does that counts the items of the operands among its arguments.  That is to call the function
with the positional arguments and the keyword arguments in order, or to report the first keyword
whose name is not text. -/
theorem call_forms_agree (read : AttributeReader) (scope : Scope) {c c' : Code} {pc : Nat}
    {form : CallForm} (below : List Value) (function : Value) {args more : List Value}
    {named mapped : List (Value × Value)}
    (hargs : args.length + more.length ≤ 255) (hnamed : named.length + mapped.length ≤ 255)
    (htakes : form.Takes more mapped)
    (hform : c.instructions[pc]? = some (.call form (ArgSpec.count args named)))
    (hplain : c'.instructions[pc]?
      = some (.call .plain (ArgSpec.count (args ++ more) (named ++ mapped)))) :
    (Frame.beforeCall pc below function args named (form.above more mapped)).step read c scope
        = (Frame.beforeCall pc below function (args ++ more) (named ++ mapped) []).step read c'
            scope ∧
      (Frame.beforeCall pc below function args named (form.above more mapped)).step read c scope
        = Frame.invokeNamed read (pc + 1) below function (args ++ more) (named ++ mapped) := by
  have hspread := Frame.step_call read scope below function htakes hform
    (Nat.le_trans (Nat.le_add_right _ _) hargs) (Nat.le_trans (Nat.le_add_right _ _) hnamed)
  have hnone : CallForm.plain.Takes [] [] := ⟨rfl, rfl⟩
  have hcounted := Frame.step_call read scope below function hnone hplain
    (by rw [List.length_append]; exact hargs) (by rw [List.length_append]; exact hnamed)
  rw [List.append_nil, List.append_nil] at hcounted
  exact ⟨hspread.trans hcounted.symm, hspread⟩

/-- A heap on which nothing has an attribute. -/
def noAttributes : AttributeReader := fun _ _ => none

/-- A keyword that is given twice is passed on twice; the first whose name is not text is
reported. -/
theorem call_forms_agree_scale :
    (Frame.mk [.tuple [.tuple [.str "k", .int 4]], .tuple [.int 2], .int 3, .str "k", .int 1,
        .native ⟨0, "scale"⟩, .none] 0).step noAttributes
        (Code.ofInstructions [.call .starMapping 0x0101]) []
      = .calling ⟨⟨0, "scale"⟩, [.int 1, .int 2], [("k", .int 3), ("k", .int 4)], [.none]⟩
          ⟨[.none], 1⟩ ∧
    (Frame.mk [.tuple [.tuple [.bool true, .int 4], .tuple [.none, .int 5]], .native ⟨0, "scale"⟩] 0
        ).step noAttributes (Code.ofInstructions [.call .mapping 0]) []
      = (Frame.mk [.int 5, .none, .int 4, .bool true, .native ⟨0, "scale"⟩] 0).step noAttributes
          (Code.ofInstructions [.call .plain 0x0200]) [] ∧
    (Frame.mk [.int 5, .none, .int 4, .bool true, .native ⟨0, "scale"⟩] 0).step noAttributes
        (Code.ofInstructions [.call .plain 0x0200]) []
      = .failed (.type (.keywordNotText "bool")) := by
  obtain ⟨-, hboth⟩ := @call_forms_agree noAttributes []
    (Code.ofInstructions [.call .starMapping 0x0101])
    (Code.ofInstructions [.call .plain 0x0202]) 0 .starMapping [.none] (.native ⟨0, "scale"⟩)
    [.int 1] [.int 2] [(.str "k", .int 3)] [(.str "k", .int 4)] (by decide) (by decide) trivial rfl
    rfl
  obtain ⟨hagree, hmapping⟩ := @call_forms_agree noAttributes []
    (Code.ofInstructions [.call .mapping 0]) (Code.ofInstructions [.call .plain 0x0200]) 0
    .mapping [] (.native ⟨0, "scale"⟩) [] [] []
    [(.bool true, .int 4), (.none, .int 5)] (by decide) (by decide) rfl rfl rfl
  exact ⟨hboth, hagree, hagree.symm.trans hmapping⟩

end TrackedExpr
