import TrackedExpr.Proofs.Concordance
import TrackedExpr.Proofs.Integers

/-!
# The signs of integer constants

An embedded listing may have up to two minus signs in front of an integer constant.  The second of
two belongs to the literal; the first negates it.  A literal is looked at as a word before it is
negated, so that a single sign never makes the least integer, which a listing can load, and two
signs in front of its magnitude make a negation that overflows.  Everywhere else the constant is the
exact one, and it is refused if no word holds it.

**Definitions.**
* `Embedded.minuses`, `Embedded.signed`: signs, and the integer that they mean;
* `Embedded.checkedInteger`: reading a signed integer with the negation checked;
* `Embedded.ComesTo`: reading statements comes to some place in the tokens;
* `Embedded.Loads`: an integer is loaded at a place.

**Results.**
* `Embedded.constant_signed`, `Embedded.checkedInteger_eq`: what is read behind signs;
* `Embedded.loads_integer`, `Embedded.construct_eq_error`: what becomes of the constant;
* `Embedded.construct_integer`: the line of an integer;
* `Embedded.integer_constants_exact`: which constants are exact, and which are shared with listings.
-/

namespace TrackedExpr
namespace Embedded

section Signs

/-- Minus signs, each joined to what follows it or not. -/
def minuses (joints : List Bool) : Tokens := joints.map (.punct '-')

/-- The integer that signs in front of a magnitude mean. -/
def signed (signs m : Nat) : Int := (-1) ^ signs * m

/-- An integer behind signs, its negation checked: nothing if no word holds the negative of what the
literal says. -/
def checkedInteger (signs m : Nat) : Option (Except Fault Int64) :=
  match inRange (decide (signs = 2)) m with
  | .error e => some (.error e)
  | .ok i => if signs = 0 then some (.ok i) else (TrackedExpr.word? (-i.toInt)).map .ok

section Ranges

variable {m : Nat}

theorem inRange_plain (h : m < 2 ^ 63) : inRange false m = .ok (Int64.ofInt m) := by
  have hmax : Int64.maxValue.toInt = 2 ^ 63 - 1 := Int64.toInt_maxValue
  rw [inRange, if_neg Bool.false_ne_true, if_pos (by omega)]

theorem inRange_minus (h : m ≤ 2 ^ 63) : inRange true m = .ok (Int64.ofInt (-m)) := by
  have hmin : Int64.minValue.toInt = -2 ^ 63 := Int64.toInt_minValue
  rw [inRange, if_pos rfl, if_pos (by omega)]

theorem inRange_tooLarge (h : 2 ^ 63 ≤ m) : inRange false m = .error .tooLarge := by
  have hmax : Int64.maxValue.toInt = 2 ^ 63 - 1 := Int64.toInt_maxValue
  rw [inRange, if_neg Bool.false_ne_true, if_neg (by omega)]

theorem inRange_tooSmall (h : 2 ^ 63 < m) : inRange true m = .error .tooSmall := by
  have hmin : Int64.minValue.toInt = -2 ^ 63 := Int64.toInt_minValue
  rw [inRange, if_pos rfl, if_neg (by omega)]

end Ranges

/-- What is read behind signs: the last of two is read with the literal, the first negates it. -/
theorem constant_signed {joints : List Bool} (h : joints.length ≤ 2) (text : List Char) (m : Nat)
    (more : Tokens) :
    constant (minuses joints ++ .literal text (.numeral (.int m)) :: more)
      = (inRange (decide (joints.length = 2)) m).map fun i =>
          (.op (.loadConst (.int (if joints.length = 0 then i else -i))), more) := by
  match joints, h with
  | [], _ =>
      cases hrange : inRange false m <;>
        simp [minuses, constant, plainConstant, signedNumber, fraction?, number?, hrange,
          Except.map]
  | [_], _ =>
      cases hrange : inRange false m <;>
        simp [minuses, constant, plainConstant, signedNumber, fraction?, number?, hrange,
          Except.map]
  | [_, _], _ =>
      cases hrange : inRange true m <;>
        simp [minuses, constant, plainConstant, signedNumber, fraction?, number?, hrange,
          Except.map]

theorem signed_cases {signs : Nat} (h : signs ≤ 2) (m : Nat) :
    signs = 0 ∧ signed signs m = m ∨ signs = 1 ∧ signed signs m = -m ∨
      signs = 2 ∧ signed signs m = m := by
  unfold signed
  obtain rfl | rfl | rfl : signs = 0 ∨ signs = 1 ∨ signs = 2 := by omega
  · exact Or.inl ⟨rfl, by simp⟩
  · exact Or.inr (Or.inl ⟨rfl, by simp⟩)
  · exact Or.inr (Or.inr ⟨rfl, by simp⟩)

theorem fitsWord_signed_iff {signs : Nat} (h : signs ≤ 2) (m : Nat) :
    FitsWord (signed signs m) ↔ m < 2 ^ 63 ∨ m = 2 ^ 63 ∧ signs = 1 := by
  unfold FitsWord
  rcases signed_cases h m with ⟨hk, hm⟩ | ⟨hk, hm⟩ | ⟨hk, hm⟩ <;> rw [hm] <;> omega

/-- Only the magnitude of the least integer behind a sign makes the least integer. -/
theorem lt_signed {signs : Nat} (h : signs ≤ 2) {m : Nat} (hregular : m ≠ 2 ^ 63 ∨ signs = 0)
    (hword : FitsWord (signed signs m)) : -2 ^ 63 < signed signs m := by
  have hbound := (fitsWord_signed_iff h m).mp hword
  rcases signed_cases h m with ⟨hk, hm⟩ | ⟨hk, hm⟩ | ⟨hk, hm⟩ <;> rw [hm] <;> omega

/-- **What is read behind signs, in words.**  The magnitude of the least integer is refused behind
one sign, and its negation overflows behind two. -/
theorem checkedInteger_eq {signs : Nat} (h : signs ≤ 2) (m : Nat) :
    checkedInteger signs m =
      if m = 2 ^ 63 ∧ signs = 2 then none
      else if m < 2 ^ 63 then some (.ok (Int64.ofInt (signed signs m)))
      else some (.error (if signs = 2 then .tooSmall else .tooLarge)) := by
  have hnegated : ∀ n : Int, FitsWord n → FitsWord (-n) →
      TrackedExpr.word? (-(Int64.ofInt n).toInt) = some (Int64.ofInt (-n)) := by
    intro n hn hneg
    rw [Int64.toInt_ofInt_of_le hn.1 hn.2, TrackedExpr.word?, if_pos hneg]
  have hfits : m < 2 ^ 63 → FitsWord m ∧ FitsWord (-m) := by
    unfold FitsWord
    omega
  unfold checkedInteger
  rcases signed_cases h m with ⟨rfl, hm⟩ | ⟨rfl, hm⟩ | ⟨rfl, hm⟩
  · rw [hm, if_neg fun h => absurd h.2 (by decide), show decide (0 = 2) = false from rfl]
    by_cases hlt : m < 2 ^ 63
    · rw [if_pos hlt, inRange_plain hlt]
      rfl
    · rw [if_neg hlt, inRange_tooLarge (Nat.le_of_not_lt hlt)]
      rfl
  · rw [hm, if_neg fun h => absurd h.2 (by decide), show decide (1 = 2) = false from rfl]
    by_cases hlt : m < 2 ^ 63
    · obtain ⟨hplain, hneg⟩ := hfits hlt
      rw [if_pos hlt, inRange_plain hlt]
      change (TrackedExpr.word? (-(Int64.ofInt (m : Int)).toInt)).map _ = _
      rw [hnegated m hplain hneg]
      rfl
    · rw [if_neg hlt, inRange_tooLarge (Nat.le_of_not_lt hlt)]
      rfl
  · rw [hm, show decide (2 = 2) = true from rfl]
    rcases Nat.lt_trichotomy m (2 ^ 63) with hlt | rfl | hgt
    · obtain ⟨hplain, hneg⟩ := hfits hlt
      rw [if_neg fun h => absurd h.1 (Nat.ne_of_lt hlt), if_pos hlt,
        inRange_minus (Nat.le_of_lt hlt)]
      change (TrackedExpr.word? (-(Int64.ofInt (-(m : Int))).toInt)).map _ = _
      rw [hnegated (-m) hneg (by rwa [Int.neg_neg]), Int.neg_neg]
      rfl
    · rw [if_pos ⟨rfl, rfl⟩, inRange_minus (Nat.le_refl _)]
      decide
    · rw [if_neg fun h => absurd h.1 (Nat.ne_of_gt hgt), if_neg (Nat.lt_asymm hgt),
        inRange_tooSmall hgt]
      rfl

/-- Where the magnitude of the least integer has no sign, the integer that is meant is read, or it
is in no word. -/
theorem checkedInteger_of_regular {signs : Nat} (h : signs ≤ 2) {m : Nat}
    (hregular : m ≠ 2 ^ 63 ∨ signs = 0) :
    checkedInteger signs m =
      some (if FitsWord (signed signs m) then .ok (Int64.ofInt (signed signs m))
        else .error (if signs = 2 then .tooSmall else .tooLarge)) := by
  have hfits : FitsWord (signed signs m) ↔ m < 2 ^ 63 := by
    rw [fitsWord_signed_iff h]
    omega
  rw [checkedInteger_eq h, if_neg (by omega)]
  simp only [hfits]
  split <;> rfl

/-- A constant is what is read in words. -/
theorem constant_of_checked {joints : List Bool} (h : joints.length ≤ 2) {text : List Char}
    {m : Nat} {r : Except Fault Int64} (hr : checkedInteger joints.length m = some r)
    (more : Tokens) :
    constant (minuses joints ++ .literal text (.numeral (.int m)) :: more)
      = r.map fun i => (.op (.loadConst (.int i)), more) := by
  rw [constant_signed h]
  unfold checkedInteger at hr
  cases hrange : inRange (decide (joints.length = 2)) m with
  | error e =>
      rw [hrange] at hr
      obtain rfl := Option.some.inj hr
      rfl
  | ok i =>
      simp only [hrange] at hr
      split at hr
      · next hnone =>
          obtain rfl := Option.some.inj hr
          simp only [Except.map, hnone, if_true]
      · next hsome =>
          obtain ⟨v, hv, rfl⟩ := Option.map_eq_some_iff.mp hr
          have hneg : v = -i := by
            unfold TrackedExpr.word? at hv
            split at hv
            · rw [← Option.some.inj hv, Int64.ofInt_neg, Int64.ofInt_toInt]
            · cases hv
          simp only [Except.map, hsome, if_false, hneg]

end Signs

section Places

/-- Reading statements from tokens comes to others. -/
inductive ComesTo : Tokens → List Statement → Tokens → Prop
  | here {ts : Tokens} : ComesTo ts [] ts
  | later {t : TokenTree} {ts rest goal : Tokens} {s : Statement} {ss : List Statement} :
      statement (t :: ts) = .ok (s, rest) → rest.length ≤ ts.length → ComesTo rest ss goal →
        ComesTo (t :: ts) (s :: ss) goal

theorem ComesTo.statements_eq {ts rest : Tokens} {ss : List Statement} (h : ComesTo ts ss rest) :
    statements ts = (statements rest).map (ss ++ ·) := by
  induction h with
  | here =>
      cases statements _ <;> rfl
  | later hs hlength _ ih =>
      rw [statements, hs]
      simp only [hlength, if_true, ih]
      cases statements _ <;> rfl

variable {joints : List Bool} {text : List Char} {m : Nat} {joint : Bool} {after : Tokens}

/-- The tokens that load an integer. -/
def loadTokens (joints : List Bool) (text : List Char) (m : Nat) (joint : Bool) (after : Tokens) :
    Tokens :=
  .word "LOAD_CONST".toList :: (minuses joints ++ .literal text (.numeral (.int m)) ::
    .punct ';' joint :: after)

theorem statement_loadTokens (h : joints.length ≤ 2) {r : Except Fault Int64}
    (hr : checkedInteger joints.length m = some r) :
    statement (loadTokens joints text m joint after)
      = r.map fun i => (.op (.loadConst (.int i)), after) := by
  have hop : ∀ ts, operation "LOAD_CONST" ts = constant ts := fun _ => rfl
  rw [loadTokens, statement, identifier_word (by decide)]
  dsimp only
  split
  · next heq => cases joints <;> cases heq
  · rw [hop, constant_of_checked h hr]
    cases r <;> rfl

theorem statements_loadTokens (h : joints.length ≤ 2) {r : Except Fault Int64}
    (hr : checkedInteger joints.length m = some r) :
    statements (loadTokens joints text m joint after)
      = r.bind fun i => (statements after).map (.op (.loadConst (.int i)) :: ·) := by
  have hstatement := @statement_loadTokens joints text m joint after h r hr
  have hlength : after.length ≤ (minuses joints ++ .literal text (.numeral (.int m)) ::
      .punct ';' joint :: after).length := by
    simp only [List.length_append, List.length_cons]
    omega
  rw [loadTokens] at hstatement ⊢
  rw [statements, hstatement]
  cases r with
  | error e => rfl
  | ok i => simp only [Except.map, Except.bind, hlength, if_true]

variable {source : String} {ts : Tokens} {ss : List Statement}

theorem statements_of_parse {cs : List Char} {all : List Statement} (htokens : tokens? cs = some ts)
    (h : parse cs = .ok all) : statements ts = .ok all := by
  rw [parse, htokens] at h
  dsimp only at h
  cases hall : statements ts with
  | error e =>
      rw [hall] at h
      cases h
  | ok all' =>
      rw [hall] at h
      dsimp only at h
      repeat' split at h
      · cases h
      · cases h
      · rw [Except.ok.inj h]

/-- What a source constructs, by its statements. -/
theorem construct_eq_ok (htokens : tokens? source.toList = some ts) {texts : List String}
    (h : construct source = .ok texts) :
    ∃ all labels items, statements ts = .ok all ∧
      List.Forall₂ (fun s item => Statement.item labels s = .ok item) all items ∧
        texts = items.map Item.construction := by
  obtain ⟨items, hitems, rfl⟩ := map_eq_ok h
  unfold Embedded.items resolve at hitems
  cases hparse : parse source.toList with
  | error e =>
      rw [hparse] at hitems
      cases hitems
  | ok all =>
      rw [hparse] at hitems
      dsimp only at hitems
      cases hlabels : numberLabels [] all with
      | error e =>
          rw [hlabels] at hitems
          cases hitems
      | ok labels =>
          rw [hlabels] at hitems
          exact ⟨all, labels, items, statements_of_parse htokens hparse,
            mapM_eq_ok_iff.mp hitems, rfl⟩

/-- An integer is loaded at a place of a source, behind some statements. -/
structure Loads (source : String) (ts : Tokens) (ss : List Statement) (after : Tokens) (i : Int64) :
    Prop where
  stated : statements ts = (statements after).map (ss ++ .op (.loadConst (.int i)) :: ·)
  constructed : ∀ texts, construct source = .ok texts →
    texts[ss.length]? = some (construction (.loadConst (.int i)))
  alone : ss = [] → after = [] → construct source = .ok [construction (.loadConst (.int i))]
  denoted : denoted? (construction (.loadConst (.int i))) = some (.loadConst (.int i))

variable (htokens : tokens? source.toList = some ts)
  (hcomes : ComesTo ts ss (loadTokens joints text m joint after)) (hsigns : joints.length ≤ 2)
include htokens hcomes hsigns

theorem loads_integer {i : Int64} (hi : checkedInteger joints.length m = some (.ok i))
    (hportable : -2 ^ 63 < i.toInt) : Loads source ts ss after i := by
  have hstated : statements ts
      = (statements after).map (ss ++ .op (.loadConst (.int i)) :: ·) := by
    rw [hcomes.statements_eq, statements_loadTokens hsigns hi]
    cases statements after <;> simp only [Except.bind, Except.map]
  refine ⟨hstated, ?_, ?_, denoted?_construction hportable⟩
  · intro texts htexts
    obtain ⟨all, labels, items, hall, hitems, rfl⟩ := construct_eq_ok htokens htexts
    rw [hstated] at hall
    obtain ⟨more, -, rfl⟩ := map_eq_ok hall
    have hrel := Listing.getElem?_forall₂ hitems ss.length
    rw [List.getElem?_append_right (Nat.le_refl _), Nat.sub_self, List.getElem?_cons_zero] at hrel
    cases hitem : items[ss.length]? with
    | none =>
        rw [hitem] at hrel
        cases hrel
    | some item =>
        rw [hitem] at hrel
        obtain ⟨hmade⟩ := hrel
        rw [List.getElem?_map, hitem, ← Except.ok.inj hmade]
        rfl
  · rintro rfl rfl
    have hone : statements ts = .ok [.op (.loadConst (.int i))] := by
      rw [hstated, statements]
      rfl
    rw [construct, items, parse, htokens]
    dsimp only
    rw [hone]
    rfl

theorem construct_eq_error {e : Fault} (he : checkedInteger joints.length m = some (.error e)) :
    construct source = .error e := by
  have hstated : statements ts = .error e := by
    rw [hcomes.statements_eq, statements_loadTokens hsigns he]
    rfl
  rw [construct, items, parse, htokens]
  dsimp only
  rw [hstated]
  rfl

end Places

section Shared

theorem ofListing_integer (i : Int64) :
    Code.ofListing (String.ofList (Instruction.loadConst (.int i)).line)
      = .ok (Code.ofInstructions [.loadConst (.int i)]) := by
  have hlegible : ∀ op ∈ [Instruction.loadConst (.int i)], op.Legible := by
    intro op hop
    obtain rfl := List.mem_singleton.mp hop
    exact Value.legible_int i
  have hlabels : labelsSet [Instruction.loadConst (.int i)] = [] := rfl
  refine @Code.ofListing_of_legible (Code.ofInstructions [.loadConst (.int i)]) rfl ?_ ?_ hlegible
  · change (labelsSet [Instruction.loadConst (.int i)]).Nodup
    rw [hlabels]
    exact List.nodup_nil
  · intro op hop l hl
    obtain rfl := List.mem_singleton.mp hop
    cases hl

/-- The signs with which an integer is written. -/
def signsOf (i : Int64) : List Bool := if i.toInt < 0 then [false] else []

theorem signed_signsOf (i : Int64) : signed (signsOf i).length i.toInt.natAbs = i.toInt := by
  unfold signsOf signed
  split
  · simp only [List.length_singleton, pow_one]
    omega
  · simp only [List.length_nil, pow_zero]
    omega

/-- The tokens of the line that loads an integer. -/
theorem tokens?_integer (i : Int64) :
    tokens? ((Instruction.loadConst (.int i)).line ++ [';'])
      = some (loadTokens (signsOf i) (natChars i.toInt.natAbs) i.toInt.natAbs false []) := by
  have hword : Listing.isWord "LOAD_CONST".toList = true := by decide
  have hline : Yields ("LOAD_CONST".toList ++ ' ' :: (Value.int i).chars) _ Parted :=
    (scans_word hword).yields.append (isOperand_int i).yields.blank fun _ _ => Or.inl rfl
  have hscan := yields_semicolon hline [] rfl
  obtain ⟨c, cs, hbegins, hc⟩ := @isWord_begins _ (' ' :: (Value.int i).chars ++ [';']) hword
  change tokens? (("LOAD_CONST".toList ++ ' ' :: (Value.int i).chars) ++ [';']) = _
  rw [List.append_nil, scan?, Option.map_some, List.append_nil] at hscan
  rw [List.append_assoc] at hscan ⊢
  rw [hbegins] at hscan ⊢
  rw [tokens?_leaves hc hscan, loadTokens, signsOf]
  split <;> rfl

/-- The least integer is the only one that is refused as it is listed. -/
theorem construct_integer (i : Int64) :
    construct (String.ofList ((Instruction.loadConst (.int i)).line ++ [';']))
      = if i = Int64.minValue then .error .tooLarge
        else .ok [construction (.loadConst (.int i))] := by
  have htokens : tokens? (String.ofList ((Instruction.loadConst (.int i)).line ++ [';'])).toList
      = some (loadTokens (signsOf i) (natChars i.toInt.natAbs) i.toInt.natAbs false []) := by
    rw [String.toList_ofList, tokens?_integer]
  have hsigns : (signsOf i).length ≤ 2 := by
    unfold signsOf
    split <;> decide
  split
  · next hleast =>
      subst hleast
      exact construct_eq_error htokens .here hsigns (by decide)
  · next hother =>
      have hrange := (fitsWord_neg_iff i).mpr hother
      have hlow := fitsWord_toInt i
      unfold FitsWord at hrange hlow
      have hchecked : checkedInteger (signsOf i).length i.toInt.natAbs = some (.ok i) := by
        rw [checkedInteger_eq hsigns, if_neg (by omega), if_pos (by omega), signed_signsOf,
          Int64.ofInt_toInt]
      exact (loads_integer htokens .here hsigns hchecked (by omega)).alone rfl rfl

end Shared

section Verdict

/-- **The signs of integer constants.**  Wherever an embedded listing loads an integer behind no,
one or two minus signs, the constant is the exact one, with no overflow on the way, and the listing
is refused if no word holds it; save behind signs in front of the magnitude of the least integer,
which is refused behind one sign and overflows behind two.  So every integer is loaded by its line
in a listing, and by the same line in an embedded listing unless it is the least one. -/
theorem integer_constants_exact (joints : List Bool) (m : Nat) (hsigns : joints.length ≤ 2) :
    (∀ (source : String) (ts after : Tokens) (ss : List Statement) (text : List Char)
        (joint : Bool),
      tokens? source.toList = some ts →
      ComesTo ts ss (loadTokens joints text m joint after) →
        (m ≠ 2 ^ 63 ∨ joints = [] →
          (FitsWord (signed joints.length m) →
            ∃ i : Int64, i.toInt = signed joints.length m ∧
              checkedInteger joints.length m = some (.ok i) ∧ Loads source ts ss after i) ∧
          (¬ FitsWord (signed joints.length m) →
            construct source = .error (if joints.length = 2 then .tooSmall else .tooLarge))) ∧
        (m = 2 ^ 63 → joints.length = 1 → construct source = .error .tooLarge)) ∧
    (checkedInteger joints.length m = none ↔ m = 2 ^ 63 ∧ joints.length = 2) ∧
    ∀ i : Int64,
      Code.ofListing (String.ofList (Instruction.loadConst (.int i)).line)
          = .ok (Code.ofInstructions [.loadConst (.int i)]) ∧
        construct (String.ofList ((Instruction.loadConst (.int i)).line ++ [';']))
          = if i = Int64.minValue then .error .tooLarge
            else .ok [construction (.loadConst (.int i))] := by
  have hchecked := checkedInteger_eq hsigns m
  refine ⟨?_, ?_, fun i => ⟨ofListing_integer i, construct_integer i⟩⟩
  · intro source ts after ss text joint htokens hcomes
    refine ⟨fun hregular => ?_, fun hleast hone => ?_⟩
    · have hunsigned := hregular.imp_right (congrArg List.length)
      have hread := checkedInteger_of_regular hsigns hunsigned
      constructor
      · intro hword
        have hvalue := Int64.toInt_ofInt_of_le hword.1 hword.2
        rw [if_pos hword] at hread
        refine ⟨_, hvalue, hread, loads_integer htokens hcomes hsigns hread ?_⟩
        rw [hvalue]
        exact lt_signed hsigns hunsigned hword
      · intro hout
        rw [if_neg hout] at hread
        exact construct_eq_error htokens hcomes hsigns hread
    · rw [hone] at hchecked
      rw [if_neg fun h => absurd h.2 (by decide), if_neg (by omega), if_neg (by decide), ← hone]
        at hchecked
      exact construct_eq_error htokens hcomes hsigns hchecked
  · rw [hchecked]
    split
    · next h => exact iff_of_true rfl h
    · next h =>
        refine iff_of_false ?_ h
        split <;> simp

/-- A negative constant. -/
theorem integer_constants_exact_negative :
    construct "LOAD_CONST -5;"
        = .ok ["::exprwatch::vm::Instruction::LoadConst(::exprwatch::vm::Value::Int(-5i64))"] ∧
      Code.ofListing "LOAD_CONST -5" = .ok (Code.ofInstructions [.loadConst (.int (-5))]) := by
  have hsource : "LOAD_CONST -5;".toList = (Instruction.loadConst (.int (-5))).line ++ [';'] := rfl
  have htokens : tokens? "LOAD_CONST -5;".toList = some (loadTokens [false] ['5'] 5 false []) := by
    rw [hsource]
    exact tokens?_integer (-5)
  obtain ⟨hexact, -, hshared⟩ := integer_constants_exact [false] 5 (by decide)
  obtain ⟨i, hi, -, hloads⟩ :=
    ((hexact _ _ [] [] ['5'] false htokens .here).1 (Or.inl (by decide))).1 (by decide)
  obtain rfl : i = -5 := Int64.toInt_inj.mp hi
  have hlisted : (Instruction.loadConst (.int (-5))).line = "LOAD_CONST -5".toList := rfl
  have hlisting := (hshared (-5)).1
  rw [hlisted, String.ofList_toList] at hlisting
  exact ⟨hloads.alone rfl rfl, hlisting⟩

/-- The least integer is listed, and its line is refused; behind two signs its magnitude is negated
twice, and overflows. -/
theorem least_integer_refused :
    FitsWord (signed 1 (2 ^ 63)) ∧
      Code.ofListing "LOAD_CONST -9223372036854775808"
        = .ok (Code.ofInstructions [.loadConst (.int Int64.minValue)]) ∧
      construct "LOAD_CONST -9223372036854775808;" = .error .tooLarge ∧
      checkedInteger 2 (2 ^ 63) = none := by
  have hsource : String.ofList ((Instruction.loadConst (.int Int64.minValue)).line ++ [';'])
      = "LOAD_CONST -9223372036854775808;" := rfl
  have hrefused := construct_integer Int64.minValue
  rw [hsource, if_pos rfl] at hrefused
  exact ⟨by decide, by cbv, hrefused, by decide⟩

end Verdict

end Embedded
end TrackedExpr
