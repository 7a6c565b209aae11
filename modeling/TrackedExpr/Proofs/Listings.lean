import TrackedExpr.Proofs.Labels
import TrackedExpr.Proofs.Lexing

/-!
# Assembling undoes listing

A line of a listing is scanned as the tokens it was written from, whatever the next line
is, and these tokens are parsed as the instruction.  Labels are written with their
numbers, so that every jump finds the label it was made for.

**Definitions.**
* `Listing.Spells`: the words that are scanned of a text;
* `Instruction.item`: an instruction as it is parsed, its labels still names;
* `Value.Legible`, `Instruction.Legible`: what is read as it is written;
* `Value.Literal`: the constants of a listing.

**Results.**
* `Listing.reads_line`, `Listing.reads_define`, `Listing.reads_jump`: the tokens of one line are
  its item;
* `Listing.read_lines`: the tokens of a listing are its items;
* `Listing.numberLabels_item`, `Listing.resolve_item`: labels keep their numbers;
* `Code.ofListing_of_legible`, `Code.ofListing_listing`: a listing is assembled to the code
  it was written from.
-/

namespace TrackedExpr

section Floats

open Listing

theorem all_isDigit_append {as bs : List Char} (has : ∀ c ∈ as, c.isDigit = true)
    (hbs : ∀ c ∈ bs, c.isDigit = true) : ∀ c ∈ as ++ bs, c.isDigit = true := by
  intro c hc
  rcases List.mem_append.mp hc with hc | hc
  · exact has c hc
  · exact hbs c hc

theorem all_isDigit_zeros (k : Nat) : ∀ c ∈ List.replicate k '0', c.isDigit = true := by
  intro c hc
  obtain ⟨-, rfl⟩ := List.mem_replicate.mp hc
  decide

/-- The digits of a float constant are laid out with a point or an exponent. -/
theorem FloatText.place_literal (d : Decimal) :
    ∃ n : Numeral, n.Proper ∧ FloatText.literal.place d = n.chars := by
  have hdigits := all_isDigit_natChars d.digits
  have hne := natChars_ne_nil d.digits
  simp only [natChars] at hdigits hne
  unfold FloatText.Layout.place
  generalize Nat.toDigits 10 d.digits = ds at hdigits hne
  dsimp only
  split
  · split
    · refine ⟨⟨ds ++ List.replicate d.exponent.toNat '0', ['0'], none⟩, ?_, ?_⟩
      · exact .point (by simp [hne]) (all_isDigit_append hdigits (all_isDigit_zeros _))
          (List.cons_ne_nil _ _) (all_isDigit_zeros 1)
      · rw [Numeral.chars_point _ (List.cons_ne_nil _ _)]
        rfl
    · split
      · next hexponent hleading =>
          -- the point stands inside the digits, since the exponent is negative
          generalize hk : (d.exponent + ds.length - 1).toNat + 1 = k
          have hlt : k < ds.length := by omega
          have hwhole : ds.take k ≠ [] := by
            rw [← List.length_pos_iff, List.length_take]
            omega
          have hfraction : ds.drop k ≠ [] := by
            rw [← List.length_pos_iff, List.length_drop]
            omega
          refine ⟨⟨ds.take k, ds.drop k, none⟩, ?_, (Numeral.chars_point _ hfraction).symm⟩
          exact .point hwhole (fun c hc => hdigits c (List.mem_of_mem_take hc)) hfraction
            fun c hc => hdigits c (List.mem_of_mem_drop hc)
      · generalize (-(d.exponent + ds.length - 1) - 1).toNat = k
        have hfraction : List.replicate k '0' ++ ds ≠ [] := by simp [hne]
        refine ⟨⟨['0'], List.replicate k '0' ++ ds, none⟩, ?_, ?_⟩
        · exact .point (List.cons_ne_nil _ _) (all_isDigit_zeros 1) hfraction
            (all_isDigit_append (all_isDigit_zeros k) hdigits)
        · rw [Numeral.chars_point _ hfraction]
          rfl
  · cases ds with
    | nil => exact absurd rfl hne
    | cons c more =>
        generalize d.exponent + ((c :: more).length : Int) - 1 = leading
        refine ⟨⟨[c], more, some (decide (leading < 0), natChars leading.natAbs)⟩, ?_, ?_⟩
        · constructor
          · exact ⟨by simp, fun e he => hdigits e (by simp_all)⟩
          · exact fun e he => hdigits e (List.mem_cons_of_mem _ he)
          · intro negative ps hps
            cases hps
            exact ⟨natChars_ne_nil _, all_isDigit_natChars _⟩
          · exact Or.inr (by simp)
        · cases more with
          | nil =>
              by_cases hleading : leading < 0 <;>
                simp [Numeral.chars, Numeral.pointChars, Numeral.powerChars, signChars, natChars,
                  hleading]
          | cons e more =>
              by_cases hleading : leading < 0 <;>
                simp [Numeral.chars, Numeral.pointChars, Numeral.powerChars, signChars, natChars,
                  hleading]

/-- The text of a float constant. -/
theorem floatChars_cases (x : Float) :
    floatChars x = ['N', 'a', 'N'] ∨ floatChars x = ['i', 'n', 'f'] ∨
      floatChars x = ['-', 'i', 'n', 'f'] ∨
      ∃ negative, ∃ n : Numeral, n.Proper ∧ floatChars x = signChars negative ++ n.chars := by
  have hzero : Numeral.Proper ⟨['0'], ['0'], none⟩ := by
    constructor
    · exact ⟨by simp, all_isDigit_zeros 1⟩
    · exact all_isDigit_zeros 1
    · intro negative ps hps
      cases hps
    · exact Or.inl (by simp)
  unfold floatChars FloatText.Layout.chars
  dsimp only
  split
  · exact Or.inl rfl
  · right
    generalize FloatText.signBit x = negative
    generalize FloatText.size x = size
    split
    · cases negative
      · exact Or.inl rfl
      · exact Or.inr (Or.inl rfl)
    · right
      right
      split
      · exact ⟨negative, _, hzero, rfl⟩
      · obtain ⟨n, hn, htext⟩ := FloatText.place_literal (Decimal.shortest size)
        exact ⟨negative, n, hn, congrArg _ htext⟩

end Floats

section Legibility

open Listing

/-- A name as a listing writes it: a letter or an underscore, then letters, digits and
underscores. -/
def Listing.isWord : List Char → Bool
  | [] => false
  | c :: rest => startsWord c && rest.all continuesWord

theorem Listing.lexes_isWord {cs : List Char} (h : isWord cs = true) : Lexes .word cs := by
  cases cs with
  | nil => cases h
  | cons c rest =>
      obtain ⟨hc, hrest⟩ := Bool.and_eq_true_iff.mp h
      exact lexes_word hc (List.all_eq_true.mp hrest)

theorem Listing.isWord_label (l : Label) : isWord l.chars = true := by
  have hall : ∀ c ∈ natChars l.number.toNat, continuesWord c = true := by
    intro c hc
    simp [continuesWord, Char.isAlphanum, all_isDigit_natChars _ c hc]
  rw [Label.chars, isWord, List.all_eq_true.mpr hall]
  decide

theorem Listing.isWord_jump (kind : JumpKind) : isWord kind.opname.toList = true := by
  cases kind <;> decide

theorem Listing.isWord_opname (op : Instruction) : isWord op.opname.toList = true := by
  cases op with
  | binary op => cases op <;> decide
  | call form raw =>
      rw [Instruction.opname]
      cases form <;> decide
  | jump kind l => exact isWord_jump kind
  | _ =>
      rw [Instruction.opname]
      decide

/-- A constant is read as it is written. -/
def Value.Legible (v : Value) : Prop :=
  ∃ kind, kind ≠ .colon ∧ Lexes kind v.chars ∧ ∀ start, constant? ⟨kind, v.chars, start⟩ = some v

/-- The constants of a listing: `None`, truth values, integers, floats and texts. -/
def Value.Literal : Value → Prop
  | .none | .bool _ | .int _ | .float _ | .str _ => True
  | _ => False

theorem Value.legible_none : Value.none.Legible :=
  ⟨.word, by decide, lexes_isWord (by decide), fun _ => rfl⟩

theorem Value.legible_bool (b : Bool) : (Value.bool b).Legible := by
  cases b
  · exact ⟨.word, by decide, lexes_isWord (by decide), fun _ => rfl⟩
  · exact ⟨.word, by decide, lexes_isWord (by decide), fun _ => rfl⟩

theorem Listing.intChars_eq (i : Int) : intChars i = signChars (i < 0) ++ natChars i.natAbs := by
  by_cases hi : i < 0
  · simp [intChars, signChars, hi]
  · simp [intChars, signChars, hi]

theorem Listing.constant?_int (text : List Char) (start : Nat) :
    constant? ⟨.int, text, start⟩ = (intOfDigits? text).bind fun i =>
      if Int64.minValue.toInt ≤ i ∧ i ≤ Int64.maxValue.toInt then some (.int (Int64.ofInt i))
      else none := rfl

theorem Listing.constant?_str (text : List Char) (start : Nat) :
    constant? ⟨.str, text, start⟩
      = (Text.unescape? (text.drop 1).dropLast).map fun cs => .str (String.ofList cs) := rfl

theorem Listing.constant?_float (text : List Char) (start : Nat) :
    constant? ⟨.float, text, start⟩ = (FloatText.ofChars? text).map Value.float := rfl

theorem Value.legible_int (i : Int64) : (Value.int i).Legible := by
  have hlexes : Lexes .int (Value.int i).chars := by
    rw [Value.chars_int, intChars_eq]
    exact lexes_int (all_isDigit_natChars _) (natChars_ne_nil _) _
  have hread : ∀ start, constant? ⟨.int, (Value.int i).chars, start⟩ = some (.int i) := by
    intro start
    have hrange := And.intro i.minValue_le_toInt i.toInt_le
    rw [constant?_int, Value.chars_int, intOfDigits?_intChars, Option.bind_some, if_pos hrange,
      Int64.ofInt_toInt]
  exact ⟨.int, by decide, hlexes, hread⟩

theorem Value.legible_str (s : String) : (Value.str s).Legible := by
  have hlexes : Lexes .str (Value.str s).chars := by
    rw [Value.chars_str]
    exact lexes_quote s.toList
  have hread : ∀ start, constant? ⟨.str, (Value.str s).chars, start⟩ = some (.str s) := by
    intro start
    have hinside : ((Text.quote s.toList).drop 1).dropLast = s.toList.flatMap Text.escape := by
      simp [Text.quote]
    rw [constant?_str, Value.chars_str, hinside, Text.unescape?_flatMap, Option.map_some,
      String.ofList_toList]
  exact ⟨.str, by decide, hlexes, hread⟩

/-- There is one float that is not a number. -/
theorem FloatText.eq_notANumber {x : Float} (h : x.isNaN = true) : x = notANumber := by
  obtain ⟨⟨bits, valid⟩⟩ := x
  have hunpack : (Float.Model.UnpackedFloat.unpack .binary64 bits.toBitVec).isNaN = true := h
  have hbits : bits.toBitVec = Float.Model.UnpackedFloat.packedNaN .binary64 := by
    unfold Float.Model.UnpackedFloat.unpack at hunpack
    dsimp only at hunpack
    repeat' split at hunpack
    · cases hunpack
    · next hexponent hmantissa => exact valid.eq_packedNaN hexponent hmantissa
    · cases hunpack
    · cases hunpack
    · cases hunpack
  obtain rfl : bits = UInt64.ofBitVec (Float.Model.UnpackedFloat.packedNaN .binary64) := by
    rw [← hbits]
  rfl

theorem FloatText.ofChars?_notANumber : ofChars? ['N', 'a', 'N'] = some notANumber := by
  unfold ofChars?
  rfl

theorem FloatText.ofChars?_infinity : ofChars? ['i', 'n', 'f'] = some infinity := by
  unfold ofChars?
  rfl

theorem FloatText.ofChars?_negative_infinity :
    ofChars? ['-', 'i', 'n', 'f'] = some (-infinity) := by
  unfold ofChars?
  rfl

/-- A float is read as it is written wherever its decimal text is. -/
theorem Value.legible_float {x : Float} (h : FloatText.ofChars? (floatChars x) = some x) :
    (Value.float x).Legible := by
  unfold Value.Legible
  rw [Value.chars_float]
  rcases floatChars_cases x with htext | htext | htext | ⟨negative, n, hn, htext⟩
  · rw [htext, FloatText.ofChars?_notANumber, Option.some.injEq] at h
    rw [htext, ← h]
    exact ⟨.word, by decide, lexes_isWord (by decide), fun _ => rfl⟩
  · rw [htext, FloatText.ofChars?_infinity, Option.some.injEq] at h
    rw [htext, ← h]
    exact ⟨.word, by decide, lexes_isWord (by decide), fun _ => rfl⟩
  · rw [htext, FloatText.ofChars?_negative_infinity, Option.some.injEq] at h
    rw [htext, ← h]
    exact ⟨.negInf, by decide, lexes_negInf, fun _ => rfl⟩
  · have hlexes : Lexes .float (floatChars x) := by
      rw [htext]
      exact lexes_numeral hn negative
    have hread : ∀ start, constant? ⟨.float, floatChars x, start⟩ = some (.float x) := by
      intro start
      rw [constant?_float, h, Option.map_some]
    exact ⟨.float, by decide, hlexes, hread⟩

/-- A literal is read as it is written; for a number, wherever its decimal text is. -/
theorem Value.Literal.legible {v : Value} (h : v.Literal)
    (hfloat : ∀ x, v = .float x → x.isNaN = false → FloatText.ofChars? (floatChars x) = some x) :
    v.Legible := by
  cases v with
  | none => exact legible_none
  | bool b => exact legible_bool b
  | int i => exact legible_int i
  | str s => exact legible_str s
  | float x =>
      apply legible_float
      cases hnan : x.isNaN with
      | false => exact hfloat x rfl hnan
      | true =>
          obtain rfl := FloatText.eq_notANumber hnan
          exact FloatText.ofChars?_notANumber
  | _ => cases h

end Legibility

section Lines

open Listing

/-- The name under which a label is written. -/
def Label.name (l : Label) : String := String.ofList l.chars

/-- An instruction as it is parsed: its label, if it has one, is still a name. -/
def Instruction.item : Instruction → Item
  | .setLabel l => .define l.name
  | .jump kind l => .jump kind l.name
  | op => .ready op

/-- The operand of an instruction is read as it is written. -/
def Instruction.Legible : Instruction → Prop
  | .loadConst v => v.Legible
  | .loadName n | .loadAttr n => isWord n.toList = true
  | _ => True

/-- A token without its place. -/
def Lexeme.word (t : Lexeme) : TokenKind × List Char := (t.kind, t.text)

namespace Listing

/-- The words that are scanned of a text, whatever is parted from it. -/
def Spells (text : List Char) (words : List (TokenKind × List Char)) : Prop :=
  ∀ rest, Parted rest → ∀ start, ∃ ts stop, ts.map Lexeme.word = words ∧
    scan start (text ++ rest) = (ts ++ (scan stop rest).1, (scan stop rest).2)

theorem Lexes.spells {kind : TokenKind} {text : List Char} (h : Lexes kind text) :
    Spells text [(kind, text)] :=
  fun _ hrest start => ⟨[⟨kind, text, start⟩], _, rfl, scan_lexes h hrest start⟩

theorem Spells.append {a b : List Char} {as bs : List (TokenKind × List Char)} (ha : Spells a as)
    (hb : Spells b bs) (hparted : ∀ rest, Parted (b ++ rest)) : Spells (a ++ b) (as ++ bs) := by
  intro rest hrest start
  obtain ⟨ts, middle, hts, hscan⟩ := ha (b ++ rest) (hparted rest) start
  obtain ⟨us, stop, hus, hscan'⟩ := hb rest hrest middle
  refine ⟨ts ++ us, stop, by rw [List.map_append, hts, hus], ?_⟩
  rw [List.append_assoc, hscan, hscan', List.append_assoc]

theorem Spells.blank {c : Char} (hc : isBlank c = true) {text : List Char}
    {words : List (TokenKind × List Char)} (h : Spells text words) : Spells (c :: text) words := by
  intro rest hrest start
  obtain ⟨ts, stop, hts, hscan⟩ := h rest hrest (start + c.utf8Size)
  exact ⟨ts, stop, hts, by rw [List.cons_append, scan_blank hc, hscan]⟩

section Items

variable {t u : Lexeme} {rest : List Lexeme}

theorem parse_define (ht : t.kind = .word) (hu : u.kind = .colon) (position : Nat) :
    parse position (t :: u :: rest)
      = consItem (.ok (.define (String.ofList t.text))) (parse (position + 2) rest) := by
  rw [parse, if_neg (by simp [ht])]
  simp [hu]

theorem parse_bare {op : Instruction} (ht : t.kind = .word)
    (hop : opcode? (String.ofList t.text) = some (.bare op))
    (hrest : ∀ u ∈ rest.head?, u.kind ≠ .colon) (position : Nat) :
    parse position (t :: rest) = consItem (.ok (.ready op)) (parse (position + 1) rest) := by
  cases rest with
  | nil => simp [parse, ht, hop, consItem, Except.map]
  | cons u rest =>
      have hu : u.kind ≠ .colon := hrest u rfl
      rw [parse, if_neg (by simp [ht])]
      simp [hu, hop]

theorem parse_operand {form : OpcodeForm} (ht : t.kind = .word) (hu : u.kind ≠ .colon)
    (hform : opcode? (String.ofList t.text) = some form) (hbare : ∀ op, form ≠ .bare op)
    (position : Nat) :
    parse position (t :: u :: rest)
      = consItem (readOperand form (position + 1) u) (parse (position + 2) rest) := by
  rw [parse, if_neg (by simp [ht])]
  simp only [if_neg hu, hform]

end Items

/-- A line is scanned and parsed as one item, whatever line comes after it. -/
structure Reads (line : List Char) (item : Item) (words : List (TokenKind × List Char)) :
    Prop where
  spells : Spells line words
  begins : ∃ name more, words = (.word, name) :: more
  parse : ∀ {ts rest : List Lexeme}, ts.map Lexeme.word = words →
    (∀ u ∈ rest.head?, u.kind ≠ .colon) → ∀ position,
      parse position (ts ++ rest) = consItem (.ok item) (parse (position + ts.length) rest)

theorem reads_define {name : List Char} (hname : isWord name = true) :
    Reads (name ++ [':']) (.define (String.ofList name)) [(.word, name), (.colon, [':'])] where
  spells := (lexes_isWord hname).spells.append lexes_colon.spells fun _ => Or.inr (Or.inr rfl)
  begins := ⟨_, _, rfl⟩
  parse := by
    intro ts rest hts _ position
    obtain ⟨t, us, rfl, ht, hus⟩ := List.map_eq_cons_iff.mp hts
    obtain ⟨u, vs, rfl, hu, hvs⟩ := List.map_eq_cons_iff.mp hus
    obtain rfl := List.map_eq_nil_iff.mp hvs
    rw [List.cons_append, List.cons_append, List.nil_append,
      parse_define (congrArg Prod.fst ht) (congrArg Prod.fst hu),
      show t.text = name from congrArg Prod.snd ht]
    rfl

theorem reads_bare {op : Instruction} (hname : isWord op.opname.toList = true)
    (hop : opcode? op.opname = some (.bare op)) :
    Reads op.opname.toList (.ready op) [(.word, op.opname.toList)] where
  spells := (lexes_isWord hname).spells
  begins := ⟨_, _, rfl⟩
  parse := by
    intro ts rest hts hrest position
    obtain ⟨t, us, rfl, ht, hus⟩ := List.map_eq_cons_iff.mp hts
    obtain rfl := List.map_eq_nil_iff.mp hus
    have htext : t.text = op.opname.toList := congrArg Prod.snd ht
    exact parse_bare (congrArg Prod.fst ht) (by rw [htext, String.ofList_toList, hop]) hrest position

theorem reads_operand {name : String} {form : OpcodeForm} {kind : TokenKind} {text : List Char}
    {item : Item} (hname : isWord name.toList = true) (hform : opcode? name = some form)
    (hbare : ∀ op, form ≠ .bare op) (hkind : kind ≠ .colon) (htext : Lexes kind text)
    (hread : ∀ position start, readOperand form position ⟨kind, text, start⟩ = .ok item) :
    Reads (name.toList ++ ' ' :: text) item [(.word, name.toList), (kind, text)] where
  spells := (lexes_isWord hname).spells.append (htext.spells.blank (by decide))
    fun _ => Or.inl rfl
  begins := ⟨_, _, rfl⟩
  parse := by
    intro ts rest hts _ position
    obtain ⟨t, us, rfl, ht, hus⟩ := List.map_eq_cons_iff.mp hts
    obtain ⟨u, vs, rfl, hu, hvs⟩ := List.map_eq_cons_iff.mp hus
    obtain rfl := List.map_eq_nil_iff.mp hvs
    have hukind : u.kind = kind := congrArg Prod.fst hu
    have hutext : u.text = text := congrArg Prod.snd hu
    have hutoken : u = ⟨kind, text, u.start⟩ := by
      rw [← hukind, ← hutext]
    have htname : t.text = name.toList := congrArg Prod.snd ht
    rw [List.cons_append, List.cons_append, List.nil_append,
      parse_operand (congrArg Prod.fst ht) (by rw [hukind]; exact hkind)
        (by rw [htname, String.ofList_toList, hform]) hbare, hutoken, hread]
    rfl

theorem lexes_natChars (n : Nat) : Lexes .int (natChars n) :=
  lexes_int (all_isDigit_natChars n) (natChars_ne_nil n) false

theorem readCount_natChars (n : UInt64) (position start : Nat) :
    readCount position ⟨.int, natChars n.toNat, start⟩ = .ok n := by
  have hlt := n.toNat_lt_size
  have hcount : count? ⟨.int, natChars n.toNat, start⟩ = some n := by
    rw [count?, natOfDigits?_natChars, below?, Option.filter_some, if_pos (decide_eq_true hlt),
      Option.map_some, UInt64.ofNat_toNat]
  simp [readCount, hcount]

theorem operand?_operandChars (raw : UInt16) (start : Nat) :
    operand? ⟨.hex, Instruction.operandChars raw, start⟩ = some raw := by
  have hlt := raw.toNat_lt_size
  rw [operand?]
  simp only [natOfHexDigits_operand, below?, Option.filter_some]
  rw [if_pos (decide_eq_true hlt), Option.map_some, UInt16.ofNat_toNat]

theorem reads_jump (kind : JumpKind) {name : List Char} (hname : isWord name = true) :
    Reads (kind.opname.toList ++ ' ' :: name) (.jump kind (String.ofList name))
      [(.word, kind.opname.toList), (.word, name)] := by
  have hform : opcode? kind.opname = some (.jump kind) := by cases kind <;> rfl
  refine reads_operand (isWord_jump kind) hform (by simp) (by decide) (lexes_isWord hname) ?_
  intro position start
  simp [readOperand, wordText, Except.map]

/-- **A line is read as the instruction it was written from.** -/
theorem reads_line {op : Instruction} (h : op.Legible) : ∃ words, Reads op.line op.item words := by
  have hname := isWord_opname op
  cases op with
  | setLabel l => exact ⟨_, reads_define (isWord_label l)⟩
  | loadConst v =>
      obtain ⟨kind, hkind, hlexes, hread⟩ := h
      refine ⟨_, reads_operand hname rfl (by simp) hkind hlexes ?_⟩
      intro position start
      simp only [readOperand, hread]
      rfl
  | loadName n =>
      refine ⟨_, reads_operand hname rfl (by simp) (by decide) (lexes_isWord h) ?_⟩
      intro position start
      simp [readOperand, wordText, Except.map, Instruction.item]
  | loadAttr n =>
      refine ⟨_, reads_operand hname rfl (by simp) (by decide) (lexes_isWord h) ?_⟩
      intro position start
      simp [readOperand, wordText, Except.map, Instruction.item]
  | buildTuple n =>
      refine ⟨_, reads_operand hname rfl (by simp) (by decide) (lexes_natChars _) ?_⟩
      intro position start
      simp [readOperand, readCount_natChars, Except.map, Instruction.item]
  | unpackSequence n =>
      refine ⟨_, reads_operand hname rfl (by simp) (by decide) (lexes_natChars _) ?_⟩
      intro position start
      simp [readOperand, readCount_natChars, Except.map, Instruction.item]
  | compare op =>
      have hword : isWord op.mnemonic.toList = true := by cases op <;> decide
      have hop : CompareOp.ofMnemonic? op.mnemonic = some op := by cases op <;> rfl
      refine ⟨_, reads_operand hname rfl (by simp) (by decide) (lexes_isWord hword) ?_⟩
      intro position start
      simp [readOperand, wordText, hop, Instruction.item]
  | call form raw =>
      have hform : opcode? form.opname = some (.call form) := by cases form <;> rfl
      refine ⟨_, reads_operand hname hform (by simp) (by decide) (lexes_hex raw) ?_⟩
      intro position start
      simp [readOperand, operand?_operandChars, Instruction.item]
  | jump kind l => exact ⟨_, reads_jump kind (isWord_label l)⟩
  | binary op => cases op <;> exact ⟨_, reads_bare hname rfl⟩
  | _ => exact ⟨_, reads_bare hname rfl⟩

theorem joinChars_cons (separator t : List Char) {ts : List (List Char)} (h : ts ≠ []) :
    joinChars separator (t :: ts) = t ++ (separator ++ joinChars separator ts) := by
  cases ts with
  | nil => exact absurd rfl h
  | cons u us =>
      rw [joinChars, List.append_assoc]
      exact fun hnil => h hnil

theorem reads_head {line : List Char} {item : Item} {words : List (TokenKind × List Char)}
    (h : Reads line item words) {ts : List Lexeme} (hts : ts.map Lexeme.word = words)
    (rest : List Lexeme) : ∀ u ∈ (ts ++ rest).head?, u.kind ≠ .colon := by
  obtain ⟨name, more, rfl⟩ := h.begins
  obtain ⟨t, us, rfl, ht, -⟩ := List.map_eq_cons_iff.mp hts
  have hkind : t.kind = .word := congrArg Prod.fst ht
  intro u hu
  obtain rfl : t = u := Option.some.inj hu
  rw [hkind]
  decide

/-- **Lines are read as the items they were written from.** -/
theorem read_lines {α : Type} {line : α → List Char} {item : α → Item} {xs : List α}
    (h : ∀ x ∈ xs, ∃ words, Reads (line x) (item x) words) :
    ∀ start, ∃ ts, scan start (joinChars ['\n'] (xs.map line)) = (ts, none) ∧
      (∀ u ∈ ts.head?, u.kind ≠ .colon) ∧
      ∀ position, parse position ts = .ok (xs.map item) := by
  induction xs with
  | nil =>
      intro start
      refine ⟨[], by rw [List.map_nil, joinChars, scan], by simp, fun position => ?_⟩
      rw [parse, List.map_nil]
  | cons x xs ih =>
      intro start
      obtain ⟨words, hreads⟩ := h x List.mem_cons_self
      have htail := ih fun y hy => h y (List.mem_cons_of_mem _ hy)
      cases xs with
      | nil =>
          obtain ⟨ts, stop, hts, hscan⟩ := hreads.spells [] trivial start
          rw [List.append_nil] at hscan
          refine ⟨ts, ?_, ?_, fun position => ?_⟩
          · rw [List.map_cons, List.map_nil, joinChars, hscan, scan, List.append_nil]
          · have hhead := reads_head hreads hts []
            rwa [List.append_nil] at hhead
          · have hparse := @Reads.parse _ _ _ hreads ts [] hts (by simp) position
            rw [List.append_nil] at hparse
            rw [hparse, parse]
            rfl
      | cons y xs =>
          have hline : ∀ text : List Char, Parted ('\n' :: text) := fun _ => Or.inr (Or.inl rfl)
          obtain ⟨ts, stop, hts, hscan⟩ := hreads.spells _ (hline _) start
          obtain ⟨us, hscan', hhead, hparse⟩ := htail (stop + '\n'.utf8Size)
          refine ⟨ts ++ us, ?_, reads_head hreads hts us, fun position => ?_⟩
          · rw [List.map_cons, joinChars_cons _ _ (by simp), List.singleton_append, hscan,
              scan_blank (by decide), hscan']
          · rw [hreads.parse hts hhead, hparse]
            rfl

end Listing

end Lines

section Names

theorem Label.name_injective : Function.Injective Label.name :=
  fun _ _ h => label_chars_injective (String.ofList_injective h)

namespace Listing

theorem labelNumber?_name (l : Label) : labelNumber? l.name.toList = some l.number.toNat := by
  rw [Label.name, String.toList_ofList, labelNumber?_chars]

theorem definedNames_item (ops : List Instruction) :
    definedNames (ops.map Instruction.item) = (labelsSet ops).map Label.name := by
  induction ops with
  | nil => rfl
  | cons op ops ih =>
      cases op with
      | setLabel l => exact congrArg (l.name :: ·) ih
      | _ => exact ih

/-- Names repeat none where they are all different, and none was seen before. -/
theorem firstRepeated?_eq_none {names : List String} : ∀ {seen : List String},
    firstRepeated? seen names = none ↔ names.Nodup ∧ ∀ n ∈ names, n ∉ seen := by
  induction names with
  | nil => simp [firstRepeated?]
  | cons name rest ih =>
      intro seen
      by_cases hname : name ∈ seen
      · simp [firstRepeated?, hname]
      · rw [firstRepeated?, if_neg hname, ih, List.nodup_cons]
        simp only [List.mem_append, List.mem_cons]
        grind

/-- A label that is written with its number keeps it. -/
theorem assign_name (next : Option Nat) (ls : List Label) :
    assign next (ls.map Label.name) = .ok (ls.map fun l => (l.name, l)) := by
  induction ls with
  | nil => rfl
  | cons l ls ih =>
      simp only [List.map_cons, assign, labelNumber?_name, ih, Except.map, UInt32.ofNat_toNat]

theorem numberLabels_item {ops : List Instruction} (h : (labelsSet ops).Nodup) :
    numberLabels (ops.map Instruction.item)
      = .ok ((labelsSet ops).map fun l => (l.name, l)) := by
  have hrepeated : firstRepeated? [] ((labelsSet ops).map Label.name) = none :=
    firstRepeated?_eq_none.mpr ⟨h.map Label.name_injective, by simp⟩
  simp only [numberLabels, definedNames_item, hrepeated, assign_name]

theorem labelOf_name {l : Label} {ls : List Label} (h : l ∈ ls) :
    labelOf (ls.map fun k => (k.name, k)) l.name = .ok l := by
  induction ls with
  | nil => cases h
  | cons k ls ih =>
      by_cases hk : k.name = l.name
      · obtain rfl := Label.name_injective hk
        simp [labelOf, Assoc.get?]
      · have hne : l ≠ k := fun heq => hk (congrArg Label.name heq.symm)
        have htail := ih ((List.mem_cons.mp h).resolve_left hne)
        simpa [labelOf, Assoc.get?, hk] using htail

/-- Every instruction gets its own labels back. -/
theorem resolve_item {op : Instruction} {ls : List Label} (hset : ∀ l, op = .setLabel l → l ∈ ls)
    (htarget : ∀ l, op.target? = some l → l ∈ ls) :
    resolve (ls.map fun l => (l.name, l)) op.item = .ok op := by
  cases op with
  | setLabel l =>
      rw [Instruction.item, resolve, labelOf_name (hset l rfl)]
      rfl
  | jump kind l =>
      rw [Instruction.item, resolve, labelOf_name (htarget l rfl)]
      rfl
  | _ => rfl

theorem mapM_resolve {labels : List (String × Label)} {ops : List Instruction}
    (h : ∀ op ∈ ops, resolve labels op.item = .ok op) :
    (ops.map Instruction.item).mapM (resolve labels) = .ok ops := by
  induction ops with
  | nil => rfl
  | cons op ops ih =>
      rw [List.map_cons, List.mapM_cons, h op List.mem_cons_self,
        ih fun o ho => h o (List.mem_cons_of_mem _ ho)]
      rfl

end Listing

end Names

section Assembling

open Listing

variable {c : Code}

/-- Code whose operands can all be read is assembled from its listing. -/
theorem Code.ofListing_of_legible (hname : c.name = Code.defaultName)
    (hlabels : (labelsSet c.instructions).Nodup)
    (htargets : ∀ op ∈ c.instructions, ∀ l, op.target? = some l → l ∈ labelsSet c.instructions)
    (hlegible : ∀ op ∈ c.instructions, op.Legible) : Code.ofListing c.listing = .ok c := by
  obtain ⟨ts, hscan, -, hparse⟩ := read_lines (fun op hop => reads_line (hlegible op hop)) 0
  have htokens : tokens c.chars = .ok ts := by
    rw [tokens, Code.chars, hscan]
  have hresolve : (c.instructions.map Instruction.item).mapM
      (resolve ((labelsSet c.instructions).map fun l => (l.name, l))) = .ok c.instructions := by
    apply mapM_resolve
    intro op hop
    apply resolve_item
    · rintro l rfl
      obtain ⟨i, hi⟩ := List.mem_iff_getElem?.mp hop
      exact mem_labelsSet.mpr ⟨i, hi⟩
    · exact htargets op hop
  have hassemble : assemble c.chars = .ok c.instructions := by
    rw [assemble, htokens]
    change (parse 0 ts >>= _) = _
    rw [hparse 0]
    change (numberLabels (c.instructions.map Instruction.item) >>= _) = _
    rw [numberLabels_item hlabels]
    exact hresolve
  rw [Code.ofListing, Code.listing, String.toList_ofList, hassemble, Except.map, Code.ofInstructions,
    ← hname]

/-- **Assembling undoes listing**: code under the default name, with labels that are set once
and jumps to these, with names that a listing can write and constants that are literals, is
assembled from its listing.  Of the decimal text of a float this takes that it reads back. -/
theorem Code.ofListing_listing (hname : c.name = Code.defaultName)
    (hlabels : (labelsSet c.instructions).Nodup)
    (htargets : ∀ op ∈ c.instructions, ∀ l, op.target? = some l → l ∈ labelsSet c.instructions)
    (hnames : ∀ n, Instruction.loadName n ∈ c.instructions ∨ Instruction.loadAttr n ∈ c.instructions →
      isWord n.toList = true)
    (hconstants : ∀ v ∈ c.constants, v.Literal)
    (hfloats : ∀ x, .float x ∈ c.constants → x.isNaN = false →
      FloatText.ofChars? (floatChars x) = some x) :
    Code.ofListing c.listing = .ok c := by
  apply Code.ofListing_of_legible hname hlabels htargets
  intro op hop
  cases op with
  | loadConst v =>
      have hv : v ∈ c.constants := List.mem_filterMap.mpr ⟨_, hop, rfl⟩
      apply (hconstants v hv).legible
      rintro x rfl
      exact hfloats x hv
  | loadName n => exact hnames n (Or.inl hop)
  | loadAttr n => exact hnames n (Or.inr hop)
  | _ => trivial

/-- A branch on a quoted text, with a fraction and a negative number as its outcomes. -/
def score : Code := Code.ofInstructions
  [ .loadName "order",
    .loadAttr "state",
    .loadConst (.str "\"open\"\n"),
    .compare .eq,
    .jump .popIfFalse ⟨7⟩,
    .loadConst (.float 0.5),
    .returnValue,
    .setLabel ⟨7⟩,
    .loadConst (.int (-3)),
    .returnValue ]

theorem ofListing_listing_score : Code.ofListing score.listing = .ok score := by
  have hlabels : labelsSet score.instructions = [⟨7⟩] := rfl
  have hconstants : score.constants = [.str "\"open\"\n", .float 0.5, .int (-3)] := rfl
  apply Code.ofListing_listing rfl
  · rw [hlabels]
    decide
  · rw [hlabels]
    simp [score, Code.ofInstructions, Instruction.target?]
  · intro n hn
    simp only [score, Code.ofInstructions, List.mem_cons, List.not_mem_nil, or_false,
      Instruction.loadName.injEq, Instruction.loadAttr.injEq, reduceCtorEq, false_or] at hn
    rcases hn with rfl | rfl <;> decide
  · rw [hconstants]
    simp [Value.Literal]
  · rw [hconstants]
    intro x hx _
    simp only [List.mem_cons, Value.float.injEq, reduceCtorEq, false_or, List.not_mem_nil,
      or_false] at hx
    rw [hx]
    decide +kernel

end Assembling

end TrackedExpr
