import TrackedExpr.Proofs.Assembling

/-!
# The escapes of quoted text

What stands between the quotes of a text constant is a sequence of characters and escapes.  The
reader accepts all of these, and two forms of a code point beyond them: one with a plus sign in
front of its digits, and one that the end of the text closes in the place of its brace.

**Definitions.**
* `Text.letters`, `Text.IsCodePoint`: the escapes by a letter and by a code point;
* `Text.Irregularity`, `Text.Denotes`: what the inside of a quoted text denotes, and what is
  irregular about it.

**Results.**
* `Text.hexNumber?_eq_some_iff`, `Text.unescape?_eq_some_iff`: what is read;
* `Text.Denotes.unique`, `Text.read_as_meant_iff`: a text is irregular in one way only;
* `Listing.parse_loadConst`, `Listing.getElem?_loadConst`: a constant loaded behind other items;
* `Listing.quoted_text_exact`: which texts can be loaded, and what becomes of the others.
-/

namespace TrackedExpr

namespace Text

section Grammar

/-- The letters that stand for a character behind a backslash. -/
def letters : List (Char × Char) :=
  [('n', '\n'), ('r', '\r'), ('t', '\t'), ('0', '\x00'), ('\\', '\\'), ('"', '"'), ('\'', '\'')]

/-- Hexadecimal digits, one at least, that make the code point of a character. -/
structure IsCodePoint (ds : List Char) (c : Char) : Prop where
  nonempty : ds ≠ []
  digits : ∀ d ∈ ds, Listing.isHexDigit d = true
  value : Listing.natOfHexDigits ds = c.toNat

/-- What may be wrong with the escape of a code point. -/
inductive Irregularity
  /-- a plus sign stands in front of the digits -/
  | signed
  /-- the text ends in the place of the closing brace -/
  | unclosed
deriving DecidableEq

/-- The irregularity of a sign, if there is one. -/
def signIrregularity (sign : Bool) : List Irregularity := if sign then [.signed] else []

/-- Digits, with a plus sign in front of them or without. -/
def signedDigits (sign : Bool) (ds : List Char) : List Char := if sign then '+' :: ds else ds

/-- What the inside of a quoted text denotes.  It is made of characters other than the backslash,
of letters behind a backslash, and of code points in braces; what is irregular about these comes
along in order. -/
inductive Denotes : List Irregularity → List Char → List Char → Prop
  | done : Denotes [] [] []
  | plain {os : List Irregularity} {c : Char} {cs s : List Char} :
      c ≠ '\\' → Denotes os cs s → Denotes os (c :: cs) (c :: s)
  | letter {os : List Irregularity} {l c : Char} {cs s : List Char} :
      (l, c) ∈ letters → Denotes os cs s → Denotes os ('\\' :: l :: cs) (c :: s)
  | codePoint {os : List Irregularity} {sign : Bool} {ds : List Char} {c : Char}
      {cs s : List Char} :
      IsCodePoint ds c → Denotes os cs s →
        Denotes (signIrregularity sign ++ os)
          ('\\' :: 'u' :: '{' :: (signedDigits sign ds ++ '}' :: cs)) (c :: s)
  | unclosed {sign : Bool} {ds : List Char} {c : Char} :
      IsCodePoint ds c →
        Denotes (signIrregularity sign ++ [.unclosed])
          ('\\' :: 'u' :: '{' :: signedDigits sign ds) [c]

end Grammar

section CodePoints

/-- The value of a hexadecimal digit. -/
def digitValue (c : Char) : Nat :=
  if c.isDigit then c.toNat - '0'.toNat else c.toLower.toNat - 'a'.toNat + 10

theorem hexDigit?_eq (c : Char) :
    hexDigit? c = if Listing.isHexDigit c then some (digitValue c) else none := by
  by_cases hc : c.toNat < 128
  · have hall : ∀ k < 128, hexDigit? (Char.ofNat k)
        = if Listing.isHexDigit (Char.ofNat k) then some (digitValue (Char.ofNat k)) else none := by
      decide
    simpa using hall c.toNat hc
  · -- beyond ASCII there are no digits
    have habove : ∀ d : Char, d.toNat < 128 → ¬ c ≤ d := by
      intro d hd hle
      rw [Char.le_def, UInt32.le_iff_toNat_le] at hle
      exact absurd (Nat.lt_of_le_of_lt hle hd) hc
    have hdigit : c.isDigit = false := by
      rw [← Bool.not_eq_true, Char.isDigit_iff_toNat]
      intro h
      exact hc (Nat.lt_of_le_of_lt h.2 (by decide))
    simp [hexDigit?, Listing.isHexDigit, hdigit, habove '9' (by decide), habove 'f' (by decide),
      habove 'F' (by decide)]

theorem isHexDigit_plus : Listing.isHexDigit '+' = false := by decide

theorem isHexDigit_brace : Listing.isHexDigit '}' = false := by decide

/-- Digits are read as their value. -/
theorem hexDigits?_eq_some_iff {ds : List Char} : ∀ {start n : Nat},
    hexDigits? start ds = some n ↔
      (∀ d ∈ ds, Listing.isHexDigit d = true) ∧
        ds.foldl (fun m d => 16 * m + digitValue d) start = n := by
  induction ds with
  | nil =>
      intro start n
      simp [hexDigits?]
  | cons d ds ih =>
      intro start n
      rw [hexDigits?, hexDigit?_eq]
      cases hd : Listing.isHexDigit d with
      | false => simp [hd]
      | true =>
          simp only [if_true, ih, List.foldl_cons, List.forall_mem_cons, hd, true_and]

theorem foldl_digitValue (ds : List Char) :
    ds.foldl (fun m d => 16 * m + digitValue d) 0 = Listing.natOfHexDigits ds := rfl

/-- A hexadecimal number may have a plus sign. -/
theorem hexNumber?_eq_some_iff {cs : List Char} {n : Nat} :
    hexNumber? cs = some n ↔
      ∃ sign ds, cs = signedDigits sign ds ∧ ds ≠ [] ∧ hexDigits? 0 ds = some n := by
  have hplus : ∀ ds, hexDigits? 0 ('+' :: ds) = none := fun ds => by
    rw [hexDigits?, hexDigit?_eq, isHexDigit_plus]
    rfl
  constructor
  · intro h
    unfold hexNumber? at h
    split at h
    · cases h
    · cases h
    · next ds hds =>
        refine ⟨true, ds, rfl, ?_, h⟩
        rintro rfl
        exact hds rfl
    · next hne _ _ => exact ⟨false, cs, rfl, hne, h⟩
  · rintro ⟨sign, ds, rfl, hne, hvalue⟩
    cases sign with
    | true =>
        cases ds with
        | nil => exact absurd rfl hne
        | cons d ds => exact hvalue
    | false =>
        cases ds with
        | nil => exact absurd rfl hne
        | cons d ds =>
            rw [signedDigits, if_neg Bool.false_ne_true]
            unfold hexNumber?
            split
            · next heq => cases heq
            · next heq =>
                cases heq
                rw [hplus] at hvalue
                cases hvalue
            · next heq =>
                cases heq
                rw [hplus] at hvalue
                cases hvalue
            · exact hvalue

theorem ofCodePoint?_eq_some_iff {n : Nat} {c : Char} : ofCodePoint? n = some c ↔ n = c.toNat := by
  constructor
  · intro h
    unfold ofCodePoint? at h
    split at h
    · next hvalid =>
        obtain rfl := Option.some.inj h
        rw [Char.ofNat, dif_pos hvalid]
        rfl
    · cases h
  · rintro rfl
    exact ofCodePoint?_toNat c

/-- What stands between the braces of a code point. -/
theorem codePoint_eq_some_iff {cs : List Char} {c : Char} :
    (hexNumber? cs).bind ofCodePoint? = some c ↔
      ∃ sign ds, cs = signedDigits sign ds ∧ IsCodePoint ds c := by
  rw [Option.bind_eq_some_iff]
  simp only [ofCodePoint?_eq_some_iff, hexNumber?_eq_some_iff, hexDigits?_eq_some_iff,
    foldl_digitValue]
  constructor
  · rintro ⟨n, ⟨sign, ds, rfl, hne, hdigits, rfl⟩, hvalue⟩
    exact ⟨sign, ds, rfl, hne, hdigits, hvalue⟩
  · rintro ⟨sign, ds, rfl, h⟩
    exact ⟨_, ⟨sign, ds, rfl, h.nonempty, h.digits, h.value⟩, rfl⟩

theorem IsCodePoint.ne_brace {sign : Bool} {ds : List Char} {c : Char} (h : IsCodePoint ds c) :
    ∀ d ∈ signedDigits sign ds, d ≠ '}' := by
  have hdigits : ∀ d ∈ ds, d ≠ '}' := by
    rintro d hd rfl
    have hbrace := h.digits _ hd
    rw [isHexDigit_brace] at hbrace
    cases hbrace
  cases sign with
  | false => exact hdigits
  | true =>
      rintro d (_ | ⟨_, hd⟩)
      · decide
      · exact hdigits d hd

end CodePoints

section Reading

theorem ofEscapeLetter?_eq_some_iff {l c : Char} :
    ofEscapeLetter? l = some c ↔ (l, c) ∈ letters := by
  constructor
  · intro h
    unfold ofEscapeLetter? at h
    repeat' split at h
    all_goals cases h
    all_goals
      subst l
      decide
  · intro h
    have hall : ∀ e ∈ letters, ofEscapeLetter? e.1 = some e.2 := by decide
    exact hall _ h

theorem ne_u_of_mem_letters {l c : Char} (h : (l, c) ∈ letters) : l ≠ 'u' := by
  have hall : ∀ e ∈ letters, e.1 ≠ 'u' := by decide
  exact hall _ h

theorem span_closed {number : List Char} (h : ∀ d ∈ number, d ≠ '}') (rest : List Char) :
    (number ++ '}' :: rest).takeWhile (· ≠ '}') = number ∧
      (number ++ '}' :: rest).dropWhile (· ≠ '}') = '}' :: rest := by
  have hall : ∀ d ∈ number, decide (d ≠ '}') = true := fun d hd => decide_eq_true (h d hd)
  rw [List.takeWhile_append_of_pos hall, List.dropWhile_append_of_pos hall]
  simp

theorem span_open {number : List Char} (h : ∀ d ∈ number, d ≠ '}') :
    number.takeWhile (· ≠ '}') = number ∧ number.dropWhile (· ≠ '}') = [] := by
  have hall : ∀ d ∈ number, decide (d ≠ '}') = true := fun d hd => decide_eq_true (h d hd)
  exact ⟨List.takeWhile_eq_self_iff.mpr hall, List.dropWhile_eq_nil_iff.mpr hall⟩

/-- A code point with its braces. -/
theorem unescape?_closed {number : List Char} {c : Char} (hbrace : ∀ d ∈ number, d ≠ '}')
    (hc : (hexNumber? number).bind ofCodePoint? = some c) (rest : List Char) :
    unescape? ('\\' :: 'u' :: '{' :: (number ++ '}' :: rest))
      = (unescape? rest).map (c :: ·) := by
  obtain ⟨hnumber, hrest⟩ := span_closed hbrace rest
  rw [unescape?, hnumber, hrest, hc]
  rfl

/-- A code point at the end of the text. -/
theorem unescape?_open {number : List Char} {c : Char} (hbrace : ∀ d ∈ number, d ≠ '}')
    (hc : (hexNumber? number).bind ofCodePoint? = some c) :
    unescape? ('\\' :: 'u' :: '{' :: number) = some [c] := by
  obtain ⟨hnumber, hrest⟩ := span_open hbrace
  rw [unescape?, hnumber, hrest, hc]
  simp [unescape?]

/-- What denotes a text is read as it. -/
theorem Denotes.unescape? {os : List Irregularity} {body s : List Char} (h : Denotes os body s) :
    unescape? body = some s := by
  induction h with
  | done => rw [Text.unescape?]
  | plain hc _ ih => rw [unescape?_plain hc, ih, Option.map_some]
  | letter hl _ ih =>
      rw [unescape?_letter (ofEscapeLetter?_eq_some_iff.mpr hl) (ne_u_of_mem_letters hl), ih,
        Option.map_some]
  | codePoint hds _ ih =>
      rw [unescape?_closed hds.ne_brace (codePoint_eq_some_iff.mpr ⟨_, _, rfl, hds⟩), ih,
        Option.map_some]
  | unclosed hds =>
      exact unescape?_open hds.ne_brace (codePoint_eq_some_iff.mpr ⟨_, _, rfl, hds⟩)

/-- What is read denotes what it is read as. -/
theorem exists_denotes {body s : List Char} (h : unescape? body = some s) :
    ∃ os, Denotes os body s := by
  fun_induction unescape? body generalizing s with
  | case1 =>
      obtain rfl := Option.some.inj h
      exact ⟨[], .done⟩
  | case2 => cases h
  | case3 rest c hc ih =>
      obtain ⟨t, ht, rfl⟩ := Option.map_eq_some_iff.mp h
      obtain ⟨sign, ds, hnumber, hds⟩ := codePoint_eq_some_iff.mp hc
      have hsplit := List.takeWhile_append_dropWhile (p := fun d => decide (d ≠ '}')) (l := rest)
      rw [hnumber] at hsplit
      cases hrest : rest.dropWhile (fun d => decide (d ≠ '}')) with
      | nil =>
          rw [hrest] at hsplit ht
          rw [List.drop_nil, Text.unescape?, Option.some.injEq] at ht
          rw [← hsplit, ← ht, List.append_nil]
          exact ⟨_, .unclosed hds⟩
      | cons d more =>
          have hd : d = '}' := by
            have hne : rest.dropWhile (fun d => decide (d ≠ '}')) ≠ [] := by
              rw [hrest]
              exact List.cons_ne_nil _ _
            have hhead := List.head_dropWhile_not _ hne
            simp only [hrest, List.head_cons] at hhead
            simpa using hhead
          rw [hrest] at hsplit ht ih
          obtain ⟨os, hos⟩ := ih ht
          rw [← hsplit, hd]
          exact ⟨_, .codePoint hds hos⟩
  | case4 => cases h
  | case5 l rest hu c hc ih =>
      obtain ⟨t, ht, rfl⟩ := Option.map_eq_some_iff.mp h
      obtain ⟨os, hos⟩ := ih ht
      exact ⟨os, .letter (ofEscapeLetter?_eq_some_iff.mp hc) hos⟩
  | case6 => cases h
  | case7 c rest h1 h2 h3 ih =>
      obtain ⟨t, ht, rfl⟩ := Option.map_eq_some_iff.mp h
      obtain ⟨os, hos⟩ := ih ht
      refine ⟨os, .plain ?_ hos⟩
      rintro rfl
      cases rest with
      | nil => exact h1 rfl rfl
      | cons l rest => exact h3 l rest rfl rfl

/-- What is read of the inside of a quoted text. -/
theorem unescape?_eq_some_iff {body s : List Char} :
    unescape? body = some s ↔ ∃ os, Denotes os body s :=
  ⟨exists_denotes, fun ⟨_, h⟩ => h.unescape?⟩

theorem unescape?_eq_none {body : List Char} (h : ∀ os s, ¬ Denotes os body s) :
    unescape? body = none := by
  rw [Option.eq_none_iff_forall_ne_some]
  intro s hs
  obtain ⟨os, hos⟩ := unescape?_eq_some_iff.mp hs
  exact h os s hos

end Reading

section Uniqueness

theorem signIrregularity_congr {sign sign' : Bool} {ds ds' : List Char} {c c' : Char}
    (hds : IsCodePoint ds c) (hds' : IsCodePoint ds' c')
    (h : signedDigits sign ds = signedDigits sign' ds') :
    signIrregularity sign = signIrregularity sign' := by
  have hplus : ∀ {es : List Char} {e : Char}, IsCodePoint es e → ∀ fs, es ≠ '+' :: fs := by
    rintro es e hes fs rfl
    have hdigit := hes.digits '+' (List.mem_cons_self ..)
    rw [isHexDigit_plus] at hdigit
    cases hdigit
  cases sign <;> cases sign'
  · rfl
  · exact absurd h (hplus hds ds')
  · exact absurd h.symm (hplus hds' ds)
  · rfl

/-- A text that begins with the escape of a code point: its digits end at the next closing brace, or
with the text. -/
theorem Denotes.codePoint_cases {os : List Irregularity} {rest s : List Char}
    (h : Denotes os ('\\' :: 'u' :: '{' :: rest) s) :
    ∃ sign ds c, IsCodePoint ds c ∧ rest.takeWhile (· ≠ '}') = signedDigits sign ds ∧
      (rest.dropWhile (· ≠ '}') = [] ∧ os = signIrregularity sign ++ [.unclosed] ∨
        ∃ os' cs s', rest.dropWhile (· ≠ '}') = '}' :: cs ∧ Denotes os' cs s' ∧
          os = signIrregularity sign ++ os') := by
  cases h with
  | plain hc => exact absurd rfl hc
  | letter hl => exact absurd rfl (ne_u_of_mem_letters hl)
  | codePoint hds h =>
      obtain ⟨hnumber, hrest⟩ := span_closed hds.ne_brace _
      exact ⟨_, _, _, hds, hnumber, Or.inr ⟨_, _, _, hrest, h, rfl⟩⟩
  | unclosed hds =>
      obtain ⟨hnumber, hrest⟩ := span_open hds.ne_brace
      exact ⟨_, _, _, hds, hnumber, Or.inl ⟨hrest, rfl⟩⟩

/-- A text is irregular in one way only. -/
theorem Denotes.unique {os os' : List Irregularity} {body s s' : List Char}
    (h : Denotes os body s) (h' : Denotes os' body s') : os = os' := by
  induction h generalizing os' s' with
  | done =>
      cases h'
      rfl
  | plain hc _ ih =>
      cases h' with
      | plain _ h' => exact ih h'
      | letter => exact absurd rfl hc
      | codePoint => exact absurd rfl hc
      | unclosed => exact absurd rfl hc
  | letter hl _ ih =>
      cases h' with
      | plain hc => exact absurd rfl hc
      | letter _ h' => exact ih h'
      | codePoint => exact absurd rfl (ne_u_of_mem_letters hl)
      | unclosed => exact absurd rfl (ne_u_of_mem_letters hl)
  | codePoint hds _ ih =>
      obtain ⟨hnumber, hrest⟩ := span_closed hds.ne_brace _
      obtain ⟨sign, ds, c, hds', hnumber', hcases⟩ := h'.codePoint_cases
      have hsign := signIrregularity_congr hds hds' (hnumber.symm.trans hnumber')
      rcases hcases with ⟨hrest', -⟩ | ⟨os', cs, s', hrest', h', rfl⟩
      · rw [hrest] at hrest'
        cases hrest'
      · rw [hrest] at hrest'
        cases hrest'
        rw [hsign, ih h']
  | unclosed hds =>
      obtain ⟨hnumber, hrest⟩ := span_open hds.ne_brace
      obtain ⟨sign, ds, c, hds', hnumber', hcases⟩ := h'.codePoint_cases
      have hsign := signIrregularity_congr hds hds' (hnumber.symm.trans hnumber')
      rcases hcases with ⟨-, rfl⟩ | ⟨os', cs, s', hrest', -, -⟩
      · rw [hsign]
      · rw [hrest] at hrest'
        cases hrest'

/-- A text is read by the escapes as they are meant exactly if nothing about it is irregular. -/
theorem read_as_meant_iff {body : List Char} :
    (∀ s, unescape? body = some s ↔ Denotes [] body s) ↔ ∀ os s, Denotes os body s → os = [] := by
  constructor
  · intro hexact os s h
    exact h.unique ((hexact s).mp h.unescape?)
  · intro hregular s
    rw [unescape?_eq_some_iff]
    constructor
    · rintro ⟨os, h⟩
      obtain rfl := hregular os s h
      exact h
    · exact fun h => ⟨[], h⟩

end Uniqueness

end Text

namespace Listing

section Loading

theorem consItem_map (i : Item) (f : List Item → List Item)
    (rest : Except ListingError (List Item)) :
    consItem (.ok i) (rest.map f) = rest.map fun more => i :: f more := by
  cases rest <;> rfl

/-- Items are read one after another. -/
theorem Parsed.append {position : Nat} {before rest : List Lexeme} {items : List Item}
    (h : Parsed position before items) (hrest : ∀ u ∈ rest.head?, u.kind ≠ .colon) :
    parse position (before ++ rest)
      = (parse (position + before.length) rest).map (items ++ ·) := by
  induction h with
  | @nil position =>
      rw [List.nil_append, List.length_nil, Nat.add_zero]
      cases parse position rest <;> rfl
  | define ht hu _ ih =>
      rw [List.cons_append, List.cons_append, parse_define ht hu, ih, consItem_map,
        List.length_cons, List.length_cons, Nat.add_assoc, Nat.add_comm 2]
      rfl
  | @bare _ t ts _ op ht hop hcolon _ ih =>
      have hhead : ∀ u ∈ (ts ++ rest).head?, u.kind ≠ .colon := by
        cases ts with
        | nil => exact hrest
        | cons v ts => exact hcolon
      rw [List.cons_append, parse_bare ht hop hhead, ih, consItem_map, List.length_cons,
        Nat.add_assoc, Nat.add_comm 1]
      rfl
  | operand ht hu hform hbare hitem _ ih =>
      rw [List.cons_append, List.cons_append, parse_operand ht hu hform hbare, hitem, ih,
        consItem_map, List.length_cons, List.length_cons, Nat.add_assoc, Nat.add_comm 2]
      rfl

section Constants

variable {text : String} {before after : List Lexeme} {opcode t : Lexeme} {items : List Item}
  {v : Value}

/-- The load of a constant behind other items. -/
theorem parse_loadConst (hbefore : parse 0 before = .ok items)
    (hopcode : opcode.word = (.word, "LOAD_CONST".toList)) (ht : t.kind ≠ .colon) :
    parse 0 (before ++ opcode :: t :: after)
      = match constant? t with
        | some v => (parse (before.length + 2) after).map (items ++ .ready (.loadConst v) :: ·)
        | none => .error (unexpected (before.length + 1) t "expected a literal constant") := by
  have hkind : opcode.kind = .word := congrArg Prod.fst hopcode
  have htext : opcode.text = "LOAD_CONST".toList := congrArg Prod.snd hopcode
  have hform : opcode? (String.ofList opcode.text) = some .constant := by
    rw [htext]
    rfl
  rw [(parsed_of_parse hbefore).append (by simp [hkind]), Nat.zero_add,
    parse_operand hkind ht hform (by simp), readOperand]
  cases constant? t with
  | none => rfl
  | some v => cases parse (before.length + 2) after <;> rfl

/-- A listing is refused for what its items are refused for. -/
theorem ofListing_of_parse_error {ts : List Lexeme} {e : ListingError}
    (htokens : tokens text.toList = .ok ts) (he : parse 0 ts = .error e) :
    Code.ofListing text = .error e := by
  rw [Code.ofListing, assemble, htokens]
  change (parse 0 ts >>= _).map _ = _
  rw [he]
  rfl

/-- The instruction of a constant stands at the place of its item. -/
theorem getElem?_loadConst {more : Except ListingError (List Item)} {c : Code}
    (htokens : tokens text.toList = .ok (before ++ opcode :: t :: after))
    (hparse : parse 0 (before ++ opcode :: t :: after)
      = more.map (items ++ .ready (.loadConst v) :: ·))
    (hc : Code.ofListing text = .ok c) :
    c.instructions[items.length]? = some (.loadConst v) := by
  obtain ⟨a⟩ := exists_assembly (Code.instructions_of_ofListing hc).1
  have hparsed := a.parsed
  rw [Except.ok.inj (a.scanned.symm.trans htokens), hparse] at hparsed
  obtain ⟨others, -, hitems⟩ := map_eq_ok hparsed
  have hitem : a.items[items.length]? = some (.ready (.loadConst v)) := by
    simp [hitems]
  obtain ⟨op, hop, hresolve⟩ := a.exists_op hitem
  rw [hop, ← Except.ok.inj hresolve]

/-- A listing of nothing but a constant. -/
theorem ofListing_loadConst (htokens : tokens text.toList = .ok [opcode, t])
    (hparse : parse 0 [opcode, t] = .ok [.ready (.loadConst v)]) :
    Code.ofListing text = .ok (Code.ofInstructions [.loadConst v]) := by
  rw [Code.ofListing, assemble, htokens]
  change (parse 0 [opcode, t] >>= _).map _ = _
  rw [hparse]
  rfl

end Constants

/-- What a quoted text loads is what its inside denotes. -/
theorem constant?_quoted {t : Lexeme} {body : List Char}
    (ht : t.word = (.str, '"' :: (body ++ ['"']))) :
    constant? t = (Text.unescape? body).map fun cs => .str (String.ofList cs) := by
  obtain ⟨kind, text, start⟩ := t
  cases ht
  rw [constant?_str, List.drop_one, List.tail_cons, List.dropLast_concat]

/-- **The escapes of quoted text.**  What stands between the quotes is read exactly if it denotes a
text, and as this text.  It denotes it by the escapes as they are meant, unless a plus sign stands
in front of the digits of a code point or the end of the text stands in the place of its closing
brace; a text with no such irregularity, and only such a one, is read by the escapes as they are
meant.  Wherever a listing loads a quoted text, what it denotes is the constant; and if it denotes
nothing, the listing is refused, at the place of the quoted text. -/
theorem quoted_text_exact (body : List Char) :
    (∀ s, Text.unescape? body = some s ↔ ∃ os, Text.Denotes os body s) ∧
      ((∀ s, Text.unescape? body = some s ↔ Text.Denotes [] body s) ↔
        ∀ os s, Text.Denotes os body s → os = []) ∧
      ∀ (text : String) (before after : List Lexeme) (opcode t : Lexeme) (items : List Item),
        tokens text.toList = .ok (before ++ opcode :: t :: after) →
        parse 0 before = .ok items →
        opcode.word = (.word, "LOAD_CONST".toList) →
        t.word = (.str, '"' :: (body ++ ['"'])) →
          (∀ os s, Text.Denotes os body s →
            parse 0 (before ++ opcode :: t :: after)
              = (parse (before.length + 2) after).map
                  (items ++ .ready (.loadConst (.str (String.ofList s))) :: ·) ∧
            (∀ c, Code.ofListing text = .ok c →
              c.instructions[items.length]? = some (.loadConst (.str (String.ofList s)))) ∧
            (before = [] → after = [] →
              Code.ofListing text
                = .ok (Code.ofInstructions [.loadConst (.str (String.ofList s))]))) ∧
          ((∀ os s, ¬ Text.Denotes os body s) →
            Code.ofListing text
              = .error (.unexpectedToken (before.length + 1) "expected a literal constant" .str
                  (String.ofList t.text))) := by
  refine ⟨fun s => Text.unescape?_eq_some_iff, Text.read_as_meant_iff, ?_⟩
  intro text before after opcode t items htokens hbefore hopcode ht
  have hkind : t.kind = .str := congrArg Prod.fst ht
  have hparse := @parse_loadConst before after opcode t items hbefore hopcode (by simp [hkind])
  rw [constant?_quoted ht] at hparse
  constructor
  · intro os s h
    rw [h.unescape?] at hparse
    refine ⟨hparse, fun c hc => getElem?_loadConst htokens hparse hc, ?_⟩
    rintro rfl rfl
    obtain rfl := Except.ok.inj hbefore
    exact ofListing_loadConst htokens hparse
  · intro hnothing
    rw [Text.unescape?_eq_none hnothing] at hparse
    rw [← hkind]
    exact ofListing_of_parse_error htokens hparse

/-- A line break and an accent are loaded; an escape by a letter that stands for nothing is
refused. -/
theorem quoted_text_exact_samples :
    Code.ofListing "LOAD_CONST \"\\n\\u\x7bE9\x7d\""
        = .ok (Code.ofInstructions [.loadConst (.str (String.ofList ['\n', 'é']))]) ∧
      Code.ofListing "LOAD_CONST \"\\q\""
        = .error (.unexpectedToken 1 "expected a literal constant" .str
            (String.ofList ['"', '\\', 'q', '"'])) := by
  have haccent : Text.IsCodePoint ['E', '9'] 'é' := ⟨by decide, List.all_eq_true.mp rfl, rfl⟩
  have hdenotes : Text.Denotes [] ['\\', 'n', '\\', 'u', '{', 'E', '9', '}'] ['\n', 'é'] :=
    .letter (by decide) (@Text.Denotes.codePoint [] false _ _ _ _ haccent .done)
  have hnothing : ∀ os s, ¬ Text.Denotes os ['\\', 'q'] s := by
    intro os s h
    have hread := h.unescape?
    rw [show Text.unescape? ['\\', 'q'] = none by cbv] at hread
    cases hread
  obtain ⟨-, -, hloads⟩ := quoted_text_exact ['\\', 'n', '\\', 'u', '{', 'E', '9', '}']
  obtain ⟨-, -, hrefuses⟩ := quoted_text_exact ['\\', 'q']
  constructor
  · exact ((hloads _ [] [] ⟨.word, "LOAD_CONST".toList, 0⟩ ⟨.str, _, 11⟩ [] (by cbv) rfl rfl rfl).1
      _ _ hdenotes).2.2 rfl rfl
  · exact (hrefuses _ [] [] ⟨.word, "LOAD_CONST".toList, 0⟩ ⟨.str, _, 11⟩ [] (by cbv) rfl rfl rfl).2
      hnothing

/-- Two ways to spell a capital A that are read without being meant: the digits are not closed, or
they have a sign. -/
theorem irregular_escapes_read :
    (∀ s, ¬ Text.Denotes [] ['\\', 'u', '{', '4', '1'] s) ∧
      Code.ofListing "LOAD_CONST \"\\u\x7b41\""
        = .ok (Code.ofInstructions [.loadConst (.str "A")]) ∧
      (∀ s, ¬ Text.Denotes [] ['\\', 'u', '{', '+', '4', '1', '}'] s) ∧
      Code.ofListing "LOAD_CONST \"\\u\x7b+41\x7d\""
        = .ok (Code.ofInstructions [.loadConst (.str "A")]) := by
  have hcodePoint : Text.IsCodePoint ['4', '1'] 'A' := ⟨by decide, List.all_eq_true.mp rfl, rfl⟩
  have hunclosed : Text.Denotes [.unclosed] ['\\', 'u', '{', '4', '1'] ['A'] :=
    @Text.Denotes.unclosed false _ _ hcodePoint
  have hsigned : Text.Denotes [.signed] ['\\', 'u', '{', '+', '4', '1', '}'] ['A'] :=
    @Text.Denotes.codePoint _ true _ _ _ _ hcodePoint .done
  refine ⟨fun s h => ?_, by cbv, fun s h => ?_, by cbv⟩
  · cases h.unique hunclosed
  · cases h.unique hsigned

end Loading

end Listing

end TrackedExpr
