import TrackedExpr.Embedded.Construction
import TrackedExpr.Proofs.Listings

/-!
# Texts that are one token of the host language

The names, numbers and quoted texts that a listing writes are tokens of the host language
too, and mean the same there.

**Definitions.**
* `Embedded.Parted`: a text in front of which a name or a number ends;
* `Embedded.Scans`: a text that is scanned as one token.

**Results.**
* `Embedded.scans_word`, `Embedded.scans_number`, `Embedded.scans_operand`, `Embedded.scans_quote`,
  `Embedded.scans_punct`: names, numbers in both radixes, quoted texts, punctuation;
* `Embedded.cooked?_flatMap`: a quotation denotes the text that was quoted;
* `Embedded.scan?_scans`: one token is scanned off a text.
-/

namespace TrackedExpr
namespace Embedded

open Listing (startsWord continuesWord isWord startsWord_spec startsWord_toNat)

section Boundaries

/-- A text in front of which a name or a number ends: it is empty, or begins with a blank, a
colon or a semicolon. -/
def Parted : List Char → Prop
  | [] => True
  | c :: _ => c = ' ' ∨ c = '\n' ∨ c = ':' ∨ c = ';'

/-- What holds of no boundary does not hold of the beginning of a text that is parted. -/
theorem Parted.head_not {p : Char → Bool} (hspace : p ' ' = false) (hline : p '\n' = false)
    (hcolon : p ':' = false) (hsemicolon : p ';' = false) {c : Char} {rest : List Char}
    (h : Parted (c :: rest)) : p c = false := by
  rcases h with rfl | rfl | rfl | rfl
  · exact hspace
  · exact hline
  · exact hcolon
  · exact hsemicolon

theorem Parted.dropWhile {p : Char → Bool} (hspace : p ' ' = false) (hline : p '\n' = false)
    (hcolon : p ':' = false) (hsemicolon : p ';' = false) {rest : List Char} (h : Parted rest) :
    rest.dropWhile p = rest := by
  cases rest with
  | nil => rfl
  | cons c rest => simp [h.head_not hspace hline hcolon hsemicolon]

theorem before_append (text rest : List Char) : before (text ++ rest) rest = text := by
  simp [before]

/-- A text is scanned as one token, whatever stands behind it that meets a condition. -/
structure Scans (text : List Char) (t : TokenTree) (stop : List Char → Prop) : Prop where
  begins : ∃ c cs, text = c :: cs ∧ 32 < c.toNat ∧ c.toNat < 128 ∧ c ≠ '/' ∧ bracket? c = none
  leaf : ∀ rest, stop rest → leaf? (text ++ rest) = some (t, rest)

theorem isBlank_eq_false {c : Char} (hlow : 32 < c.toNat) (hhigh : c.toNat < 128) :
    isBlank c = false := by
  have hne : ∀ d : Char, d.toNat ≤ 32 ∨ 128 ≤ d.toNat → c ≠ d := by
    rintro d hd rfl
    omega
  have htab : ¬ c ≤ '\r' := by
    rw [Char.le_def, UInt32.le_iff_toNat_le]
    exact fun h => absurd (show c.toNat ≤ 13 from h) (by omega)
  have hwide : ¬ '\u2000' ≤ c := by
    rw [Char.le_def, UInt32.le_iff_toNat_le]
    exact fun h => absurd (show 8192 ≤ c.toNat from h) (by omega)
  have hmem : c ∉ ['\u0085', '\u00a0', '\u1680', '\u200e', '\u200f', '\u2028', '\u2029', '\u202f',
      '\u205f', '\u3000'] := by
    intro hc
    have hall : ['\u0085', '\u00a0', '\u1680', '\u200e', '\u200f', '\u2028', '\u2029', '\u202f',
      '\u205f', '\u3000'].all (fun d => 128 ≤ d.toNat) = true := by decide
    exact absurd (of_decide_eq_true (List.all_eq_true.mp hall c hc)) (by omega)
  simp [isBlank, htab, hwide, hmem, hne ' ' (by decide)]

theorem comment?_eq_none {c : Char} (hc : c ≠ '/') (cs : List Char) : comment? (c :: cs) = none := by
  unfold comment?
  dsimp only
  split
  all_goals
    first
    | rfl
    | next heq => exact absurd (List.cons.inj heq).1 hc

/-- **A token is scanned off the beginning of a text.** -/
theorem scan?_scans {text rest : List Char} {t : TokenTree} {stop : List Char → Prop}
    (h : Scans text t stop) (hrest : stop rest) :
    scan? (text ++ rest) = (scan? rest).map (Piece.leaf t :: ·) := by
  obtain ⟨c, cs, rfl, hlow, hhigh, hslash, hbracket⟩ := h.begins
  have hleaf := h.leaf rest hrest
  rw [List.cons_append] at hleaf ⊢
  have hpieces : pieces? (c :: (cs ++ rest)) = some ([.leaf t], rest) := by
    simp [pieces?, comment?_eq_none hslash, isBlank_eq_false hlow hhigh, hbracket, hleaf]
  rw [scan?, hpieces]
  simp

theorem scan?_blank {c : Char} (hc : c = ' ' ∨ c = '\n') (rest : List Char) :
    scan? (c :: rest) = scan? rest := by
  have hslash : c ≠ '/' := by
    rcases hc with rfl | rfl <;> decide
  have hblank : isBlank c = true := by
    rcases hc with rfl | rfl <;> decide
  have hpieces : pieces? (c :: rest) = some ([], rest) := by
    simp [pieces?, comment?_eq_none hslash, hblank]
  rw [scan?, hpieces]
  simp

end Boundaries

section Words

theorem startsName_of_startsWord {c : Char} (h : startsWord c = true) :
    Text.startsName c = true := by
  have hrange := startsWord_toNat h
  have hlt : c.toNat < 128 := by omega
  simpa [Text.startsName, hlt, startsWord] using h

theorem continuesName_of_continuesWord {c : Char} (h : continuesWord c = true) :
    Text.continuesName c = true := by
  cases hdigit : c.isDigit with
  | true => simp [Text.continuesName, hdigit]
  | false =>
      have hstart : startsWord c = true := by
        simpa [continuesWord, startsWord, Char.isAlphanum, hdigit] using h
      simp [Text.continuesName, startsName_of_startsWord hstart]

/-- A name ends where a text is parted. -/
theorem afterName?_word {c : Char} {cs rest : List Char} (hc : startsWord c = true)
    (hcs : ∀ d ∈ cs, continuesWord d = true) (hrest : Parted rest) :
    afterName? (c :: (cs ++ rest)) = some rest := by
  rw [afterName?, if_pos (startsName_of_startsWord hc),
    List.dropWhile_append_of_pos fun d hd => continuesName_of_continuesWord (hcs d hd),
    hrest.dropWhile (by decide) (by decide) (by decide) (by decide)]

/-- What stands behind the letters of a name is no quote and no hash. -/
theorem dropWhile_word {cs rest : List Char} (hcs : ∀ d ∈ cs, continuesWord d = true)
    (hrest : Parted rest) {m : Char} {more : List Char}
    (h : (cs ++ rest).dropWhile continuesWord = m :: more) : m ≠ '"' ∧ m ≠ '#' ∧ m ≠ '\'' := by
  rw [List.dropWhile_append_of_pos hcs,
    hrest.dropWhile (by decide) (by decide) (by decide) (by decide)] at h
  subst h
  rcases hrest with rfl | rfl | rfl | rfl <;> decide

/-- A quotation whose marks would stand behind the letters of a name is none. -/
theorem not_prefix_word {s cs rest : List Char} (hcs : ∀ d ∈ cs, continuesWord d = true)
    (hrest : Parted rest)
    (hs : ∃ m more, s.dropWhile continuesWord = m :: more ∧ (m = '"' ∨ m = '#' ∨ m = '\'')) :
    s.isPrefixOf (cs ++ rest) = false := by
  obtain ⟨m, more, hm, hmark⟩ := hs
  rw [Bool.eq_false_iff]
  intro hprefix
  obtain ⟨tail, htail⟩ := List.isPrefixOf_iff_prefix.mp hprefix
  have hdrop : (cs ++ rest).dropWhile continuesWord = m :: (more ++ tail) := by
    rw [← htail, List.dropWhile_append, hm]
    rfl
  obtain ⟨hquote, hhash, hapostrophe⟩ := dropWhile_word hcs hrest hdrop
  rcases hmark with rfl | rfl | rfl
  · exact hquote rfl
  · exact hhash rfl
  · exact hapostrophe rfl

theorem rawBody?_eq_none {plain : Char → Bool} {cs : List Char}
    (h : ∀ c ∈ cs.head?, c ≠ '"' ∧ c ≠ '#') : rawBody? plain cs = none := by
  cases cs with
  | nil => rfl
  | cons c cs =>
      obtain ⟨hquote, hhash⟩ := h c rfl
      unfold rawBody?
      simp only [List.takeWhile_cons, hhash, decide_false, Bool.false_eq_true, if_false,
        List.length_nil, List.drop_zero]
      split
      · next heq => exact absurd (List.cons.inj heq).1 hquote
      · rfl

/-- What stands behind the first letter of a name, and behind the second. -/
theorem head_word {cs rest : List Char} (hcs : ∀ d ∈ cs, continuesWord d = true)
    (hrest : Parted rest) : ∀ m ∈ (cs ++ rest).head?, m ≠ '"' ∧ m ≠ '#' ∧ m ≠ '\'' := by
  intro m hm
  cases cs with
  | nil =>
      cases rest with
      | nil => cases hm
      | cons d rest =>
          obtain rfl := Option.some.inj hm
          rcases hrest with rfl | rfl | rfl | rfl <;> decide
  | cons d cs =>
      obtain rfl := Option.some.inj hm
      have hd := hcs d List.mem_cons_self
      have hne : ∀ e : Char, continuesWord e = false → d ≠ e := by
        rintro e he rfl
        rw [hd] at he
        cases he
      exact ⟨hne _ (by decide), hne _ (by decide), hne _ (by decide)⟩

/-- A name is no quotation. -/
theorem quoted?_word {c : Char} {cs rest : List Char} (hc : startsWord c = true)
    (hcs : ∀ d ∈ cs, continuesWord d = true) (hrest : Parted rest) :
    quoted? (c :: (cs ++ rest)) = none := by
  have hne := (startsWord_spec hc).2
  have hsecond := head_word hcs hrest
  have hthird : ∀ d more, cs ++ rest = d :: more → startsWord d = true →
      ∀ m ∈ more.head?, m ≠ '"' ∧ m ≠ '#' ∧ m ≠ '\'' := by
    intro d more heq hd
    cases cs with
    | nil =>
        rw [List.nil_append] at heq
        subst heq
        rcases hrest with rfl | rfl | rfl | rfl <;> cases hd
    | cons e cs =>
        obtain ⟨rfl, rfl⟩ := List.cons.inj heq
        exact head_word (fun x hx => hcs x (List.mem_cons_of_mem _ hx)) hrest
  unfold quoted?
  dsimp only
  split
  · next heq => exact absurd (List.cons.inj heq).1 (hne _ (by decide))
  · next heq =>
      rw [← (List.cons.inj heq).2, rawBody?_eq_none fun m hm => ⟨(hsecond m hm).1, (hsecond m hm).2.1⟩]
      rfl
  · next heq =>
      rw [(List.cons.inj heq).2] at hsecond
      exact absurd rfl (hsecond _ rfl).1
  · next heq =>
      have hmarks := hthird _ _ (List.cons.inj heq).2 (by decide)
      rw [rawBody?_eq_none fun m hm => ⟨(hmarks m hm).1, (hmarks m hm).2.1⟩]
      rfl
  · next heq =>
      rw [(List.cons.inj heq).2] at hsecond
      exact absurd rfl (hsecond _ rfl).2.2
  · next heq =>
      rw [(List.cons.inj heq).2] at hsecond
      exact absurd rfl (hsecond _ rfl).1
  · next heq =>
      have hmarks := hthird _ _ (List.cons.inj heq).2 (by decide)
      rw [rawBody?_eq_none fun m hm => ⟨(hmarks m hm).1, (hmarks m hm).2.1⟩]
      rfl
  · next heq => exact absurd (List.cons.inj heq).1 (hne _ (by decide))
  · rfl

/-- The value of a digit, which is below ten where the digit is decimal. -/
theorem hexDigit?_of_isDigit {c : Char} (h : c.isDigit = true) :
    Text.hexDigit? c = some (c.toNat - '0'.toNat) ∧ c.toNat - '0'.toNat < 10 := by
  obtain ⟨hlow, hhigh⟩ := Char.isDigit_iff_toNat.mp h
  have hle : '0' ≤ c ∧ c ≤ '9' := by
    rw [Char.le_def, Char.le_def, UInt32.le_iff_toNat_le, UInt32.le_iff_toNat_le]
    exact ⟨hlow, hhigh⟩
  refine ⟨by rw [Text.hexDigit?, if_pos hle], ?_⟩
  change c.toNat ≤ 57 at hhigh
  change c.toNat - 48 < 10
  omega

theorem isDigit_of_hexDigit? {c : Char} {d : Nat} (h : Text.hexDigit? c = some d) (hd : d < 10) :
    c.isDigit = true := by
  unfold Text.hexDigit? at h
  split at h
  · next hle =>
      rw [Char.le_def, Char.le_def, UInt32.le_iff_toNat_le, UInt32.le_iff_toNat_le] at hle
      exact Char.isDigit_iff_toNat.mpr hle
  · repeat' split at h
    all_goals
      cases h
    all_goals
      omega

/-- A number begins with a digit. -/
theorem afterDigits?_eq_none {c : Char} (hdigit : c.isDigit = false) (cs : List Char) :
    afterDigits? 10 false (c :: cs) = none := by
  rw [afterDigits?]
  split
  · rfl
  · split
    · next d hd =>
        split
        · next hlt =>
            rw [isDigit_of_hexDigit? hd hlt] at hdigit
            cases hdigit
        · simp
    · rfl

theorem radix_cons {c : Char} (hc : c ≠ '0') (cs : List Char) :
    radix (c :: cs) = (10, c :: cs) := by
  unfold radix
  split
  all_goals
    first
    | rfl
    | next heq => exact absurd (List.cons.inj heq).1 hc

/-- What begins with no digit is no literal unless it is quoted. -/
theorem literal?_eq_none {c : Char} {cs : List Char} (hquoted : quoted? (c :: cs) = none)
    (hdigit : c.isDigit = false) : literal? (c :: cs) = none := by
  have hzero : c ≠ '0' := by
    rintro rfl
    cases hdigit
  have hfloat : afterFloat? (c :: cs) = none := by
    simp [afterFloat?, afterFraction?, hdigit]
  have hint : afterInteger? (c :: cs) = none := by
    rw [afterInteger?, radix_cons hzero]
    simp [afterDigits?_eq_none hdigit]
  simp [literal?, hquoted, hfloat, hint]

theorem startsPunct_eq_false {c : Char} (h : c ∉ punctuation) (cs : List Char) :
    startsPunct (c :: cs) = false := by
  unfold startsPunct
  split
  · rfl
  · rfl
  · next heq =>
      obtain ⟨rfl, -⟩ := List.cons.inj heq
      simpa using h
  · rfl

theorem punct?_word {c : Char} (hc : startsWord c = true) (cs : List Char) :
    punct? (c :: cs) = none := by
  have hmem : c ∉ punctuation := by
    intro hmem
    have hall : punctuation.all (fun d => !startsWord d) = true := by decide
    have hnot := List.all_eq_true.mp hall c hmem
    rw [hc] at hnot
    cases hnot
  simp [punct?, startsPunct_eq_false hmem]

theorem afterWord?_word {c : Char} {cs rest : List Char} (hc : startsWord c = true)
    (hcs : ∀ d ∈ cs, continuesWord d = true) (hrest : Parted rest) :
    afterWord? (c :: (cs ++ rest)) = some rest := by
  have hsecond := head_word hcs hrest
  unfold afterWord?
  split
  · next heq =>
      rw [(List.cons.inj heq).2] at hsecond
      exact absurd rfl (hsecond _ rfl).2.1
  · exact afterName?_word hc hcs hrest

theorem word?_word {c : Char} {cs rest : List Char} (hc : startsWord c = true)
    (hcs : ∀ d ∈ cs, continuesWord d = true) (hrest : Parted rest) :
    word? (c :: (cs ++ rest)) = some (.word (c :: cs), rest) := by
  have hall : ∀ d ∈ c :: cs, continuesWord d = true := by
    rintro d (_ | ⟨_, hd⟩)
    · simp [continuesWord, Char.isAlphanum, startsWord] at hc ⊢
      tauto
    · exact hcs d hd
  have hstarts : (quotationStarts.any fun s => s.isPrefixOf (c :: cs ++ rest)) = false := by
    rw [List.any_eq_false]
    intro s hs
    rw [Bool.not_eq_true]
    apply not_prefix_word hall hrest
    have hmarks : ∀ s ∈ quotationStarts, ∃ m more, s.dropWhile continuesWord = m :: more ∧
        (m = '"' ∨ m = '#' ∨ m = '\'') := by
      simp [quotationStarts, continuesWord]
    exact hmarks s hs
  rw [List.cons_append] at hstarts
  have hbefore : before (c :: (cs ++ rest)) rest = c :: cs := before_append (c :: cs) rest
  simp [word?, hstarts, afterWord?_word hc hcs hrest, hbefore]

/-- Names. -/
theorem scans_word {w : List Char} (h : isWord w = true) : Scans w (.word w) Parted := by
  cases w with
  | nil => cases h
  | cons c cs =>
      obtain ⟨hc, hcs⟩ := Bool.and_eq_true_iff.mp h
      have hcs := List.all_eq_true.mp hcs
      have hrange := startsWord_toNat hc
      obtain ⟨hdigit, hne⟩ := startsWord_spec hc
      constructor
      · refine ⟨c, cs, rfl, by omega, by omega, hne _ (by decide), ?_⟩
        simp [bracket?, Delimiter.all, Delimiter.opening, Delimiter.closing,
          (hne '(' (by decide)).symm, (hne ')' (by decide)).symm, (hne '[' (by decide)).symm,
          (hne ']' (by decide)).symm, (hne '\x7b' (by decide)).symm, (hne '\x7d' (by decide)).symm]
      · intro rest hrest
        rw [List.cons_append, leaf?, literal?_eq_none (quoted?_word hc hcs hrest) hdigit]
        simp [punct?_word hc, word?_word hc hcs hrest]

end Words

section Numbers

/-- A digit of a number in some radix. -/
def IsDigitOf (base : Nat) (c : Char) : Prop := ∃ d < base, Text.hexDigit? c = some d

theorem IsDigitOf.ne_underscore {base : Nat} {c : Char} (h : IsDigitOf base c) : c ≠ '_' := by
  rintro rfl
  obtain ⟨d, -, hd⟩ := h
  cases hd

theorem isDigitOf_ten {c : Char} (h : c.isDigit = true) : IsDigitOf 10 c :=
  ⟨_, (hexDigit?_of_isDigit h).2, (hexDigit?_of_isDigit h).1⟩

/-- The digits of an integer end where a text is parted. -/
theorem afterDigits?_append {base : Nat} {rest : List Char} (hrest : Parted rest) :
    ∀ {ds : List Char} {seen : Bool}, (∀ c ∈ ds, IsDigitOf base c) → (seen = true ∨ ds ≠ []) →
      afterDigits? base seen (ds ++ rest) = some rest
  | [], seen, _, hseen => by
      obtain rfl : seen = true := hseen.resolve_right (by simp)
      cases rest with
      | nil => rfl
      | cons c rest =>
          have hhex : Text.hexDigit? c = none := by
            rcases hrest with rfl | rfl | rfl | rfl <;> rfl
          have hline : c ≠ '_' := by
            rcases hrest with rfl | rfl | rfl | rfl <;> decide
          simp [afterDigits?, hhex, hline]
  | c :: ds, seen, hds, _ => by
      have hline := (hds c List.mem_cons_self).ne_underscore
      have htail := @afterDigits?_append base rest hrest ds true
        (fun e he => hds e (List.mem_cons_of_mem _ he)) (Or.inl rfl)
      obtain ⟨d, hlt, hd⟩ := hds c List.mem_cons_self
      simp [afterDigits?, hline, hd, hlt, htail]

/-- No suffix begins where a text is parted. -/
theorem afterSuffix_parted {rest : List Char} (hrest : Parted rest) : afterSuffix rest = rest := by
  cases rest with
  | nil => rfl
  | cons c rest =>
      have hstart : Text.startsName c = false :=
        hrest.head_not (by decide) (by decide) (by decide) (by decide)
      simp [afterSuffix, afterName?, hstart]

theorem wordBreak?_parted {rest : List Char} (hrest : Parted rest) :
    wordBreak? rest = some rest := by
  cases rest with
  | nil => rfl
  | cons c rest =>
      have hcontinue : Text.continuesName c = false :=
        hrest.head_not (by decide) (by decide) (by decide) (by decide)
      simp [wordBreak?, hcontinue]

/-- A number without a point and an exponent is no fraction. -/
theorem afterMantissa?_digits {ds rest : List Char} (hds : ∀ c ∈ ds, c.isDigit = true)
    (hrest : ∀ c ∈ rest.head?, c.isDigit = false ∧ c ≠ '_' ∧ c ≠ '.') :
    afterMantissa? false (ds ++ rest) = some (false, rest) := by
  induction ds with
  | nil =>
      cases rest with
      | nil => rfl
      | cons c rest =>
          obtain ⟨hdigit, hline, hpoint⟩ := hrest c rfl
          simp [afterMantissa?, hdigit, hline, hpoint]
  | cons c ds ih =>
      have htail := ih fun d hd => hds d (List.mem_cons_of_mem _ hd)
      simp [afterMantissa?, hds c List.mem_cons_self, htail]

theorem afterFloat?_eq_none {c : Char} {ds rest : List Char} (hds : ∀ d ∈ ds, d.isDigit = true)
    (hrest : ∀ d ∈ rest.head?, d.isDigit = false ∧ d ≠ '_' ∧ d ≠ '.' ∧ d ≠ 'e' ∧ d ≠ 'E') :
    afterFloat? (c :: (ds ++ rest)) = none := by
  have hmantissa := afterMantissa?_digits hds fun d hd =>
    ⟨(hrest d hd).1, (hrest d hd).2.1, (hrest d hd).2.2.1⟩
  rw [afterFloat?, Option.bind_eq_none_iff]
  intro after hafter
  rw [afterFraction?, hmantissa] at hafter
  cases rest with
  | nil => simp at hafter
  | cons d rest =>
      obtain ⟨-, -, -, he, hE⟩ := hrest d rfl
      simp [he, hE] at hafter

theorem quoted?_digit {c : Char} (h : c.isDigit = true) (cs : List Char) :
    quoted? (c :: cs) = none := by
  have hne : ∀ d : Char, d.isDigit = false → c ≠ d := fun d hd => isDigit_ne h hd
  unfold quoted?
  dsimp only
  split
  all_goals
    first
    | rfl
    | next heq => exact absurd (List.cons.inj heq).1 (hne _ (by decide))

/-- The value of the digits of an integer. -/
theorem integer?_digits {base : Nat} (hbase : base = 10 ∨ base = 16) :
    ∀ {ds : List Char} {seen : Bool} {n : Nat}, (∀ c ∈ ds, IsDigitOf base c) →
      (base = 10 → ∀ c ∈ ds, c.isDigit = true) → (seen = true ∨ ds ≠ []) →
        integer? base seen n ds
          = some (ds.foldl (fun m c => base * m + (Text.hexDigit? c).getD 0) n)
  | [], seen, n, _, _, hseen => by
      obtain rfl : seen = true := hseen.resolve_right (by simp)
      rfl
  | c :: ds, seen, n, hds, hten, _ => by
      have hline := (hds c List.mem_cons_self).ne_underscore
      have htail := @integer?_digits base hbase ds true
      obtain ⟨d, hlt, hd⟩ := hds c List.mem_cons_self
      have hdigitOf : digitOf? base c = some d := by
        rcases hbase with rfl | rfl
        · simp [digitOf?, hten rfl c List.mem_cons_self, hd]
        · simp [digitOf?, hd]
      have hletters : base = 10 → c ≠ '.' ∧ c ≠ 'e' ∧ c ≠ 'E' := by
        intro h10
        have hdigit := hten h10 c List.mem_cons_self
        exact ⟨isDigit_ne hdigit (by decide), isDigit_ne hdigit (by decide),
          isDigit_ne hdigit (by decide)⟩
      have hpoint : ¬ (base = 10 ∧ c = '.') := fun h => (hletters h.1).1 h.2
      have hpower : ¬ ((base = 10 ∧ (c = 'e' ∨ c = 'E')) ∧ isExponent false ds = true) := by
        rintro ⟨⟨h10, rfl | rfl⟩, -⟩
        · exact (hletters h10).2.1 rfl
        · exact (hletters h10).2.2 rfl
      rw [integer?, if_neg hline, if_neg (by simpa using hpoint),
        if_neg (by simpa using hpower), hdigitOf]
      simp only [hlt, if_true]
      rw [htail (fun e he => hds e (List.mem_cons_of_mem _ he))
        (fun h10 e he => hten h10 e (List.mem_cons_of_mem _ he)) (Or.inl rfl), List.foldl_cons, hd]
      rfl

theorem foldl_digits {ds : List Char} (hds : ∀ c ∈ ds, c.isDigit = true) (n : Nat) :
    ds.foldl (fun m c => 10 * m + (Text.hexDigit? c).getD 0) n = Nat.ofDigitChars 10 ds n := by
  induction ds generalizing n with
  | nil => rfl
  | cons c ds ih =>
      rw [List.foldl_cons, (hexDigit?_of_isDigit (hds c List.mem_cons_self)).1, Nat.ofDigitChars_cons]
      exact ih (fun d hd => hds d (List.mem_cons_of_mem _ hd)) _

theorem foldl_hexDigits {ds : List Char} {start n : Nat} (h : Text.hexDigits? start ds = some n) :
    ds.foldl (fun m c => 16 * m + (Text.hexDigit? c).getD 0) start = n := by
  induction ds generalizing start with
  | nil => exact Option.some.inj h
  | cons c ds ih =>
      rw [Text.hexDigits?] at h
      cases hc : Text.hexDigit? c with
      | none =>
          rw [hc] at h
          cases h
      | some d =>
          rw [hc] at h
          rw [List.foldl_cons, hc]
          exact ih h

/-- A number in decimal has no other radix. -/
theorem radix_digits {ds rest : List Char} (hds : ∀ c ∈ ds, c.isDigit = true) (hne : ds ≠ [])
    (hrest : Parted rest) : radix (ds ++ rest) = (10, ds ++ rest) := by
  have hsecond : ∀ x : Char, x.isDigit = false → x ≠ ' ' ∧ x ≠ '\n' ∧ x ≠ ':' ∧ x ≠ ';' →
      ∀ c more, ds ++ rest ≠ c :: x :: more := by
    intro x hx hboundary c more heq
    cases ds with
    | nil => exact hne rfl
    | cons d ds =>
        have htail := (List.cons.inj heq).2
        cases ds with
        | cons e ds =>
            obtain rfl := (List.cons.inj htail).1
            rw [hds e (by simp)] at hx
            cases hx
        | nil =>
            change rest = x :: more at htail
            subst htail
            obtain ⟨hspace, hline, hcolon, hsemicolon⟩ := hboundary
            rcases hrest with h | h | h | h
            · exact hspace h
            · exact hline h
            · exact hcolon h
            · exact hsemicolon h
  unfold radix
  split
  · next heq => exact absurd heq (hsecond _ (by decide) (by decide) _ _)
  · next heq => exact absurd heq (hsecond _ (by decide) (by decide) _ _)
  · next heq => exact absurd heq (hsecond _ (by decide) (by decide) _ _)
  · rfl

theorem Parted.no_fraction {rest : List Char} (h : Parted rest) :
    ∀ d ∈ rest.head?, d.isDigit = false ∧ d ≠ '_' ∧ d ≠ '.' ∧ d ≠ 'e' ∧ d ≠ 'E' := by
  intro d hd
  cases rest with
  | nil => cases hd
  | cons c rest =>
      obtain rfl := Option.some.inj hd
      rcases h with rfl | rfl | rfl | rfl <;> decide

theorem digit_begins {c : Char} (h : c.isDigit = true) :
    32 < c.toNat ∧ c.toNat < 128 ∧ c ≠ '/' ∧ bracket? c = none := by
  obtain ⟨hlow, hhigh⟩ := Char.isDigit_iff_toNat.mp h
  change 48 ≤ c.toNat at hlow
  change c.toNat ≤ 57 at hhigh
  have hne : ∀ d : Char, d.isDigit = false → d ≠ c := fun d hd heq => isDigit_ne h hd heq.symm
  refine ⟨by omega, by omega, (hne _ (by decide)).symm, ?_⟩
  simp [bracket?, Delimiter.all, Delimiter.opening, Delimiter.closing, hne '(' (by decide),
    hne ')' (by decide), hne '[' (by decide), hne ']' (by decide), hne '\x7b' (by decide),
    hne '\x7d' (by decide)]

/-- A literal whose extent and meaning are known. -/
theorem leaf?_numeral {c : Char} {cs rest : List Char} {n : Nat} (hc : c.isDigit = true)
    (hfloat : afterFloat? (c :: (cs ++ rest)) = none)
    (hint : afterInteger? (c :: (cs ++ rest)) = some rest)
    (hvalue : numeral? (c :: cs) = some (.int n)) :
    leaf? (c :: (cs ++ rest)) = some (.literal (c :: cs) (.numeral (.int n)), rest) := by
  have hbefore : before (c :: (cs ++ rest)) rest = c :: cs := before_append (c :: cs) rest
  simp [leaf?, literal?, quoted?_digit hc, hfloat, hint, hbefore, hvalue]

/-- Numbers in decimal. -/
theorem scans_number (n : Nat) :
    Scans (natChars n) (.literal (natChars n) (.numeral (.int n))) Parted := by
  have hds := all_isDigit_natChars n
  have hne := natChars_ne_nil n
  have hvalue : Nat.ofDigitChars 10 (natChars n) 0 = n := Nat.ofDigitChars_ten_toDigits
  generalize natChars n = ds at hds hne hvalue
  have hof : ∀ c ∈ ds, IsDigitOf 10 c := fun c hc => isDigitOf_ten (hds c hc)
  have hnumeral : numeral? ds = some (.int n) := by
    have hradix := @radix_digits ds [] hds hne trivial
    rw [List.append_nil] at hradix
    rw [numeral?, hradix]
    simp [integer?_digits (Or.inl rfl) hof (fun _ => hds) (Or.inr hne), foldl_digits hds, hvalue]
  cases ds with
  | nil => exact absurd rfl hne
  | cons c cs =>
      have hc := hds c List.mem_cons_self
      refine ⟨⟨c, cs, rfl, digit_begins hc⟩, ?_⟩
      intro rest hrest
      have hint : afterInteger? (c :: cs ++ rest) = some rest := by
        rw [afterInteger?, radix_digits hds hne hrest]
        simp only [afterDigits?_append hrest hof (Or.inr hne), Option.bind_some,
          afterSuffix_parted hrest, wordBreak?_parted hrest]
      exact leaf?_numeral hc
        (afterFloat?_eq_none (fun d hd => hds d (List.mem_cons_of_mem _ hd)) hrest.no_fraction) hint
        hnumeral

theorem isDigitOf_digitChar {d : Nat} (h : d < 16) : IsDigitOf 16 d.digitChar :=
  ⟨d, h, (hexDigit_spec d h).1⟩

theorem hexDigits?_zeros (k : Nat) (ds : List Char) :
    Text.hexDigits? 0 (List.replicate k '0' ++ ds) = Text.hexDigits? 0 ds := by
  induction k with
  | zero => rfl
  | succ k ih =>
      rw [List.replicate_succ, List.cons_append, Text.hexDigits?]
      exact ih

/-- Call operands, which are written in hexadecimal. -/
theorem scans_operand (raw : UInt16) :
    Scans (Instruction.operandChars raw)
      (.literal (Instruction.operandChars raw) (.numeral (.int raw.toNat))) Parted := by
  have hvalue : Text.hexDigits? 0 (List.replicate (4 - (Nat.toDigits 16 raw.toNat).length) '0'
      ++ Nat.toDigits 16 raw.toNat) = some raw.toNat := by
    rw [hexDigits?_zeros, hexDigits?_toDigits]
  have hof : ∀ c ∈ List.replicate (4 - (Nat.toDigits 16 raw.toNat).length) '0'
      ++ Nat.toDigits 16 raw.toNat, IsDigitOf 16 c := by
    intro c hc
    rcases List.mem_append.mp hc with hc | hc
    · obtain ⟨-, rfl⟩ := List.mem_replicate.mp hc
      exact isDigitOf_digitChar (d := 0) (by decide)
    · obtain ⟨d, hd, rfl⟩ := exists_digit_of_mem_toDigits _ c hc
      exact isDigitOf_digitChar hd
  have hne : List.replicate (4 - (Nat.toDigits 16 raw.toNat).length) '0'
      ++ Nat.toDigits 16 raw.toNat ≠ [] := by
    simp [Nat.toDigits_ne_nil]
  rw [Instruction.operandChars]
  generalize List.replicate (4 - (Nat.toDigits 16 raw.toNat).length) '0'
    ++ Nat.toDigits 16 raw.toNat = ds at hvalue hof hne
  refine ⟨⟨'0', 'x' :: ds, rfl, digit_begins (by decide)⟩, ?_⟩
  intro rest hrest
  have hint : afterInteger? ('0' :: ('x' :: ds ++ rest)) = some rest := by
    rw [afterInteger?, List.cons_append, radix]
    simp only [afterDigits?_append hrest hof (Or.inr hne), Option.bind_some,
      afterSuffix_parted hrest, wordBreak?_parted hrest]
  have hnumeral : numeral? ('0' :: 'x' :: ds) = some (.int raw.toNat) := by
    rw [numeral?, radix]
    simp [integer?_digits (Or.inr rfl) hof (by simp) (Or.inr hne), foldl_hexDigits hvalue]
  have hfloat : afterFloat? ('0' :: ('x' :: ds ++ rest)) = none :=
    @afterFloat?_eq_none '0' [] ('x' :: ds ++ rest) (by simp) (by simp)
  exact @leaf?_numeral '0' ('x' :: ds) rest _ (by decide) hfloat hint hnumeral

end Numbers

section Quotations

theorem cooked?_plain {c : Char} (hquote : c ≠ '"') (hreturn : c ≠ '\r') (hescape : c ≠ '\\')
    (rest : List Char) : cooked? .text (c :: rest) = prepend c (cooked? .text rest) := by
  rw [cooked?]
  · rfl
  all_goals
    intros
    simp_all

/-- An escape that stands for a character. -/
theorem cooked?_escape {cs after : List Char} {c : Char} (hline : cs.head? ≠ some '\n')
    (hreturn : cs.head? ≠ some '\r') (hescape : QuoteStyle.text.escape cs = some (c, after))
    (hlength : after.length ≤ cs.length) :
    cooked? .text ('\\' :: cs) = prepend c (cooked? .text after) := by
  rw [cooked?]
  simp [hline, hreturn, hescape, hlength]

theorem escape_letter {letter c : Char} (hletter : Text.ofEscapeLetter? letter = some c)
    (rest : List Char) : QuoteStyle.text.escape (letter :: rest) = some (c, rest) := by
  have hx : letter ≠ 'x' := by
    rintro rfl
    cases hletter
  have hu : letter ≠ 'u' := by
    rintro rfl
    cases hletter
  have hbyte : byteEscape? 8 (letter :: rest) = none := by
    unfold byteEscape?
    split
    · next heq => exact absurd (List.cons.inj heq).1 hx
    · rfl
  have hcode : unicodeEscape? (letter :: rest) = none := by
    unfold unicodeEscape?
    split
    · next heq => exact absurd (List.cons.inj heq).1 hu
    · rfl
  simp [QuoteStyle.text, hbyte, hcode, letterEscape?, hletter]

/-- The digits of a code point up to its brace. -/
theorem codePoint?_digits {c : Char} {rest : List Char} :
    ∀ {ds : List Char} {count n : Nat}, (∀ d ∈ ds, d ≠ '}') →
      Text.hexDigits? n ds = some c.toNat → count + ds.length ≤ 6 → 0 < count + ds.length →
        codePoint? count n (ds ++ '}' :: rest) = some (c, rest)
  | [], count, n, _, hvalue, _, hpos => by
      obtain rfl := Option.some.inj hvalue
      have hcount : count ≠ 0 := by
        simpa using Nat.ne_of_gt hpos
      simp [codePoint?, hcount, Text.ofCodePoint?_toNat]
  | d :: ds, count, n, hbrace, hvalue, hlength, _ => by
      rw [Text.hexDigits?] at hvalue
      cases hd : Text.hexDigit? d with
      | none =>
          rw [hd] at hvalue
          cases hvalue
      | some k =>
          rw [hd] at hvalue
          have hline : d ≠ '_' := by
            rintro rfl
            cases hd
          rw [List.length_cons] at hlength
          have htail := @codePoint?_digits c rest ds (count + 1) _
            (fun e he => hbrace e (List.mem_cons_of_mem _ he)) hvalue (by omega) (by omega)
          have hsix : count ≠ 6 := by omega
          simp [codePoint?, hbrace d List.mem_cons_self, hline, hd, hsix, htail]

/-- A code point has at most six digits. -/
theorem length_codePoint (c : Char) :
    (Nat.toDigits 16 c.toNat).length ≤ 6 ∧ 0 < (Nat.toDigits 16 c.toNat).length := by
  have hlt : c.toNat < 16 ^ 6 := by
    have hvalid : c.toNat.isValidChar := c.valid
    rcases hvalid with h | ⟨-, h⟩ <;> omega
  exact ⟨(Nat.length_toDigits_le_iff (by decide) (by decide)).mpr hlt,
    List.length_pos_iff.mpr Nat.toDigits_ne_nil⟩

/-- A character is denoted by what it is written as. -/
theorem cooked?_escape_append (c : Char) (rest : List Char) :
    cooked? .text (Text.escape c ++ rest) = prepend c (cooked? .text rest) := by
  unfold Text.escape
  cases hletter : Text.escapeLetter? c with
  | some letter =>
      have hread := (Text.ofEscapeLetter?_escapeLetter? hletter).1
      have hne : ∀ d, Text.ofEscapeLetter? d = none → letter ≠ d := by
        rintro d hd rfl
        rw [hd] at hread
        cases hread
      exact cooked?_escape (by simpa using hne '\n' rfl) (by simpa using hne '\r' rfl)
        (escape_letter hread rest) (by simp)
  | none =>
      obtain ⟨hescape, hquote⟩ := Text.plain_of_escapeLetter? hletter
      dsimp only
      split
      · obtain ⟨hsix, hpos⟩ := length_codePoint c
        have htext : Text.codePoint c ++ rest
            = '\\' :: 'u' :: '{' :: (Nat.toDigits 16 c.toNat ++ '}' :: rest) := by
          simp [Text.codePoint]
        have hcode : codePoint? 0 0 (Nat.toDigits 16 c.toNat ++ '}' :: rest) = some (c, rest) :=
          codePoint?_digits (fun _ hd => Text.ne_brace_of_mem_toDigits hd)
            (hexDigits?_toDigits c.toNat) (by omega) (by omega)
        rw [htext]
        apply cooked?_escape (by simp) (by simp)
        · simp [QuoteStyle.text, byteEscape?, unicodeEscape?, hcode]
        · simp
          omega
      · have hreturn : c ≠ '\r' := by
          rintro rfl
          cases hletter
        exact cooked?_plain hquote hreturn hescape rest

/-- **A quotation denotes the text that was quoted.** -/
theorem cooked?_flatMap (cs rest : List Char) :
    cooked? .text (cs.flatMap Text.escape ++ '"' :: rest) = some (cs, rest) := by
  induction cs with
  | nil => rw [List.flatMap_nil, List.nil_append, cooked?]
  | cons c cs ih =>
      rw [List.flatMap_cons, List.append_assoc, cooked?_escape_append, ih]
      rfl

/-- Text constants. -/
theorem scans_quote (cs : List Char) :
    Scans (Text.quote cs) (.literal (Text.quote cs) (.text cs)) Parted where
  begins := ⟨'"', _, rfl, by decide, by decide, by decide, by decide⟩
  leaf := by
    intro rest hrest
    have htext : Text.quote cs ++ rest = '"' :: (cs.flatMap Text.escape ++ '"' :: rest) := by
      simp [Text.quote]
    have hquoted : quoted? (Text.quote cs ++ rest) = some (some cs, rest) := by
      rw [htext, quoted?, cooked?_flatMap]
      simp [afterSuffix_parted hrest]
    simp [leaf?, literal?, hquoted, before_append]

end Quotations

section Punctuation

/-- A text in front of which a run of punctuation ends. -/
def Unjoined (rest : List Char) : Prop := startsPunct rest = false

theorem unjoined_line (rest : List Char) : Unjoined ('\n' :: rest) := rfl

theorem unjoined_natChars (n : Nat) (rest : List Char) : Unjoined (natChars n ++ rest) := by
  have hds := all_isDigit_natChars n
  cases hn : natChars n with
  | nil => exact absurd hn (natChars_ne_nil n)
  | cons c cs =>
      have hc : c.isDigit = true := hds c (by simp [hn])
      apply startsPunct_eq_false
      intro hmem
      have hall : punctuation.all (fun d => !d.isDigit) = true := by decide
      have hnot := List.all_eq_true.mp hall c hmem
      rw [hc] at hnot
      cases hnot

/-- Colons, semicolons and minus signs. -/
theorem scans_punct {c : Char} (hc : c = ':' ∨ c = ';' ∨ c = '-') :
    Scans [c] (.punct c false) Unjoined where
  begins := by
    refine ⟨c, [], rfl, ?_⟩
    rcases hc with rfl | rfl | rfl <;> decide
  leaf := by
    intro rest hrest
    have hquoted : quoted? (c :: rest) = none := by
      rcases hc with rfl | rfl | rfl <;> rfl
    have hdigit : c.isDigit = false := by
      rcases hc with rfl | rfl | rfl <;> decide
    have hstart : startsPunct (c :: rest) = true := by
      rcases hc with rfl | rfl | rfl <;> rfl
    have hpunct : punct? (c :: rest) = some (.punct c false, rest) := by
      have hrest : startsPunct rest = false := hrest
      rw [← hrest]
      rcases hc with rfl | rfl | rfl <;> rfl
    rw [List.singleton_append, leaf?, literal?_eq_none hquoted hdigit]
    simp [hpunct]

end Punctuation

end Embedded
end TrackedExpr
