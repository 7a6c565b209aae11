import TrackedExpr.Proofs.Quoting

/-!
# Texts that are one token

Every text that a listing writes for an operand is one token, whatever follows it
after a blank or a colon.

**Definitions.**
* `Listing.Parted`: a text in front of which a token ends;
* `Listing.Lexes`: a text that is one token;
* `Numeral`: the parts of a number with a fraction, an exponent or both.

**Results.**
* `Listing.lexes_word`, `Listing.lexes_int`, `Listing.lexes_hex`, `Listing.lexes_numeral`,
  `Listing.lexes_quote`: the classes of tokens;
* `Listing.scan_lexes`: a token is scanned.
-/

namespace TrackedExpr

namespace Listing

open Text

section Boundaries

/-- A text in front of which a token ends: it is empty, or begins with a blank or a colon. -/
def Parted : List Char → Prop
  | [] => True
  | c :: _ => c = ' ' ∨ c = '\n' ∨ c = ':'

/-- A text is one token, whatever is parted from it. -/
structure Lexes (kind : TokenKind) (text : List Char) : Prop where
  begins : ∃ c rest, text = c :: rest ∧ isBlank c = false ∧ c ≠ '#'
  longest : ∀ rest, Parted rest → longest? (text ++ rest) = some (kind, text.length)

theorem Parted.takeWhile {p : Char → Bool} (hspace : p ' ' = false) (hline : p '\n' = false)
    (hcolon : p ':' = false) {rest : List Char} (h : Parted rest) : rest.takeWhile p = [] := by
  cases rest with
  | nil => rfl
  | cons c rest =>
      rcases h with rfl | rfl | rfl
      · simp [hspace]
      · simp [hline]
      · simp [hcolon]

theorem takeWhile_append {p : Char → Bool} {cs rest : List Char} (hcs : ∀ c ∈ cs, p c = true)
    (hrest : rest.takeWhile p = []) : (cs ++ rest).takeWhile p = cs := by
  rw [List.takeWhile_append_of_pos hcs, hrest, List.append_nil]

/-- A character that is not in a token is not found right after its beginning. -/
theorem second_ne {x : Char} (hx : x ≠ ' ' ∧ x ≠ '\n' ∧ x ≠ ':') {text rest : List Char}
    (htext : ∀ c ∈ text, c ≠ x) (hne : text ≠ []) (h : Parted rest) :
    (text ++ rest)[1]? ≠ some x := by
  obtain ⟨hspace, hline, hcolon⟩ := hx
  cases text with
  | nil => exact absurd rfl hne
  | cons c text =>
      cases text with
      | cons d text =>
          intro heq
          obtain rfl : d = x := by simpa using heq
          exact htext d (by simp) rfl
      | nil =>
          cases rest with
          | nil => simp
          | cons d rest =>
              intro heq
              obtain rfl : d = x := by simpa using heq
              rcases h with rfl | rfl | rfl
              · exact hspace rfl
              · exact hline rfl
              · exact hcolon rfl

theorem foldl_longer {f : TokenKind → Nat} {kind : TokenKind} (h : ∀ k, k ≠ kind → f k < f kind) :
    ∀ {ks : List TokenKind} {best : TokenKind × Nat},
      best.2 < f kind ∧ kind ∈ ks ∨ best = (kind, f kind) →
        (ks.map fun k => (k, f k)).foldl longer best = (kind, f kind) := by
  intro ks
  induction ks with
  | nil =>
      rintro best (⟨-, hmem⟩ | rfl)
      · cases hmem
      · rfl
  | cons k ks ih =>
      intro best hbest
      rw [List.map_cons, List.foldl_cons]
      apply ih
      by_cases hk : k = kind
      · subst hk
        right
        rcases hbest with ⟨hlt, -⟩ | rfl
        · rw [longer, if_pos hlt]
        · rw [longer, if_neg (Nat.lt_irrefl _)]
      · rcases hbest with ⟨hlt, hmem⟩ | rfl
        · left
          refine ⟨?_, (List.mem_cons.mp hmem).resolve_left fun heq => hk heq.symm⟩
          unfold longer
          split
          · exact h k hk
          · exact hlt
        · right
          rw [longer, if_neg (Nat.not_lt.mpr (Nat.le_of_lt (h k hk)))]

/-- The class that matches longest is the class of the token. -/
theorem longest?_of_lt {cs : List Char} {kind : TokenKind} (hpos : 0 < matchLength cs kind)
    (h : ∀ k, k ≠ kind → matchLength cs k < matchLength cs kind) :
    longest? cs = some (kind, matchLength cs kind) := by
  have hmem : kind ∈ TokenKind.all := by
    cases kind <;> decide
  rw [longest?, foldl_longer h (Or.inl ⟨hpos, hmem⟩)]
  exact if_neg (Nat.ne_of_gt hpos)

/-- A token is scanned, and the rest after it. -/
theorem scan_token {kind : TokenKind} {text rest : List Char}
    (hbegins : ∃ c cs, text = c :: cs ∧ isBlank c = false ∧ c ≠ '#')
    (hlongest : longest? (text ++ rest) = some (kind, text.length)) (start : Nat) :
    scan start (text ++ rest)
      = (⟨kind, text, start⟩ :: (scan (start + byteLength text) rest).1,
          (scan (start + byteLength text) rest).2) := by
  obtain ⟨c, cs, rfl, hblank, hcomment⟩ := hbegins
  rw [List.cons_append] at hlongest ⊢
  rw [scan]
  simp [hblank, hcomment, hlongest]

theorem scan_lexes {kind : TokenKind} {text : List Char} (h : Lexes kind text)
    {rest : List Char} (hrest : Parted rest) (start : Nat) :
    scan start (text ++ rest)
      = (⟨kind, text, start⟩ :: (scan (start + byteLength text) rest).1,
          (scan (start + byteLength text) rest).2) :=
  scan_token h.begins (h.longest rest hrest) start

theorem scan_blank {c : Char} (hc : isBlank c = true) (rest : List Char) (start : Nat) :
    scan start (c :: rest) = scan (start + c.utf8Size) rest := by
  rw [scan, if_pos hc]

end Boundaries

section Beginnings

/-- Whether a token of a class can begin with a character. -/
def beginsWith (c : Char) : TokenKind → Bool
  | .hex => c = '0'
  | .float | .int => c = '-' || c.isDigit
  | .negInf => c = '-'
  | .str => c = '"'
  | .word => startsWord c
  | .colon => c = ':'

theorem intLength_of_beginning {c : Char} (hminus : c ≠ '-') (hdigit : c.isDigit = false)
    (cs : List Char) : intLength (c :: cs) = 0 := by
  have hsign : signLength (c :: cs) = 0 := by
    unfold signLength
    split
    · next heq => exact absurd (List.cons.inj heq).1 hminus
    · rfl
  simp [intLength, hsign, digitRun, hdigit]

theorem floatLength_of_intLength {cs : List Char} (h : intLength cs = 0) : floatLength cs = 0 := by
  rw [floatLength, h]
  rfl

/-- A class does not match where none of its tokens can begin. -/
theorem matchLength_of_beginning {c : Char} {k : TokenKind} (h : beginsWith c k = false)
    (cs : List Char) : matchLength (c :: cs) k = 0 := by
  cases k with
  | hex =>
      have hc : c ≠ '0' := by simpa [beginsWith] using h
      change hexLength (c :: cs) = 0
      unfold hexLength
      split
      · next heq => exact absurd (List.cons.inj heq).1 hc
      · rfl
  | float =>
      have hc : c ≠ '-' ∧ c.isDigit = false := by simpa [beginsWith] using h
      exact floatLength_of_intLength (intLength_of_beginning hc.1 hc.2 cs)
  | int =>
      have hc : c ≠ '-' ∧ c.isDigit = false := by simpa [beginsWith] using h
      exact intLength_of_beginning hc.1 hc.2 cs
  | negInf =>
      have hc : c ≠ '-' := by simpa [beginsWith] using h
      simp [matchLength, hc.symm]
  | str =>
      have hc : c ≠ '"' := by simpa [beginsWith] using h
      change strLength (c :: cs) = 0
      unfold strLength
      split
      · next heq => exact absurd (List.cons.inj heq).1 hc
      · rfl
  | word => simpa [matchLength, wordLength, beginsWith] using h
  | colon =>
      have hc : c ≠ ':' := by simpa [beginsWith] using h
      simp [matchLength, hc.symm]

theorem lexes_of_lengths {kind : TokenKind} {c : Char} {cs : List Char}
    (hblank : isBlank c = false) (hcomment : c ≠ '#')
    (hkind : ∀ rest, Parted rest → matchLength (c :: cs ++ rest) kind = (c :: cs).length)
    (hother : ∀ rest, Parted rest → ∀ k, k ≠ kind →
      matchLength (c :: cs ++ rest) k < (c :: cs).length) : Lexes kind (c :: cs) := by
  refine ⟨⟨c, cs, rfl, hblank, hcomment⟩, ?_⟩
  intro rest hrest
  rw [← hkind rest hrest]
  apply longest?_of_lt
  · rw [hkind rest hrest]
    exact Nat.zero_lt_succ _
  · intro k hk
    rw [hkind rest hrest]
    exact hother rest hrest k hk

/-- A token whose first character begins no other class. -/
theorem lexes_of_beginning {kind : TokenKind} {c : Char} {cs : List Char}
    (hblank : isBlank c = false) (hcomment : c ≠ '#')
    (hother : ∀ k, k ≠ kind → beginsWith c k = false)
    (hkind : ∀ rest, Parted rest → matchLength (c :: cs ++ rest) kind = (c :: cs).length) :
    Lexes kind (c :: cs) := by
  apply lexes_of_lengths hblank hcomment hkind
  intro rest _ k hk
  rw [List.cons_append, matchLength_of_beginning (hother k hk)]
  exact Nat.zero_lt_succ _

end Beginnings

section Words

theorem startsWord_toNat {c : Char} (h : startsWord c = true) : 65 ≤ c.toNat ∧ c.toNat ≤ 122 := by
  simp only [startsWord, Char.isAlpha, Char.isUpper, Char.isLower, Bool.or_eq_true,
    Bool.and_eq_true, decide_eq_true_eq, UInt32.le_iff_toNat_le, ge_iff_le] at h
  change ((65 ≤ c.toNat ∧ c.toNat ≤ 90) ∨ (97 ≤ c.toNat ∧ c.toNat ≤ 122)) ∨ c = '_' at h
  rcases h with (h | h) | rfl
  · omega
  · omega
  · decide

/-- A character that begins a word begins no other token. -/
theorem startsWord_spec {c : Char} (h : startsWord c = true) :
    c.isDigit = false ∧ ∀ d, startsWord d = false → c ≠ d := by
  constructor
  · cases hdigit : c.isDigit with
    | false => rfl
    | true =>
        have hrange := Char.isDigit_iff_toNat.mp hdigit
        have hword := startsWord_toNat h
        change 48 ≤ c.toNat ∧ c.toNat ≤ 57 at hrange
        omega
  · rintro d hd rfl
    rw [h] at hd
    cases hd

/-- Opcodes, names, labels and keyword constants. -/
theorem lexes_word {c : Char} {cs : List Char} (hc : startsWord c = true)
    (hcs : ∀ d ∈ cs, continuesWord d = true) : Lexes .word (c :: cs) := by
  obtain ⟨hdigit, hne⟩ := startsWord_spec hc
  apply lexes_of_beginning
  · simp [isBlank, hne ' ' (by decide), hne '\t' (by decide), hne '\r' (by decide),
      hne '\n' (by decide), hne '\x0c' (by decide)]
  · exact hne '#' (by decide)
  · intro k hk
    cases k with
    | word => exact absurd rfl hk
    | _ =>
        simp [beginsWith, hdigit, hne '0' (by decide), hne '-' (by decide), hne '"' (by decide),
          hne ':' (by decide)]
  · intro rest hrest
    have hrun := takeWhile_append hcs (hrest.takeWhile (by decide) (by decide) (by decide))
    simp only [matchLength, List.cons_append, wordLength, hc, if_true, hrun, List.length_cons]
    omega

theorem lexes_colon : Lexes .colon [':'] := by
  apply lexes_of_beginning (by decide) (by decide)
  · intro k hk
    cases k with
    | colon => exact absurd rfl hk
    | _ => rfl
  · intro rest _
    rfl

/-- Text constants. -/
theorem lexes_quote (cs : List Char) : Lexes .str (quote cs) := by
  apply lexes_of_beginning (by decide) (by decide)
  · intro k hk
    cases k with
    | str => exact absurd rfl hk
    | _ => rfl
  · intro rest _
    exact strLength_quote cs rest

end Words

section Numbers

/-- A minus sign, or none. -/
def signChars (negative : Bool) : List Char := if negative then ['-'] else []

/-- Digits that are not followed by a digit. -/
theorem digitRun_append {ds rest : List Char} (hds : ∀ c ∈ ds, c.isDigit = true)
    (hrest : rest.takeWhile Char.isDigit = []) : digitRun (ds ++ rest) = ds.length := by
  rw [digitRun, takeWhile_append hds hrest]

theorem signLength_signChars {ds : List Char} (hds : ∀ c ∈ ds, c.isDigit = true) (hne : ds ≠ [])
    (negative : Bool) (rest : List Char) :
    signLength (signChars negative ++ (ds ++ rest)) = (signChars negative).length := by
  cases negative with
  | true => rfl
  | false =>
      cases ds with
      | nil => exact absurd rfl hne
      | cons c ds =>
          have hc : c ≠ '-' := isDigit_ne (hds c List.mem_cons_self) (by decide)
          change signLength (c :: (ds ++ rest)) = 0
          unfold signLength
          split
          · next heq => exact absurd (List.cons.inj heq).1 hc
          · rfl

theorem intLength_append {ds : List Char} (hds : ∀ c ∈ ds, c.isDigit = true) (hne : ds ≠ [])
    (negative : Bool) {rest : List Char} (hrest : rest.takeWhile Char.isDigit = []) :
    intLength (signChars negative ++ (ds ++ rest)) = (signChars negative ++ ds).length := by
  have hpos := List.length_pos_iff.mpr hne
  rw [intLength, signLength_signChars hds hne, List.drop_left, digitRun_append hds hrest]
  simp only [List.length_append]
  rw [if_neg (by omega)]

theorem signChars_ne_nil {ds : List Char} (hne : ds ≠ []) (negative : Bool) (tail : List Char) :
    signChars negative ++ (ds ++ tail) ≠ [] := by
  simp [hne]

/-- The first character of a number begins no word, text or colon. -/
theorem number_begins {ds : List Char} (hds : ∀ c ∈ ds, c.isDigit = true) (hne : ds ≠ [])
    (negative : Bool) (tail : List Char) :
    ∃ c rest, signChars negative ++ (ds ++ tail) = c :: rest ∧ isBlank c = false ∧ c ≠ '#' ∧
      ∀ k, k = .str ∨ k = .word ∨ k = .colon → beginsWith c k = false := by
  cases negative with
  | true =>
      refine ⟨'-', ds ++ tail, rfl, by decide, by decide, ?_⟩
      rintro k (rfl | rfl | rfl) <;> rfl
  | false =>
      cases ds with
      | nil => exact absurd rfl hne
      | cons c ds =>
          have hdigit := hds c List.mem_cons_self
          have hc : ∀ d : Char, d.isDigit = false → c ≠ d := fun d hd => isDigit_ne hdigit hd
          have hword : startsWord c = false := by
            cases hstart : startsWord c with
            | false => rfl
            | true =>
                rw [(startsWord_spec hstart).1] at hdigit
                cases hdigit
          refine ⟨c, ds ++ tail, rfl, ?_, hc '#' (by decide), ?_⟩
          · simp [isBlank, hc ' ' (by decide), hc '\t' (by decide), hc '\r' (by decide),
              hc '\n' (by decide), hc '\x0c' (by decide)]
          · rintro k (rfl | rfl | rfl)
            · simp [beginsWith, hc '"' (by decide)]
            · exact hword
            · simp [beginsWith, hc ':' (by decide)]

/-- A number in which no letter of `0x` or `-inf` occurs is an integer or a float. -/
theorem lexes_number {kind : TokenKind} {ds tail : List Char}
    (hds : ∀ c ∈ ds, c.isDigit = true) (hne : ds ≠ []) (negative : Bool)
    (hletters : ∀ c ∈ signChars negative ++ (ds ++ tail), c ≠ 'x' ∧ c ≠ 'i')
    (hkind : ∀ rest, Parted rest → matchLength (signChars negative ++ (ds ++ tail) ++ rest) kind
      = (signChars negative ++ (ds ++ tail)).length)
    (hother : ∀ rest, Parted rest → ∀ k, k = .int ∨ k = .float → k ≠ kind →
      matchLength (signChars negative ++ (ds ++ tail) ++ rest) k
        < (signChars negative ++ (ds ++ tail)).length) :
    Lexes kind (signChars negative ++ (ds ++ tail)) := by
  have htext := signChars_ne_nil hne negative tail
  obtain ⟨c, cs, hcs, hblank, hcomment, hbegins⟩ := number_begins hds hne negative tail
  have hx : ∀ rest, Parted rest → (signChars negative ++ (ds ++ tail) ++ rest)[1]? ≠ some 'x' :=
    fun rest hrest => second_ne (by decide) (fun d hd => (hletters d hd).1) htext hrest
  have hi : ∀ rest, Parted rest → (signChars negative ++ (ds ++ tail) ++ rest)[1]? ≠ some 'i' :=
    fun rest hrest => second_ne (by decide) (fun d hd => (hletters d hd).2) htext hrest
  rw [hcs] at hkind hother hx hi ⊢
  apply lexes_of_lengths hblank hcomment hkind
  intro rest hrest k hk
  cases k with
  | hex =>
      have hzero : matchLength (c :: cs ++ rest) .hex = 0 := by
        change hexLength (c :: cs ++ rest) = 0
        have hsecond := hx rest hrest
        unfold hexLength
        split
        · next heq =>
            rw [heq] at hsecond
            exact absurd rfl hsecond
        · rfl
      rw [hzero]
      exact Nat.zero_lt_succ _
  | negInf =>
      have hzero : matchLength (c :: cs ++ rest) .negInf = 0 := by
        rw [matchLength, if_neg]
        intro hprefix
        obtain ⟨more, hmore⟩ := List.isPrefixOf_iff_prefix.mp hprefix
        have hsecond := hi rest hrest
        rw [← hmore] at hsecond
        exact hsecond rfl
      rw [hzero]
      exact Nat.zero_lt_succ _
  | int => exact hother rest hrest .int (Or.inl rfl) hk
  | float => exact hother rest hrest .float (Or.inr rfl) hk
  | _ =>
      rw [List.cons_append, matchLength_of_beginning (hbegins _ (by simp))]
      exact Nat.zero_lt_succ _

theorem fractionLength_of_parted {rest : List Char} (h : Parted rest) : fractionLength rest = 0 := by
  cases rest with
  | nil => rfl
  | cons c rest => rcases h with rfl | rfl | rfl <;> rfl

theorem exponentLength_of_parted {rest : List Char} (h : Parted rest) : exponentLength rest = 0 := by
  cases rest with
  | nil => rfl
  | cons c rest => rcases h with rfl | rfl | rfl <;> rfl

theorem Parted.digits {rest : List Char} (h : Parted rest) : rest.takeWhile Char.isDigit = [] :=
  h.takeWhile (by decide) (by decide) (by decide)

/-- Integers and counts. -/
theorem lexes_int {ds : List Char} (hds : ∀ c ∈ ds, c.isDigit = true) (hne : ds ≠ [])
    (negative : Bool) : Lexes .int (signChars negative ++ ds) := by
  have hint : ∀ rest, Parted rest → intLength (signChars negative ++ (ds ++ rest))
      = (signChars negative ++ ds).length :=
    fun rest hrest => intLength_append hds hne negative hrest.digits
  have hlexes : Lexes .int (signChars negative ++ (ds ++ [])) := by
    apply lexes_number hds hne negative
    · intro c hc
      rw [List.append_nil] at hc
      rcases List.mem_append.mp hc with hc | hc
      · cases negative with
        | true =>
            obtain rfl := List.mem_singleton.mp hc
            decide
        | false => cases hc
      · exact ⟨isDigit_ne (hds c hc) (by decide), isDigit_ne (hds c hc) (by decide)⟩
    · intro rest hrest
      rw [List.append_nil, List.append_assoc]
      exact hint rest hrest
    · rintro rest hrest k (rfl | rfl) hk
      · exact absurd rfl hk
      · rw [List.append_nil, List.append_assoc]
        change floatLength (signChars negative ++ (ds ++ rest)) < _
        have hdrop : (signChars negative ++ (ds ++ rest)).drop (signChars negative ++ ds).length
            = rest := by
          rw [← List.append_assoc, List.drop_left]
        have hpos := List.length_pos_iff.mpr hne
        simp only [floatLength, hint rest hrest, hdrop, fractionLength_of_parted hrest,
          Nat.add_zero, exponentLength_of_parted hrest, if_true, ite_self]
        simp only [List.length_append]
        omega
  rwa [List.append_nil] at hlexes

theorem mem_hexChars {raw : UInt16} {c : Char} (hc : c ∈ (Instruction.operandChars raw).drop 2) :
    isHexDigit c = true := by
  rcases List.mem_append.mp hc with hc | hc
  · obtain ⟨-, rfl⟩ := List.mem_replicate.mp hc
    decide
  · obtain ⟨d, hd, rfl⟩ := exists_digit_of_mem_toDigits _ c hc
    exact (hexDigit_spec d hd).2.1

/-- Call operands. -/
theorem lexes_hex (raw : UInt16) : Lexes .hex (Instruction.operandChars raw) := by
  have htext : Instruction.operandChars raw
      = '0' :: 'x' :: (Instruction.operandChars raw).drop 2 := rfl
  rw [htext]
  have hne : (Instruction.operandChars raw).drop 2 ≠ [] := by
    simp [Instruction.operandChars, Nat.toDigits_ne_nil]
  have hpos := List.length_pos_iff.mpr hne
  apply lexes_of_lengths (by decide) (by decide)
  · intro rest hrest
    have hrun : ((Instruction.operandChars raw).drop 2 ++ rest).takeWhile isHexDigit
        = (Instruction.operandChars raw).drop 2 :=
      takeWhile_append (fun c hc => mem_hexChars hc)
        (hrest.takeWhile (by decide) (by decide) (by decide))
    change hexLength ('0' :: 'x' :: ((Instruction.operandChars raw).drop 2 ++ rest)) = _
    rw [hexLength, hrun, if_neg (by omega)]
    simp only [List.length_cons]
    omega
  · intro rest hrest k hk
    cases k with
    | hex => exact absurd rfl hk
    | int =>
        change 1 < _
        simp only [List.length_cons]
        omega
    | float => exact Nat.zero_lt_succ _
    | _ =>
        rw [List.cons_append, matchLength_of_beginning (by decide)]
        exact Nat.zero_lt_succ _

theorem lexes_negInf : Lexes .negInf ['-', 'i', 'n', 'f'] := by
  apply lexes_of_lengths (by decide) (by decide)
  · intro rest _
    rfl
  · intro rest _ k hk
    cases k with
    | negInf => exact absurd rfl hk
    | int => exact Nat.zero_lt_succ _
    | float => exact Nat.zero_lt_succ _
    | _ =>
        rw [List.cons_append, matchLength_of_beginning (by decide)]
        exact Nat.zero_lt_succ _

end Numbers

end Listing

section Numerals

open Listing

/-- A number with the digits of a fraction (none if there is no point) and of an exponent. -/
structure Numeral where
  whole : List Char
  fraction : List Char
  power : Option (Bool × List Char)

namespace Numeral

def pointChars : List Char → List Char
  | [] => []
  | ds => '.' :: ds

def powerChars : Option (Bool × List Char) → List Char
  | none => []
  | some (negative, ds) => 'e' :: (signChars negative ++ ds)

/-- The text of a number. -/
def chars (n : Numeral) : List Char := n.whole ++ (pointChars n.fraction ++ powerChars n.power)

/-- A number that is written as a float: its parts are digits, and there is a fraction or an
exponent. -/
structure Proper (n : Numeral) : Prop where
  whole : n.whole ≠ [] ∧ ∀ c ∈ n.whole, c.isDigit = true
  fraction : ∀ c ∈ n.fraction, c.isDigit = true
  power : ∀ negative ds, n.power = some (negative, ds) → ds ≠ [] ∧ ∀ c ∈ ds, c.isDigit = true
  float : n.fraction ≠ [] ∨ n.power ≠ none

variable {n : Numeral} {rest : List Char}

/-- Digits with a point and more digits behind it. -/
theorem Proper.point {whole fraction : List Char} (hwhole : whole ≠ [])
    (hdigits : ∀ c ∈ whole, c.isDigit = true) (hfraction : fraction ≠ [])
    (hmore : ∀ c ∈ fraction, c.isDigit = true) : Proper ⟨whole, fraction, none⟩ where
  whole := ⟨hwhole, hdigits⟩
  fraction := hmore
  power := by
    intro negative ds hds
    cases hds
  float := Or.inl hfraction

theorem chars_point (whole : List Char) {fraction : List Char} (h : fraction ≠ []) :
    chars ⟨whole, fraction, none⟩ = whole ++ '.' :: fraction := by
  cases fraction with
  | nil => exact absurd rfl h
  | cons c more => simp [chars, pointChars, powerChars]

theorem takeWhile_powerChars (hrest : Parted rest) :
    (powerChars n.power ++ rest).takeWhile Char.isDigit = [] := by
  cases n.power with
  | none => exact hrest.digits
  | some p => rfl

theorem fractionLength_pointChars (hn : n.Proper) (hrest : Parted rest) :
    fractionLength (pointChars n.fraction ++ (powerChars n.power ++ rest))
      = (pointChars n.fraction).length := by
  have hfraction := hn.fraction
  cases hdigits : n.fraction with
  | nil =>
      cases n.power with
      | none => exact fractionLength_of_parted hrest
      | some p => rfl
  | cons c ds =>
      rw [hdigits] at hfraction
      change fractionLength ('.' :: ((c :: ds) ++ (powerChars n.power ++ rest))) = _
      rw [fractionLength, digitRun_append hfraction (takeWhile_powerChars hrest)]
      simp only [pointChars, List.length_cons]
      rw [if_neg (Nat.succ_ne_zero _)]
      omega

theorem exponentSignLength_signChars {ds : List Char} (hds : ∀ c ∈ ds, c.isDigit = true)
    (hne : ds ≠ []) (negative : Bool) (rest : List Char) :
    exponentSignLength (signChars negative ++ (ds ++ rest)) = (signChars negative).length := by
  cases negative with
  | true => rfl
  | false =>
      cases ds with
      | nil => exact absurd rfl hne
      | cons c ds =>
          have hdigit := hds c List.mem_cons_self
          change exponentSignLength (c :: (ds ++ rest)) = 0
          unfold exponentSignLength
          split
          · next heq =>
              exact absurd (List.cons.inj heq).1 (isDigit_ne hdigit (by decide))
          · next heq =>
              exact absurd (List.cons.inj heq).1 (isDigit_ne hdigit (by decide))
          · rfl

theorem exponentLength_powerChars (hn : n.Proper) (hrest : Parted rest) :
    exponentLength (powerChars n.power ++ rest) = (powerChars n.power).length := by
  cases hpower : n.power with
  | none => exact exponentLength_of_parted hrest
  | some p =>
      obtain ⟨negative, ds⟩ := p
      obtain ⟨hne, hds⟩ := hn.power negative ds hpower
      have hpos := List.length_pos_iff.mpr hne
      simp only [powerChars, List.cons_append, List.append_assoc]
      rw [exponentLength, if_pos (Or.inl rfl)]
      simp only [exponentSignLength_signChars hds hne, List.drop_left,
        digitRun_append hds hrest.digits, List.length_cons, List.length_append]
      rw [if_neg (by omega)]
      omega

theorem takeWhile_tail (hrest : Parted rest) :
    (pointChars n.fraction ++ (powerChars n.power ++ rest)).takeWhile Char.isDigit = [] := by
  cases n.fraction with
  | nil => exact takeWhile_powerChars hrest
  | cons c ds => rfl

theorem Proper.tail_pos (hn : n.Proper) :
    0 < (pointChars n.fraction).length + (powerChars n.power).length := by
  rcases hn.float with hfraction | hpower
  · cases hdigits : n.fraction with
    | nil => exact absurd hdigits hfraction
    | cons c ds =>
        simp only [pointChars, List.length_cons]
        omega
  · cases hdigits : n.power with
    | none => exact absurd hdigits hpower
    | some p =>
        simp only [powerChars, List.length_cons]
        omega

/-- The length of a float is that of its parts. -/
theorem floatLength_chars (hn : n.Proper) (negative : Bool) (hrest : Parted rest) :
    intLength (signChars negative ++ n.chars ++ rest) = (signChars negative ++ n.whole).length ∧
      floatLength (signChars negative ++ n.chars ++ rest)
        = (signChars negative ++ n.chars).length := by
  have htext : signChars negative ++ n.chars ++ rest
      = signChars negative ++ (n.whole ++ (pointChars n.fraction ++ (powerChars n.power ++ rest))) := by
    simp [chars]
  have hint := intLength_append hn.whole.2 hn.whole.1 negative (@takeWhile_tail n rest hrest)
  have hdrop : (signChars negative
      ++ (n.whole ++ (pointChars n.fraction ++ (powerChars n.power ++ rest)))).drop
        (signChars negative ++ n.whole).length
      = pointChars n.fraction ++ (powerChars n.power ++ rest) := by
    rw [← List.append_assoc, List.drop_left]
  have hpos := List.length_pos_iff.mpr hn.whole.1
  have hdrop' : (signChars negative
      ++ (n.whole ++ (pointChars n.fraction ++ (powerChars n.power ++ rest)))).drop
        ((signChars negative ++ n.whole).length + (pointChars n.fraction).length)
      = powerChars n.power ++ rest := by
    rw [← List.drop_drop, hdrop, List.drop_left]
  have hsome := hn.tail_pos
  rw [htext]
  refine ⟨hint, ?_⟩
  simp only [floatLength, hint, hdrop, fractionLength_pointChars hn hrest, hdrop',
    exponentLength_powerChars hn hrest]
  simp only [List.length_append, chars]
  rw [if_neg (by omega), if_neg (by omega)]
  omega

theorem mem_signChars {negative : Bool} {c : Char} (hc : c ∈ signChars negative) : c = '-' := by
  cases negative with
  | true => exact List.mem_singleton.mp hc
  | false => cases hc

theorem mem_chars (hn : n.Proper) {c : Char} (hc : c ∈ n.chars) :
    c.isDigit = true ∨ c = '.' ∨ c = 'e' ∨ c = '-' := by
  rcases List.mem_append.mp hc with hc | hc
  · exact Or.inl (hn.whole.2 c hc)
  rcases List.mem_append.mp hc with hc | hc
  · have hfraction := hn.fraction
    cases hdigits : n.fraction with
    | nil =>
        rw [hdigits] at hc
        cases hc
    | cons d ds =>
        rw [hdigits] at hc hfraction
        rcases List.mem_cons.mp hc with rfl | hc
        · exact Or.inr (Or.inl rfl)
        · exact Or.inl (hfraction c hc)
  · cases hpower : n.power with
    | none =>
        rw [hpower] at hc
        cases hc
    | some p =>
        obtain ⟨negative, ds⟩ := p
        rw [hpower] at hc
        rcases List.mem_cons.mp hc with rfl | hc
        · exact Or.inr (Or.inr (Or.inl rfl))
        rcases List.mem_append.mp hc with hc | hc
        · exact Or.inr (Or.inr (Or.inr (mem_signChars hc)))
        · exact Or.inl ((hn.power negative ds hpower).2 c hc)

end Numeral

/-- Float constants. -/
theorem Listing.lexes_numeral {n : Numeral} (hn : n.Proper) (negative : Bool) :
    Lexes .float (signChars negative ++ n.chars) := by
  apply lexes_number hn.whole.2 hn.whole.1 negative
  · intro c hc
    rcases List.mem_append.mp hc with hc | hc
    · rw [Numeral.mem_signChars hc]
      decide
    · rcases Numeral.mem_chars hn hc with hc | rfl | rfl | rfl
      · exact ⟨isDigit_ne hc (by decide), isDigit_ne hc (by decide)⟩
      all_goals decide
  · intro rest hrest
    exact (Numeral.floatLength_chars hn negative hrest).2
  · rintro rest hrest k (rfl | rfl) hk
    · have hsome := hn.tail_pos
      change intLength (signChars negative ++ n.chars ++ rest) < (signChars negative ++ n.chars).length
      rw [(Numeral.floatLength_chars hn negative hrest).1]
      simp only [List.length_append, Numeral.chars]
      omega
    · exact absurd rfl hk

end Numerals

end TrackedExpr
