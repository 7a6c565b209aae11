import TrackedExpr.Proofs.Numerals

/-!
# Quoted text is read back

Every character of a quoted text is read as the character that was written, and the
first quote that no backslash takes with it is the one at the end.

**Results.**
* `Text.unescape?_escape`, `Text.unescape?_flatMap`: one character, and a whole text;
* `Listing.quotedLength_escape`, `Listing.strLength_quote`: where a quoted text ends.
-/

namespace TrackedExpr

namespace Text

section CodePoints

theorem ne_brace_of_mem_toDigits {n : Nat} {c : Char} (hc : c ∈ Nat.toDigits 16 n) : c ≠ '}' := by
  obtain ⟨d, hd, rfl⟩ := exists_digit_of_mem_toDigits n c hc
  exact (hexDigit_spec d hd).2.2.2.1

theorem takeWhile_digits (n : Nat) (rest : List Char) :
    (Nat.toDigits 16 n ++ '}' :: rest).takeWhile (· ≠ '}') = Nat.toDigits 16 n := by
  rw [List.takeWhile_append_of_pos fun c hc => by simpa using ne_brace_of_mem_toDigits hc]
  simp

theorem dropWhile_digits (n : Nat) (rest : List Char) :
    (Nat.toDigits 16 n ++ '}' :: rest).dropWhile (· ≠ '}') = '}' :: rest := by
  rw [List.dropWhile_append_of_pos fun c hc => by simpa using ne_brace_of_mem_toDigits hc]
  simp

theorem hexNumber?_toDigits (n : Nat) : hexNumber? (Nat.toDigits 16 n) = some n := by
  cases hds : Nat.toDigits 16 n with
  | nil => exact absurd hds Nat.toDigits_ne_nil
  | cons c rest =>
      obtain ⟨d, hd, rfl⟩ := exists_digit_of_mem_toDigits n c (by simp [hds])
      have hplus := (hexDigit_spec d hd).2.2.1
      rw [← hexDigits?_toDigits n, hds]
      unfold hexNumber?
      split
      · next h => cases h
      · next h => exact absurd (List.cons.inj h).1 hplus
      · next h => exact absurd (List.cons.inj h).1 hplus
      · rfl

theorem ofCodePoint?_toNat (c : Char) : ofCodePoint? c.toNat = some c := by
  have hvalid : c.toNat.isValidChar := c.valid
  rw [ofCodePoint?, if_pos hvalid, Char.ofNat_toNat]

end CodePoints

section Reading

/-- A letter after a backslash names the character that has it. -/
theorem ofEscapeLetter?_escapeLetter? {c letter : Char} (h : escapeLetter? c = some letter) :
    ofEscapeLetter? letter = some c ∧ letter ≠ 'u' := by
  unfold escapeLetter? at h
  repeat' split at h
  all_goals cases h
  all_goals
    subst c
    decide

/-- The quote and the backslash have letters. -/
theorem plain_of_escapeLetter? {c : Char} (h : escapeLetter? c = none) : c ≠ '\\' ∧ c ≠ '"' := by
  constructor
  all_goals
    rintro rfl
    cases h

theorem unescape?_plain {c : Char} (hc : c ≠ '\\') (rest : List Char) :
    unescape? (c :: rest) = (unescape? rest).map (c :: ·) := by
  rw [unescape?]
  all_goals
    intros
    simp_all

theorem unescape?_letter {letter c : Char} (hletter : ofEscapeLetter? letter = some c)
    (hu : letter ≠ 'u') (rest : List Char) :
    unescape? ('\\' :: letter :: rest) = (unescape? rest).map (c :: ·) := by
  rw [unescape?]
  · rw [hletter]
  · intro rest' h
    exact absurd h hu

theorem unescape?_codePoint (c : Char) (rest : List Char) :
    unescape? (codePoint c ++ rest) = (unescape? rest).map (c :: ·) := by
  have htext : codePoint c ++ rest
      = '\\' :: 'u' :: '{' :: (Nat.toDigits 16 c.toNat ++ '}' :: rest) := by
    simp [codePoint]
  rw [htext, unescape?, takeWhile_digits, dropWhile_digits, hexNumber?_toDigits, Option.bind_some,
    ofCodePoint?_toNat]
  rfl

/-- A character is read as it is written. -/
theorem unescape?_escape (c : Char) (rest : List Char) :
    unescape? (escape c ++ rest) = (unescape? rest).map (c :: ·) := by
  unfold escape
  cases hletter : escapeLetter? c with
  | some letter =>
      obtain ⟨hread, hu⟩ := ofEscapeLetter?_escapeLetter? hletter
      exact unescape?_letter hread hu rest
  | none =>
      dsimp only
      split
      · exact unescape?_codePoint c rest
      · exact unescape?_plain (plain_of_escapeLetter? hletter).1 rest

/-- **Quoted text is read as it was written.** -/
theorem unescape?_flatMap (cs : List Char) : unescape? (cs.flatMap escape) = some cs := by
  induction cs with
  | nil => rw [List.flatMap_nil, unescape?]
  | cons c rest ih => rw [List.flatMap_cons, unescape?_escape, ih, Option.map_some]

end Reading

end Text

namespace Listing

section Lengths

open Text

theorem quotedLength_plain {c : Char} (hb : c ≠ '\\') (hq : c ≠ '"') {rest : List Char}
    (h : quotedLength rest ≠ 0) : quotedLength (c :: rest) = quotedLength rest + 1 := by
  rw [quotedLength]
  · cases hrest : quotedLength rest with
    | zero => exact absurd hrest h
    | succ n => rfl
  all_goals
    intros
    simp_all

theorem quotedLength_letter {letter : Char} (hn : letter ≠ '\n') {rest : List Char}
    (h : quotedLength rest ≠ 0) :
    quotedLength ('\\' :: letter :: rest) = quotedLength rest + 2 := by
  rw [quotedLength, if_neg hn]
  cases hrest : quotedLength rest with
  | zero => exact absurd hrest h
  | succ n => rfl

theorem quotedLength_append {cs rest : List Char} (hcs : ∀ c ∈ cs, c ≠ '\\' ∧ c ≠ '"')
    (h : quotedLength rest ≠ 0) : quotedLength (cs ++ rest) = cs.length + quotedLength rest := by
  induction cs with
  | nil => simp
  | cons c cs ih =>
      have hrest := ih fun d hd => hcs d (List.mem_cons_of_mem _ hd)
      obtain ⟨hb, hq⟩ := hcs c List.mem_cons_self
      rw [List.cons_append, quotedLength_plain hb hq (by omega), hrest, List.length_cons]
      omega

/-- What a character is written as does not end the text. -/
theorem quotedLength_escape (c : Char) {rest : List Char} (h : quotedLength rest ≠ 0) :
    quotedLength (escape c ++ rest) = (escape c).length + quotedLength rest := by
  unfold escape
  cases hletter : escapeLetter? c with
  | some letter =>
      have hn : letter ≠ '\n' := by
        rintro rfl
        cases (ofEscapeLetter?_escapeLetter? hletter).1
      dsimp only
      rw [List.cons_append, List.cons_append, List.nil_append, quotedLength_letter hn h]
      simp [Nat.add_comm]
  | none =>
      obtain ⟨hb, hq⟩ := plain_of_escapeLetter? hletter
      dsimp only
      split
      · have hdigits : ∀ d ∈ '{' :: (Nat.toDigits 16 c.toNat ++ ['}']), d ≠ '\\' ∧ d ≠ '"' := by
          intro d hd
          simp only [List.mem_cons, List.mem_append, List.not_mem_nil, or_false] at hd
          rcases hd with rfl | hd | rfl
          · decide
          · obtain ⟨k, hk, rfl⟩ := exists_digit_of_mem_toDigits _ d hd
            exact (by decide : ∀ k < 16, k.digitChar ≠ '\\' ∧ k.digitChar ≠ '"') k hk
          · decide
        have hrest := quotedLength_append hdigits h
        rw [codePoint, List.cons_append, List.cons_append, quotedLength_letter (by decide) (by omega),
          hrest]
        simp only [List.length_cons]
        omega
      · exact quotedLength_append (by simpa using ⟨hb, hq⟩) h

/-- A quoted text ends where it was closed. -/
theorem strLength_quote (cs rest : List Char) :
    strLength (quote cs ++ rest) = (quote cs).length := by
  have hinside : ∀ cs : List Char, quotedLength (cs.flatMap escape ++ ('"' :: rest))
      = (cs.flatMap escape).length + 1 := by
    intro cs
    induction cs with
    | nil => rw [List.flatMap_nil, List.nil_append, quotedLength, List.length_nil]
    | cons c cs ih =>
        rw [List.flatMap_cons, List.append_assoc, quotedLength_escape c (by omega), ih,
          List.length_append]
        omega
  have htext : quote cs ++ rest = '"' :: (cs.flatMap escape ++ ('"' :: rest)) := by
    simp [quote]
  rw [htext, strLength, hinside, quote]
  simp

end Lengths

end Listing

end TrackedExpr
