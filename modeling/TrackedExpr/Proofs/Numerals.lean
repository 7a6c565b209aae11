import Mathlib
import TrackedExpr.Listing.Assembly

/-!
# Numerals

Numbers are written by their digits, and reading the digits gives the numbers back.

**Results.**
* `natOfDigits?_natChars`, `intOfDigits?_intChars`: decimal numbers;
* `hexDigits?_toDigits`, `natOfHexDigits_operand`: hexadecimal numbers, read in quoted text and
  in call operands;
* `labelNumber?_chars`: the number of a label that is written `L<n>`.
-/

namespace TrackedExpr

open Listing Text

section Decimal

theorem all_isDigit_natChars (n : Nat) : ∀ c ∈ natChars n, c.isDigit = true :=
  fun _ hc => Nat.isDigit_of_mem_toDigits (by decide) (by decide) hc

theorem natChars_ne_nil (n : Nat) : natChars n ≠ [] := Nat.toDigits_ne_nil

/-- The value of a non-empty run of digits. -/
theorem natOfDigits?_of_digits {ds : List Char} (hne : ds ≠ [])
    (hds : ∀ c ∈ ds, c.isDigit = true) : natOfDigits? ds = some (Nat.ofDigitChars 10 ds 0) := by
  have hall : ds.all Char.isDigit = true := List.all_eq_true.mpr hds
  cases ds with
  | nil => exact absurd rfl hne
  | cons c rest => simp [natOfDigits?, hall]

/-- A number is read as it is written. -/
theorem natOfDigits?_natChars (n : Nat) : natOfDigits? (natChars n) = some n := by
  rw [natOfDigits?_of_digits (natChars_ne_nil n) (all_isDigit_natChars n)]
  exact congrArg some Nat.ofDigitChars_ten_toDigits

theorem isDigit_ne {c d : Char} (hc : c.isDigit = true) (hd : d.isDigit = false) : c ≠ d := by
  rintro rfl
  rw [hc] at hd
  cases hd

theorem intOfDigits?_of_digits {ds : List Char} (hds : ∀ c ∈ ds, c.isDigit = true) :
    intOfDigits? ds = (natOfDigits? ds).map Int.ofNat := by
  cases ds with
  | nil => rfl
  | cons c rest =>
      have hc : c ≠ '-' := isDigit_ne (hds c List.mem_cons_self) (by decide)
      unfold intOfDigits?
      split
      · next heq =>
          cases heq
          exact absurd rfl hc
      · rfl

/-- An integer is read as it is written. -/
theorem intOfDigits?_intChars (i : Int) : intOfDigits? (intChars i) = some i := by
  by_cases hi : i < 0
  · rw [intChars, if_pos hi, intOfDigits?, natOfDigits?_natChars]
    change some (-(i.natAbs : Int)) = some i
    congr 1
    omega
  · rw [intChars, if_neg hi, intOfDigits?_of_digits (all_isDigit_natChars _),
      natOfDigits?_natChars, Option.map_some]
    congr 1
    exact Int.natAbs_of_nonneg (Int.not_lt.mp hi)

/-- The number of a label that is written `L<n>`. -/
theorem labelNumber?_chars (l : Label) : labelNumber? l.chars = some l.number.toNat := by
  have hlt := l.number.toNat_lt_size
  rw [Label.chars, labelNumber?, natOfDigits?_natChars, below?, Option.filter_some,
    if_pos (decide_eq_true hlt)]

theorem label_chars_injective : Function.Injective Label.chars := by
  intro l k h
  have hnumber := congrArg labelNumber? h
  rw [labelNumber?_chars, labelNumber?_chars, Option.some.injEq, UInt32.toNat_inj] at hnumber
  cases l
  cases k
  exact congrArg Label.mk hnumber

end Decimal

section Hexadecimal

/-- A digit of a number in hexadecimal. -/
theorem hexDigit_spec : ∀ d < 16, hexDigit? d.digitChar = some d ∧
    isHexDigit d.digitChar = true ∧ d.digitChar ≠ '+' ∧ d.digitChar ≠ '}' ∧
    (if d.digitChar.isDigit then d.digitChar.toNat - '0'.toNat
      else d.digitChar.toLower.toNat - 'a'.toNat + 10) = d := by
  decide

theorem exists_digit_of_mem_toDigits (n : Nat) :
    ∀ c ∈ Nat.toDigits 16 n, ∃ d < 16, c = d.digitChar := by
  induction n using Nat.strongRecOn with
  | ind n ih =>
      intro c hc
      rw [Nat.toDigits_eq_if (by decide)] at hc
      split at hc
      · next hn => exact ⟨n, hn, List.mem_singleton.mp hc⟩
      · next hn =>
          rcases List.mem_append.mp hc with hc | hc
          · exact ih (n / 16) (by omega) c hc
          · exact ⟨n % 16, Nat.mod_lt n (by decide), List.mem_singleton.mp hc⟩

theorem hexDigits?_append {ds : List Char} : ∀ {start n : Nat} (c : Char) {d : Nat},
    hexDigits? start ds = some n → hexDigit? c = some d →
      hexDigits? start (ds ++ [c]) = some (16 * n + d) := by
  induction ds with
  | nil =>
      intro start n c d hn hd
      cases hn
      simp [hexDigits?, hd]
  | cons b rest ih =>
      intro start n c d hn hd
      rw [hexDigits?] at hn
      rw [List.cons_append, hexDigits?]
      cases hb : hexDigit? b with
      | none =>
          rw [hb] at hn
          cases hn
      | some k =>
          rw [hb] at hn
          exact ih c hn hd

/-- A code point is read as it is written. -/
theorem hexDigits?_toDigits (n : Nat) : hexDigits? 0 (Nat.toDigits 16 n) = some n := by
  induction n using Nat.strongRecOn with
  | ind n ih =>
      rw [Nat.toDigits_eq_if (by decide)]
      split
      · next hn => simp [hexDigits?, (hexDigit_spec n hn).1]
      · next hn =>
          have hdigit := (hexDigit_spec (n % 16) (Nat.mod_lt n (by decide))).1
          rw [hexDigits?_append _ (ih (n / 16) (by omega)) hdigit]
          congr 1
          omega

theorem natOfHexDigits_append (ds : List Char) (c : Char) :
    natOfHexDigits (ds ++ [c]) = 16 * natOfHexDigits ds +
      (if c.isDigit then c.toNat - '0'.toNat else c.toLower.toNat - 'a'.toNat + 10) := by
  simp [natOfHexDigits, List.foldl_append]

theorem natOfHexDigits_zeros (k : Nat) (ds : List Char) :
    natOfHexDigits (List.replicate k '0' ++ ds) = natOfHexDigits ds := by
  induction k with
  | zero => rfl
  | succ k ih =>
      rw [List.replicate_succ, List.cons_append, natOfHexDigits, List.foldl_cons]
      exact ih

theorem natOfHexDigits_toDigits (n : Nat) : natOfHexDigits (Nat.toDigits 16 n) = n := by
  induction n using Nat.strongRecOn with
  | ind n ih =>
      rw [Nat.toDigits_eq_if (by decide)]
      split
      · next hn =>
          have hdigit := (hexDigit_spec n hn).2.2.2.2
          simpa [natOfHexDigits] using hdigit
      · next hn =>
          have hdigit := (hexDigit_spec (n % 16) (Nat.mod_lt n (by decide))).2.2.2.2
          rw [natOfHexDigits_append, hdigit, ih (n / 16) (by omega)]
          omega

/-- A call operand is read as it is written. -/
theorem natOfHexDigits_operand (raw : UInt16) :
    natOfHexDigits ((Instruction.operandChars raw).drop 2) = raw.toNat := by
  rw [Instruction.operandChars]
  simp only [List.drop_succ_cons, List.drop_zero]
  rw [natOfHexDigits_zeros, natOfHexDigits_toDigits]

end Hexadecimal

end TrackedExpr
