import Mathlib
import TrackedExpr.Frame

/-!
# Integer arithmetic is exact or reported

Integers are 64-bit words.  A sum, a difference, a product, a negation and an absolute value are
the exact ones, and where no word holds the exact one an overflow is reported.  The remainder is
put together from the truncated one: a divisor of minus one is answered at once, and a remainder
of the wrong sign is corrected by the divisor.  Every step of this is exact, so nothing overflows
on the way.

**Definitions.**
* `FitsWord`: a word holds an integer;
* `Answers`: an operation answers an exact result, or that no word holds it;
* `word?`, `flooredMod?`: the remainder with every step checked;
* `BinaryOp.exact?`: the operators with an exact result in the integers.

**Results.**
* `answers_exactInt`, `answers_negate`, `answers_absolute`: operations that report an overflow;
* `exists_quotient`, `IsRemainder.floor_div`: the remainder is the one of the floored quotient;
* `flooredMod?_eq`: no step of it overflows;
* `integer_arithmetic_exact`: the instructions.
-/

namespace TrackedExpr

section Words

/-- A 64-bit word holds the integer. -/
def FitsWord (n : Int) : Prop := -2 ^ 63 ≤ n ∧ n < 2 ^ 63

instance (n : Int) : Decidable (FitsWord n) := inferInstanceAs (Decidable (_ ∧ _))

/-- The word that holds an integer, if one does. -/
def word? (n : Int) : Option Int64 := if FitsWord n then some (Int64.ofInt n) else none

/-- An operation whose exact result is `n` answers it, or that no word holds it. -/
def Answers (n : Int) : Except EvalError Value → Prop
  | .ok v => ∃ r : Int64, v = .int r ∧ r.toInt = n
  | .error e => e = .overflow ∧ ¬ FitsWord n

theorem fitsWord_toInt (a : Int64) : FitsWord a.toInt := ⟨a.le_toInt, a.toInt_lt⟩

theorem word?_eq {n : Int} {r : Int64} (h : r.toInt = n) : word? n = some r := by
  rw [← h, word?, if_pos (fitsWord_toInt r), Int64.ofInt_toInt]

theorem exactInt_eq (n : Int) :
    exactInt n = if FitsWord n then .ok (.int (Int64.ofInt n)) else .error .overflow := by
  have hrange : (Int64.minValue.toInt ≤ n ∧ n ≤ Int64.maxValue.toInt) ↔ FitsWord n := by
    rw [Int64.toInt_minValue, Int64.toInt_maxValue, FitsWord]
    omega
  rw [exactInt]
  simp only [hrange]

theorem answers_exactInt (n : Int) : Answers n (exactInt n) := by
  rw [exactInt_eq]
  split
  · next h => exact ⟨_, rfl, Int64.toInt_ofInt_of_le h.1 h.2⟩
  · next h => exact ⟨rfl, h⟩

theorem answers_negate (a : Int64) : Answers (-a.toInt) (Value.negate (.int a)) :=
  answers_exactInt _

theorem answers_absolute (a : Int64) : Answers |a.toInt| (Value.absolute (.int a)) := by
  rw [Int.abs_eq_natAbs]
  exact answers_exactInt _

/-- Only the least word has no negation. -/
theorem fitsWord_neg_iff (a : Int64) : FitsWord (-a.toInt) ↔ a ≠ Int64.minValue := by
  have hrange := fitsWord_toInt a
  rw [Ne, ← Int64.toInt_inj, Int64.toInt_minValue]
  unfold FitsWord at *
  omega

theorem fitsWord_abs_iff (a : Int64) : FitsWord |a.toInt| ↔ a ≠ Int64.minValue := by
  have hrange := fitsWord_toInt a
  rw [← fitsWord_neg_iff]
  unfold FitsWord at *
  rcases abs_cases a.toInt with ⟨habs, hsign⟩ | ⟨habs, hsign⟩
  · rw [habs]
    omega
  · rw [habs]

end Words

section Remainders

/-- The remainders of a floored division by `b`: they lie between zero and `b`, which is no
remainder itself. -/
def IsRemainder (b r : Int) : Prop := 0 ≤ r ∧ r < b ∨ b < r ∧ r ≤ 0

/-- The truncated remainder, corrected if it has the wrong sign. -/
def corrected (b r : Int) : Int := if r ≠ 0 ∧ ((r < 0) ≠ (b < 0)) then r + b else r

/-- The remainder with every step checked: the truncated quotient and remainder, and the sum that
corrects it. -/
def flooredMod? (a b : Int64) : Option Int64 :=
  if b = -1 then some 0
  else do
    let _ ← word? (a.toInt.tdiv b.toInt)
    let r ← word? (a.toInt.tmod b.toInt)
    if r ≠ 0 ∧ ((r < 0) ≠ (b < 0)) then word? (r.toInt + b.toInt) else some r

variable {a b q r : Int}

theorem IsRemainder.abs_lt (h : IsRemainder b r) : |r| < |b| := by
  rcases h with ⟨hr, hb⟩ | ⟨hb, hr⟩
  · rwa [abs_of_nonneg hr, abs_of_pos (by omega)]
  · rw [abs_of_nonpos hr, abs_of_neg (by omega)]
    omega

theorem IsRemainder.sign (h : IsRemainder b r) : r = 0 ∨ (r < 0 ↔ b < 0) := by
  unfold IsRemainder at h
  omega

/-- A division with such a remainder is the floored one. -/
theorem IsRemainder.floor_div (h : IsRemainder b r) (ha : a = b * q + r) :
    ⌊(a : ℚ) / b⌋ = q := by
  have ha : (a : ℚ) = b * q + r := by exact_mod_cast ha
  rw [Int.floor_eq_iff, ha]
  rcases h with ⟨hr, hb⟩ | ⟨hb, hr⟩
  · have hr' : (0 : ℚ) ≤ r := by exact_mod_cast hr
    have hb' : (r : ℚ) < b := by exact_mod_cast hb
    have hpos : (0 : ℚ) < b := hr'.trans_lt hb'
    rw [le_div_iff₀ hpos, div_lt_iff₀ hpos]
    constructor <;> linarith
  · have hr' : (r : ℚ) ≤ 0 := by exact_mod_cast hr
    have hb' : (b : ℚ) < r := by exact_mod_cast hb
    have hneg : (b : ℚ) < 0 := hb'.trans_le hr'
    rw [le_div_iff_of_neg hneg, div_lt_iff_of_neg hneg]
    constructor <;> linarith

theorem natAbs_tmod_lt (hb : b ≠ 0) (a : Int) : (a.tmod b).natAbs < b.natAbs := by
  rw [Int.natAbs_tmod]
  exact Nat.mod_lt _ (Int.natAbs_pos.mpr hb)

theorem isRemainder_corrected (hb : b ≠ 0) (a : Int) : IsRemainder b (corrected b (a.tmod b)) := by
  have hlt := natAbs_tmod_lt hb a
  unfold IsRemainder corrected
  split
  · next h =>
      obtain ⟨hzero, hsign⟩ := h
      have hsign : ¬ (a.tmod b < 0 ↔ b < 0) := fun h => hsign (propext h)
      omega
  · next h =>
      have hsign : a.tmod b ≠ 0 → (a.tmod b < 0 ↔ b < 0) := by
        intro hzero
        by_contra hne
        exact h ⟨hzero, fun heq => hne (iff_of_eq heq)⟩
      omega

/-- The correction changes the quotient by one at most. -/
theorem exists_quotient (a b : Int) : ∃ q, a = b * q + corrected b (a.tmod b) := by
  have hdivision := Int.tmod_add_mul_tdiv a b
  unfold corrected
  split
  · refine ⟨a.tdiv b - 1, ?_⟩
    linarith
  · refine ⟨a.tdiv b, ?_⟩
    linarith

end Remainders

section Division

variable {a b : Int64}

theorem toInt_ne_zero (hb : b ≠ 0) : b.toInt ≠ 0 :=
  fun h => hb (Int64.toInt_inj.mp (h.trans Int64.toInt_zero.symm))

/-- The words agree with the integers on whether a remainder has the wrong sign. -/
theorem wrongSign_iff : (a % b ≠ 0 ∧ ((a % b < 0) ≠ (b < 0))) ↔
    (a.toInt.tmod b.toInt ≠ 0 ∧ ((a.toInt.tmod b.toInt < 0) ≠ (b.toInt < 0))) := by
  rw [Ne, ← Int64.toInt_inj, Int64.lt_iff_toInt_lt, Int64.lt_iff_toInt_lt, Int64.toInt_mod,
    Int64.toInt_zero]

/-- The sum that corrects a remainder lies between zero and the divisor, so it is exact. -/
theorem toInt_correction (hb : b ≠ 0) (hsign : a % b ≠ 0 ∧ ((a % b < 0) ≠ (b < 0))) :
    (a % b + b).toInt = (a % b).toInt + b.toInt := by
  have hremainder := isRemainder_corrected (toInt_ne_zero hb) a.toInt
  have hrange := fitsWord_toInt b
  rw [corrected, if_pos (wrongSign_iff.mp hsign)] at hremainder
  rw [Int64.toInt_add, Int64.toInt_mod]
  unfold IsRemainder at hremainder
  unfold FitsWord at hrange
  exact Int.bmod_eq_of_le (by omega) (by omega)

/-- The remainder of words is that of integers. -/
theorem toInt_flooredMod (hb : b ≠ 0) :
    (flooredMod a b).toInt = corrected b.toInt (a.toInt.tmod b.toInt) := by
  by_cases hone : b = -1
  · subst hone
    have hzero : a.toInt.tmod (-1) = 0 := by rw [Int.tmod_neg, Int.tmod_one]
    simp [flooredMod, corrected, hzero]
  · simp only [flooredMod, if_neg hone, corrected, ← wrongSign_iff]
    split
    · next hsign => rw [toInt_correction hb hsign, Int64.toInt_mod]
    · exact Int64.toInt_mod a b

theorem fitsWord_tdiv (hb : b ≠ 0) (hone : b ≠ -1) : FitsWord (a.toInt.tdiv b.toInt) := by
  have hrange := fitsWord_toInt a
  have hne := toInt_ne_zero hb
  have hne' : b.toInt ≠ -1 := fun h => hone (Int64.toInt_inj.mp h)
  by_cases hunit : b.toInt = 1
  · rwa [hunit, Int.tdiv_one]
  · have hhalf : (a.toInt.tdiv b.toInt).natAbs ≤ a.toInt.natAbs / 2 := by
      rw [Int.natAbs_tdiv]
      exact Nat.div_le_div_left (by omega) (by decide)
    unfold FitsWord at *
    omega

/-- **Nothing overflows on the way to a remainder**: with every step checked it is the same. -/
theorem flooredMod?_eq (hb : b ≠ 0) : flooredMod? a b = some (flooredMod a b) := by
  by_cases hone : b = -1
  · rw [flooredMod?, flooredMod, if_pos hone, if_pos hone]
  · have hquotient : word? (a.toInt.tdiv b.toInt) = some (Int64.ofInt (a.toInt.tdiv b.toInt)) :=
      if_pos (fitsWord_tdiv hb hone)
    rw [flooredMod?, flooredMod, if_neg hone, if_neg hone, hquotient,
      word?_eq (Int64.toInt_mod a b)]
    dsimp only [Option.bind_eq_bind, Option.bind_some]
    split
    · next hsign => exact word?_eq (toInt_correction hb hsign)
    · rfl

end Division

section Instructions

variable {read : AttributeReader} {c : Code} {scope : Scope} {pc : Nat} {l r : Value}
  {below : List Value}

/-- The operators that have an exact result in the integers. -/
def BinaryOp.exact? : BinaryOp → Option (Int → Int → Int)
  | .add => some (· + ·)
  | .subtract => some (· - ·)
  | .multiply => some (· * ·)
  | .trueDivide | .modulo => none

theorem Answers.overflow_iff {n : Int} {answer : Except EvalError Value} (h : Answers n answer) :
    answer = .error .overflow ↔ ¬ FitsWord n := by
  cases answer with
  | ok v =>
      obtain ⟨r, -, rfl⟩ := h
      simp [fitsWord_toInt r]
  | error e =>
      obtain ⟨rfl, hfits⟩ := h
      simp [hfits]

theorem answers_binary {op : BinaryOp} {f : Int → Int → Int} (hf : op.exact? = some f)
    (a b : Int64) : Answers (f a.toInt b.toInt) (Value.binary op (.int a) (.int b)) := by
  cases op with
  | trueDivide | modulo => cases hf
  | _ =>
      obtain rfl := Option.some.inj hf
      exact answers_exactInt _

theorem Frame.step_binary {op : BinaryOp} (hop : c.instructions[pc]? = some (.binary op)) :
    (Frame.mk (r :: l :: below) pc).step read c scope
      = Frame.push (pc + 1) below (Value.binary op l r) := by
  have henough : ¬ (r :: l :: below).length < ((Instruction.binary op).effect false).pops := by
    simp [Instruction.effect]
  simp only [step, hop, if_neg henough, execute?]

theorem Frame.step_unaryNegative (hop : c.instructions[pc]? = some .unaryNegative) :
    (Frame.mk (l :: below) pc).step read c scope = Frame.push (pc + 1) below l.negate := by
  have henough : ¬ (l :: below).length < (Instruction.unaryNegative.effect false).pops := by
    simp [Instruction.effect]
  simp only [step, hop, if_neg henough, execute?]

/-- **Integer arithmetic is exact or reported.**  Sums, differences and products of integers, and
negations and absolute values, are the exact ones or are reported not to fit; for the last two
that is the least integer.  A remainder by zero is reported; any other is the floored one, which is
zero or has the sign of the divisor and is less than it in magnitude, and no step on the way to it
overflows. -/
theorem integer_arithmetic_exact (read : AttributeReader) (c : Code) (scope : Scope) (pc : Nat)
    (below : List Value) (a b : Int64) :
    (∀ op f, BinaryOp.exact? op = some f → c.instructions[pc]? = some (.binary op) →
      ∃ answer, (Frame.mk (.int b :: .int a :: below) pc).step read c scope
          = Frame.push (pc + 1) below answer ∧
        Answers (f a.toInt b.toInt) answer) ∧
    (c.instructions[pc]? = some (.binary .modulo) →
      ∃ answer, (Frame.mk (.int b :: .int a :: below) pc).step read c scope
          = Frame.push (pc + 1) below answer ∧
        (answer = .error .zeroDivision ↔ b = 0) ∧
        (b ≠ 0 → ∃ r, answer = .ok (.int r) ∧ flooredMod? a b = some r ∧
          r.toInt = a.toInt - b.toInt * ⌊(a.toInt : ℚ) / b.toInt⌋ ∧
          (r.toInt = 0 ∨ (r.toInt < 0 ↔ b.toInt < 0)) ∧ |r.toInt| < |b.toInt|)) ∧
    (c.instructions[pc]? = some .unaryNegative →
      ∃ answer, (Frame.mk (.int a :: below) pc).step read c scope
          = Frame.push (pc + 1) below answer ∧
        Answers (-a.toInt) answer ∧ (answer = .error .overflow ↔ a = Int64.minValue)) ∧
    Answers |a.toInt| (Builtin.abs.call read [.int a] []) ∧
    (Builtin.abs.call read [.int a] [] = .error .overflow ↔ a = Int64.minValue) := by
  refine ⟨fun op f hf hop => ?_, fun hop => ?_, fun hop => ?_, answers_absolute a, ?_⟩
  · exact ⟨_, Frame.step_binary hop, answers_binary hf a b⟩
  · refine ⟨_, Frame.step_binary hop, ?_⟩
    change (intBinary .modulo a b = _ ↔ _) ∧ (_ → ∃ r, intBinary .modulo a b = _ ∧ _)
    by_cases hb : b = 0
    · simp [intBinary, hb]
    · have hremainder := isRemainder_corrected (toInt_ne_zero hb) a.toInt
      obtain ⟨q, hq⟩ := exists_quotient a.toInt b.toInt
      have hfloor := hremainder.floor_div hq
      rw [← toInt_flooredMod hb] at hremainder hq
      refine ⟨by simp [intBinary, hb], fun _ => ⟨flooredMod a b, by simp [intBinary, hb],
        flooredMod?_eq hb, ?_, hremainder.sign, hremainder.abs_lt⟩⟩
      rw [hfloor]
      linarith
  · refine ⟨_, Frame.step_unaryNegative hop, answers_negate a, ?_⟩
    rw [(answers_negate a).overflow_iff, fitsWord_neg_iff, not_not]
  · have habs := (answers_absolute a).overflow_iff
    rwa [fitsWord_abs_iff, not_not] at habs

/-- The least integer has no product by minus one and no negation, but a remainder by minus one.
A remainder by a negative divisor is negative. -/
theorem integer_arithmetic_exact_least :
    (Frame.mk [.int (-1), .int Int64.minValue] 0).step (fun _ _ => none)
        (Code.ofInstructions [.binary .multiply]) [] = .failed .overflow ∧
    (Frame.mk [.int (-1), .int Int64.minValue] 0).step (fun _ _ => none)
        (Code.ofInstructions [.binary .modulo]) [] = .running ⟨[.int 0], 1⟩ ∧
    (Frame.mk [.int Int64.minValue] 0).step (fun _ _ => none)
        (Code.ofInstructions [.unaryNegative]) [] = .failed .overflow ∧
    (Frame.mk [.int (-3), .int 7] 0).step (fun _ _ => none)
        (Code.ofInstructions [.binary .modulo]) [] = .running ⟨[.int (-2)], 1⟩ := by
  have hmodulo := integer_arithmetic_exact (fun _ _ => none) (Code.ofInstructions [.binary .modulo])
    [] 0 []
  refine ⟨?_, ?_, ?_, ?_⟩
  · obtain ⟨hexact, -⟩ := integer_arithmetic_exact (fun _ _ => none)
      (Code.ofInstructions [.binary .multiply]) [] 0 [] Int64.minValue (-1)
    obtain ⟨answer, hstep, hanswer⟩ := hexact .multiply _ rfl rfl
    rw [hstep, hanswer.overflow_iff.mpr (by decide)]
    rfl
  · obtain ⟨-, hremainder, -⟩ := hmodulo Int64.minValue (-1)
    obtain ⟨_, hstep, -, hvalue⟩ := hremainder rfl
    obtain ⟨r, rfl, hchecked, -⟩ := hvalue (by decide)
    have hchecked : some 0 = some r := hchecked
    obtain rfl := Option.some.inj hchecked
    exact hstep
  · obtain ⟨-, -, hnegative, -⟩ := integer_arithmetic_exact (fun _ _ => none)
      (Code.ofInstructions [.unaryNegative]) [] 0 [] Int64.minValue 0
    obtain ⟨_, hstep, -, hleast⟩ := hnegative rfl
    rw [hstep, hleast.mpr rfl]
    rfl
  · obtain ⟨-, hremainder, -⟩ := hmodulo 7 (-3)
    obtain ⟨_, hstep, -, hvalue⟩ := hremainder rfl
    obtain ⟨r, rfl, -, hfloor, -⟩ := hvalue (by decide)
    have hdivision : ⌊((7 : Int) : ℚ) / (-3 : Int)⌋ = -3 := by
      rw [Int.floor_eq_iff]
      norm_num
    have hseven : (7 : Int64).toInt = 7 := by decide
    have hthree : (-3 : Int64).toInt = -3 := by decide
    rw [hseven, hthree, hdivision] at hfloor
    obtain rfl : r = -2 := Int64.toInt_inj.mp hfloor
    exact hstep

end Instructions

end TrackedExpr
