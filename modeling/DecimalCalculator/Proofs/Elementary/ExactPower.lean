/-
Where powers with natural exponents are exact.

The integer of a power is exact for every exponent.  Its scale is the scale of the base
times the exponent, which is no word for some exponents that are, even if the integer
stays as short as that of a hundredth.  Exactly then there is no power.
-/

import Mathlib
import DecimalCalculator.Calculator
import DecimalCalculator.Proofs.Elementary.Power

namespace DecimalCalculator

namespace Decimal

variable {base number : Decimal} {exponent : Nat}

theorem comparable_one (above : -2 ^ 63 < number.scale.toInt) : Comparable number 1 := by
  have upper := number.scale.toInt_lt
  intro _
  constructor
  · right
    rw [toInt_commonScale]
    change max number.scale.toInt 0 - _ < _
    omega
  · right
    rw [toInt_commonScale]
    change max number.scale.toInt 0 - 0 < _
    omega

theorem sameValue_abs_one_iff (above : -2 ^ 63 < number.scale.toInt) :
    number.abs.sameValue 1 = true ↔ |number.value| = 1 := by
  have comparable : Comparable number.abs 1 := comparable_one above
  rw [sameValue_iff comparable, value_abs, value_one]

end Decimal

namespace Elementary

open Decimal

variable {base exponent : Decimal} {precision : Precision} {whole : Nat}

/-! ### Natural exponents -/

/-- What a power with a natural exponent should be: exact, or refused because of an
exponent that is no unsigned 64-bit word, which it never is for the bases 1 and -1. -/
def IsExactPower (base : Decimal) (exponent : Nat) (outcome : Outcome Decimal) : Prop :=
  (∃ result, outcome = .ok result ∧ result.value = base.value ^ exponent) ∨
    (∃ size, outcome = .error (.exponentTooLarge size)) ∧ 2 ^ 64 ≤ exponent ∧ |base.value| ≠ 1

theorem isExactPower_ok_iff {result : Decimal} :
    IsExactPower base whole (.ok result) ↔ result.value = base.value ^ whole := by
  simp [IsExactPower]

theorem isExactPower_error_iff {size : Int} :
    IsExactPower base whole (.error (.exponentTooLarge size)) ↔
      2 ^ 64 ≤ whole ∧ |base.value| ≠ 1 := by
  simp [IsExactPower]

theorem not_isExactPower_overflow : ¬IsExactPower base whole (.error .overflow) := by
  simp [IsExactPower]

theorem pow_of_abs_eq_one (unit : |base.value| = 1) :
    base.value ^ whole =
      if base.isNegative = true ∧ whole % 2 = 1 then -1 else 1 := by
  rcases eq_or_eq_neg_of_abs_eq unit with one | opposite
  · have positive : ¬base.isNegative = true := by
      rw [isNegative_iff, one]
      norm_num
    rw [one, one_pow, if_neg fun both => positive both.1]
  · have negative : base.isNegative = true := by
      rw [isNegative_iff, opposite]
      norm_num
    rw [opposite]
    rcases Nat.even_or_odd whole with even | odd
    · rw [even.neg_one_pow, if_neg]
      intro both
      rw [Nat.even_iff] at even
      omega
    · rw [odd.neg_one_pow, if_pos ⟨negative, Nat.odd_iff.mp odd⟩]

theorem powerOfNatural_eq (above : -2 ^ 63 < base.scale.toInt) (some : whole ≠ 0) :
    powerOfNatural base whole =
      if |base.value| = 1 then .ok (if base.isNegative = true ∧ whole % 2 = 1 then -1 else 1)
      else if whole < 2 ^ 64 then
        unlessOverflow (IsWord (base.scale.toInt * whole)) (base.power whole)
      else .error (.exponentTooLarge whole) := by
  have compared : Checked.sameValue base.abs 1 = .ok (base.abs.sameValue 1) := by
    have comparable : Comparable base.abs 1 := comparable_one above
    rw [Checked.sameValue, Checked.compare, unlessOverflow_of comparable]
    rfl
  rw [powerOfNatural, if_neg some, compared]
  change (if base.abs.sameValue 1 = true then Except.ok _
    else if whole < 2 ^ 64 then Checked.power base whole else _) = _
  simp only [sameValue_abs_one_iff above, Checked.power_eq]
  rfl

theorem powerOfNatural_cases (above : -2 ^ 63 < base.scale.toInt) :
    IsExactPower base whole (powerOfNatural base whole) ∧
        (|base.value| ≠ 1 → whole < 2 ^ 64 → IsWord (base.scale.toInt * whole)) ∨
      powerOfNatural base whole = .error .overflow ∧ |base.value| ≠ 1 ∧ whole < 2 ^ 64 ∧
        ¬IsWord (base.scale.toInt * whole) := by
  by_cases none : whole = 0
  · rw [powerOfNatural, if_pos none]
    change IsExactPower base whole (.ok 1) ∧ _ ∨ _
    rw [isExactPower_ok_iff, none, pow_zero, value_one]
    refine Or.inl ⟨rfl, fun _ _ => ?_⟩
    rw [Nat.cast_zero, mul_zero]
    decide
  · rw [powerOfNatural_eq above none]
    by_cases unit : |base.value| = 1
    · rw [if_pos unit, isExactPower_ok_iff, pow_of_abs_eq_one unit]
      refine Or.inl ⟨?_, fun other => absurd unit other⟩
      split
      · rw [value_neg, value_one]
      · exact value_one
    · rw [if_neg unit]
      by_cases fits : whole < 2 ^ 64
      · rw [if_pos fits]
        by_cases word : IsWord (base.scale.toInt * whole)
        · rw [unlessOverflow_of word, isExactPower_ok_iff]
          exact Or.inl ⟨value_power word, fun _ _ => word⟩
        · rw [unlessOverflow_of_not word]
          exact Or.inr ⟨rfl, unit, fits, word⟩
      · rw [if_neg fits, isExactPower_error_iff]
        exact Or.inl ⟨⟨Nat.le_of_not_lt fits, unit⟩, fun _ word => absurd word fits⟩

/-! ### Exponents that are natural numbers -/

theorem roundedExponent_of_isInteger (integer : exponent.isInteger = true) :
    roundedExponent exponent = exponent := by
  rw [roundedExponent, if_pos integer]

theorem pow_eq_powerOfNatural (nonzero : base.value ≠ 0) (natural : exponent.value = whole)
    (rounds : exponent.Rounds 0) :
    pow base exponent precision = powerOfNatural base whole := by
  have integer : exponent.isInteger = true :=
    (isInteger_iff rounds.short).mpr ⟨whole, by rw [natural, Int.cast_natCast]⟩
  have size : exponent.toInt = whole := by
    rw [toInt_eq rounds, natural]
    exact RoundingMode.round_intCast .down whole
  have positive : exponent.isNegative = false := by
    rw [isNegative_eq_false_iff, natural]
    exact Nat.cast_nonneg whole
  have counted : Checked.toInt exponent = .ok (whole : Int) := by
    rw [Checked.toInt, Checked.setScale, unlessOverflow_of rounds.meets, ← size]
    rfl
  rw [pow, isZero_eq_false_iff.mpr nonzero, positive]
  change powerOfNonnegative base exponent precision = _
  rw [powerOfNonnegative, roundedExponent_of_isInteger integer]
  simp only [integer, ↓reduceIte, counted]
  rfl

/-- A power with a natural exponent is what it should be exactly if its scale is a word, and
is broken off otherwise; no scale is formed for the bases 1 and -1 and for an exponent that is
refused.  Repeated squaring ends under the same condition, wherever it is used. -/
theorem pow_exact_iff (precision : Precision) (nonzero : base.value ≠ 0)
    (above : -2 ^ 63 < base.scale.toInt) (natural : exponent.value = whole)
    (rounds : exponent.Rounds 0) :
    (IsExactPower base whole (pow base exponent precision) ↔
        (|base.value| ≠ 1 → whole < 2 ^ 64 → IsWord (base.scale.toInt * whole))) ∧
      (pow base exponent precision = .error .overflow ↔
        |base.value| ≠ 1 ∧ whole < 2 ^ 64 ∧ ¬IsWord (base.scale.toInt * whole)) ∧
      ∀ count : Nat,
        (Checked.power base count = .error .overflow ↔ ¬IsWord (base.scale.toInt * count)) ∧
        (IsWord (base.scale.toInt * count) → ∃ result,
          Checked.power base count = .ok result ∧ result.value = base.value ^ count) := by
  refine ⟨?_, ?_, fun count => ⟨?_, fun word => ?_⟩⟩
  · rw [pow_eq_powerOfNatural nonzero natural rounds]
    rcases powerOfNatural_cases above with ⟨exact, word⟩ | ⟨broken, other, fits, breaks⟩
    · exact iff_of_true exact word
    · rw [broken]
      exact iff_of_false not_isExactPower_overflow fun word => breaks (word other fits)
  · rw [pow_eq_powerOfNatural nonzero natural rounds]
    rcases powerOfNatural_cases above with ⟨exact, word⟩ | ⟨broken, reason⟩
    · refine iff_of_false (fun broken => ?_) fun both => both.2.2 (word both.1 both.2.1)
      rw [broken] at exact
      exact not_isExactPower_overflow exact
    · exact iff_of_true broken reason
  · rw [Checked.power_eq, unlessOverflow_eq_error_iff]
    exact and_iff_left rfl
  · rw [Checked.power_eq, unlessOverflow_of word]
    exact ⟨_, rfl, value_power word⟩

theorem pow_exact_iff_negative_cube :
    (⟨300, 2⟩ : Decimal).value = (3 : Nat) ∧
      IsExactPower ⟨-12, 1⟩ 3 (pow ⟨-12, 1⟩ ⟨300, 2⟩ 20) := by
  have natural : (⟨300, 2⟩ : Decimal).value = (3 : Nat) := by
    change ((300 : Int) : ℚ) / 10 ^ (2 : Int) = _
    norm_num
  have nonzero : (⟨-12, 1⟩ : Decimal).value ≠ 0 := mt value_eq_zero_iff.mp (by decide)
  have rounds : (⟨300, 2⟩ : Decimal).Rounds 0 := .zero (by decide) (by decide)
  refine ⟨natural, (pow_exact_iff 20 nonzero (by decide) natural rounds).1.mpr ?_⟩
  exact fun _ _ => by decide

set_option maxRecDepth 4000 in
/-- No word is the scale of a hundredth to the power `2 ^ 63`, so that there is no power, and
no value of 1 with as many percent signs. -/
theorem pow_hundredth_overflows :
    (⟨2 ^ 63, 0⟩ : Decimal).value = (2 ^ 63 : Nat) ∧
      pow ⟨1, 2⟩ ⟨2 ^ 63, 0⟩ 20 = .error .overflow ∧
      ¬IsExactPower ⟨1, 2⟩ (2 ^ 63) (pow ⟨1, 2⟩ ⟨2 ^ 63, 0⟩ 20) ∧
      Standard.suffixes percentSign (2 ^ 63) 1 {} = .error .overflow ∧
      ({} : Calculator).calculate "0.01^9223372036854775808" =
        .error (.evaluation .overflow) := by
  have natural : (⟨2 ^ 63, 0⟩ : Decimal).value = (2 ^ 63 : Nat) := by
    change ((2 ^ 63 : Int) : ℚ) / 10 ^ (0 : Int) = _
    norm_num
  have rounds : (⟨2 ^ 63, 0⟩ : Decimal).Rounds 0 := .zero (by decide) (by decide)
  have nonzero : (⟨1, 2⟩ : Decimal).value ≠ 0 := mt value_eq_zero_iff.mp (by decide)
  have other : |(⟨1, 2⟩ : Decimal).value| ≠ 1 := by
    rw [Ne, ← sameValue_abs_one_iff (by decide)]
    decide
  have power : Checked.power ⟨1, 2⟩ (2 ^ 63) = .error .overflow := by
    rw [Checked.power_eq, unlessOverflow_of_not (by decide)]
  have broken : pow ⟨1, 2⟩ ⟨2 ^ 63, 0⟩ 20 = .error .overflow := by
    rw [pow_eq_powerOfNatural nonzero natural rounds, powerOfNatural_eq (by decide) (by decide),
      if_neg other, if_pos (by decide), unlessOverflow_of_not (by decide)]
  refine ⟨natural, broken, ?_, ?_, by cbv⟩
  · rw [broken]
    exact not_isExactPower_overflow
  · change (Checked.power ⟨1, 2⟩ (2 ^ 63) >>= _) = _
    rw [power]
    rfl

end Elementary
end DecimalCalculator
