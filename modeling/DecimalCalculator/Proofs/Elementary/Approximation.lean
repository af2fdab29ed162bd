/-
Results that approximate a real number to so many digits.

The error of a result is measured against the exact number: it is a part of this number that the
digits of the precision decide.  A total with guard digits behind these digits keeps to that
when it is rounded, and so does a quotient of two such results.
-/

import Mathlib
import DecimalCalculator.Proofs.Decimal.Quotient

namespace DecimalCalculator

/-! ### Rounding to digits -/

namespace Decimal

variable {number : Decimal} {precision : UInt32} {value : ℚ} {integer place : Int}

theorem roundedAt_of_near (behind : place ≤ 0) (near : |value - integer| < 10 ^ place / 2) :
    roundedAt place value = integer := by
  have ten : (10 : ℚ) ≠ 0 := by norm_num
  have unit : (0 : ℚ) < 10 ^ place := zpow_pos (by norm_num) _
  obtain ⟨zeros, known⟩ := Int.eq_ofNat_of_zero_le (show 0 ≤ -place by omega)
  have inverse : (10 : ℚ) ^ place * 10 ^ zeros = 1 := by
    rw [← zpow_natCast, ← zpow_add₀ ten, ← known, add_neg_cancel, zpow_zero]
  have close : |value / 10 ^ place - (integer * 10 ^ zeros : Int)| < 1 / 2 := by
    have scaled : value / 10 ^ place - (integer * 10 ^ zeros : Int) =
        (value - integer) / 10 ^ place := by
      push_cast
      field_simp
      linear_combination (-integer : ℚ) * inverse
    rw [scaled, abs_div, abs_of_pos unit, div_lt_iff₀ unit]
    linarith
  have rounded : RoundingMode.halfEven.round (value / 10 ^ place) = integer * 10 ^ zeros :=
    RoundingMode.halfEven_round_eq_iff.mpr ⟨close.le, fun tie => absurd tie close.ne⟩
  rw [roundedAt, rounded]
  push_cast
  rw [mul_assoc, mul_comm (10 ^ zeros : ℚ), inverse, mul_one]

theorem firstPlace_lt_of_abs_lt (nonzero : value ≠ 0) (below : |value| < 10 ^ place) :
    firstPlace value < place :=
  (zpow_lt_zpow_iff_right₀ (by norm_num)).mp ((zpow_firstPlace_le nonzero).trans_lt below)

theorem zpow_lastPlace_eq (digits : Nat) (value : ℚ) :
    (10 : ℚ) ^ lastPlace digits value = 10 ^ (1 - digits : Int) * 10 ^ firstPlace value := by
  rw [lastPlace, ← zpow_add₀ (by norm_num)]
  congr 1
  ring

theorem abs_sub_roundedToDigits_le (digits : Nat) (value : ℚ) :
    |value - roundedToDigits digits value| ≤ 1 / 2 * 10 ^ (1 - digits : Int) * |value| := by
  by_cases zero : value = 0
  · rw [zero, roundedToDigits_zero, sub_zero, abs_zero, mul_zero]
  · have near := abs_sub_roundedAt_le (lastPlace digits value) value
    have first := zpow_firstPlace_le zero
    have unit : (0 : ℚ) < 10 ^ (1 - digits : Int) := zpow_pos (by norm_num) _
    rw [zpow_lastPlace_eq] at near
    rw [roundedToDigits]
    nlinarith

theorem toInt_scale_roundToPrecision (positive : 1 ≤ precision.toNat)
    (few : number.digitCount < 2 ^ 62) (lower : 0 ≤ number.scale.toInt) :
    (number.roundToPrecision precision).scale.toInt =
      number.scale.toInt - (number.digitCount - precision.toNat : Nat) := by
  have upper := number.scale.toInt_lt
  rw [roundToPrecision, max_eq_left positive]
  by_cases short : number.digitCount - precision.toNat = 0
  · simp only [short, ↓reduceIte]
    exact (sub_zero _).symm
  · simp only [short, ↓reduceIte]
    rw [scale_setScale, Int64.toInt_sub, Int64.toInt_ofNat_of_lt (by omega)]
    exact Int.bmod_eq_of_le (by omega) (by omega)

end Decimal

namespace Elementary

open Decimal

/-! ### Results close to a real number -/

variable {exact error : ℝ} {result : ℚ} {total : Decimal} {precision : Precision} {place : Int}

theorem ne_zero_of_near (nonzero : exact ≠ 0) (near : |exact - result| ≤ error * |exact|)
    (small : error < 1) : result ≠ 0 := by
  rintro rfl
  have size := abs_pos.mpr nonzero
  rw [Rat.cast_zero, sub_zero] at near
  nlinarith

theorem sign_eq_of_near (near : |exact - result| ≤ error * |exact|) (small : error < 1) :
    SignType.sign (result : ℝ) = SignType.sign exact := by
  obtain ⟨lower, upper⟩ := abs_le.mp near
  rcases lt_trichotomy exact 0 with negative | rfl | positive
  · rw [abs_of_neg negative] at lower
    have below : (result : ℝ) < 0 := by nlinarith
    rw [sign_neg below, sign_neg negative]
  · rw [abs_zero, mul_zero] at lower upper
    rw [show (result : ℝ) = 0 by linarith]
  · rw [abs_of_pos positive] at upper
    have above : 0 < (result : ℝ) := by nlinarith
    rw [sign_pos above, sign_pos positive]

theorem abs_le_zpow_of_near (near : |exact - result| ≤ error * |exact|) (small : error ≤ 1)
    (most : |exact| ≤ 10 ^ place / 2) : |result| ≤ 10 ^ place := by
  have size : |(result : ℝ)| ≤ 10 ^ place := by
    have triangle := abs_sub_abs_le_abs_sub (result : ℝ) exact
    rw [abs_sub_comm] at triangle
    nlinarith [abs_nonneg exact]
  rw [← Rat.cast_le (K := ℝ)]
  push_cast
  exact size

/-- A result with digits and a scale that leave room for a quotient. -/
structure IsWide (result : Decimal) : Prop where
  digits : result.digitCount ≤ 2 * 10 ^ 7
  lower : -10 ^ 7 ≤ result.scale.toInt
  upper : result.scale.toInt ≤ 10 ^ 7

theorem isWide_one : IsWide 1 :=
  ⟨by decide, by decide, by decide⟩

theorem IsWide.abs_firstPlace_le {result : Decimal} (wide : IsWide result)
    (nonzero : result.value ≠ 0) : |firstPlace result.value| ≤ 2 ^ 61 := by
  obtain ⟨digits, lower, upper⟩ := wide
  rw [firstPlace_value nonzero, abs_le]
  omega

structure IsTotal (digits : Nat) (exact : ℝ) (total : Decimal) : Prop where
  nonneg : 0 ≤ total.scale.toInt
  upper : total.scale.toInt ≤ 10 ^ 7
  near : |exact - total.value| ≤ 1 / 20 * 10 ^ (1 - digits : Int) * |exact|

theorem zpow_one_sub_le_one {digits : Nat} (least : 1 ≤ digits) :
    (10 : ℝ) ^ (1 - digits : Int) ≤ 1 :=
  zpow_le_one_of_nonpos₀ (by norm_num) (by omega)

theorem IsTotal.rounded (least : 1 ≤ precision.toNat) (few : precision.toNat ≤ 10 ^ 7)
    (nonzero : exact ≠ 0) (most : |exact| ≤ 10 ^ place / 2) (bounded : place ≤ 10 ^ 6)
    (summed : IsTotal precision.toNat exact total) :
    |exact - (total.roundToPrecision precision).value| ≤
        3 / 5 * 10 ^ (1 - precision.toNat : Int) * |exact| ∧
      IsWide (total.roundToPrecision precision) := by
  obtain ⟨nonneg, upper, near⟩ := summed
  have unit := zpow_one_sub_le_one least
  have front : (0 : ℝ) < 10 ^ (1 - precision.toNat : Int) := zpow_pos (by norm_num) _
  have some := ne_zero_of_near nonzero near (by linarith)
  have first := firstPlace_le_of_abs_le some (abs_le_zpow_of_near near (by linarith) most)
  have digits := firstPlace_value some
  have room : 2 * 10 ^ 7 ≤ largestExponent := by decide
  have value := value_roundToPrecision least some (by omega) (by omega)
  have scale := toInt_scale_roundToPrecision least
    (show total.digitCount < 2 ^ 62 by omega) nonneg
  have rounded := (Rat.cast_le (K := ℝ)).mpr (abs_sub_roundedToDigits_le precision.toNat total.value)
  rw [← value] at rounded
  push_cast at rounded
  have close : |exact - (total.roundToPrecision precision).value| ≤
      3 / 5 * 10 ^ (1 - precision.toNat : Int) * |exact| := by
    have triangle := abs_sub_le exact total.value (total.roundToPrecision precision).value
    have size := abs_sub_abs_le_abs_sub (total.value : ℝ) exact
    rw [abs_sub_comm] at size
    have scaled : 1 / 2 * 10 ^ (1 - precision.toNat : Int) * |(total.value : ℝ)| ≤
        1 / 2 * 10 ^ (1 - precision.toNat : Int) * (21 / 20 * |exact|) := by
      gcongr
      nlinarith [abs_nonneg exact]
    nlinarith [abs_nonneg exact]
  have some' := ne_zero_of_near nonzero close (by linarith)
  have first' := firstPlace_le_of_abs_le some' (abs_le_zpow_of_near close (by linarith) most)
  have digits' := firstPlace_value some'
  exact ⟨close, by omega, by omega, by omega⟩

/-- A result that is right to so many digits: its error is smaller than one unit of the last of
them, and it is zero, positive or negative with the exact number. -/
structure ApproximatesTo (digits : Nat) (exact : ℝ) (result : Decimal) : Prop where
  near : |(result.value : ℝ) - exact| ≤ 10 ^ (1 - digits : Int) * |exact|
  sign : SignType.sign (result.value : ℝ) = SignType.sign exact

theorem ApproximatesTo.of_zero {digits : Nat} {result : Decimal} (nothing : result.value = 0)
    (zero : exact = 0) : ApproximatesTo digits exact result := by
  rw [zero]
  constructor
  · rw [nothing, Rat.cast_zero, sub_zero, abs_zero, mul_zero]
  · rw [nothing, Rat.cast_zero]

theorem ApproximatesTo.of_near {digits : Nat} {result : Decimal} (least : 1 ≤ digits)
    (near : |exact - result.value| ≤ 3 / 5 * 10 ^ (1 - digits : Int) * |exact|) :
    ApproximatesTo digits exact result := by
  have unit := zpow_one_sub_le_one least
  have front : (0 : ℝ) < 10 ^ (1 - digits : Int) := zpow_pos (by norm_num) _
  refine ⟨?_, sign_eq_of_near near (by linarith)⟩
  rw [abs_sub_comm]
  refine near.trans (mul_le_mul_of_nonneg_right ?_ (abs_nonneg exact))
  linarith

/-! ### Numbers between minus one and one -/

theorem exists_side_near {value : ℚ} (bounded : |exact| ≤ 1) (beyond : 1 ≤ |value|) :
    ∃ side : Int, |(value : ℝ) - side| ≤ |exact - value| ∧ |exact - side| ≤ |exact - value| := by
  obtain ⟨lower, upper⟩ := abs_le.mp bounded
  rcases le_abs.mp beyond with above | below
  · have real : (1 : ℝ) ≤ value := by exact_mod_cast above
    refine ⟨1, ?_, ?_⟩
    · rw [abs_sub_comm exact, Int.cast_one, abs_of_nonneg (by linarith), abs_of_nonneg (by linarith)]
      linarith
    · rw [abs_sub_comm exact, abs_sub_comm exact, Int.cast_one, abs_of_nonneg (by linarith),
        abs_of_nonneg (by linarith)]
      linarith
  · have real : (value : ℝ) ≤ -1 := by
      have opposite : value ≤ -1 := by linarith
      exact_mod_cast opposite
    refine ⟨-1, ?_, ?_⟩
    · rw [abs_sub_comm (value : ℝ), Int.cast_neg, Int.cast_one, abs_of_nonneg (by linarith),
        abs_of_nonneg (by linarith)]
      linarith
    · rw [Int.cast_neg, Int.cast_one, abs_of_nonneg (by linarith), abs_of_nonneg (by linarith)]
      linarith

theorem abs_sub_roundedToDigits_le_of_lt_one {value : ℚ} (digits : Nat) (nonzero : value ≠ 0)
    (inside : |value| < 1) :
    |value - roundedToDigits digits value| ≤ 10 ^ (-digits : Int) / 2 := by
  have behind := firstPlace_lt_of_abs_lt nonzero (inside.trans_eq (zpow_zero 10).symm)
  have rounded := abs_sub_roundedAt_le (lastPlace digits value) value
  have finer : (10 : ℚ) ^ lastPlace digits value ≤ 10 ^ (-digits : Int) := by
    refine zpow_le_zpow_right₀ (by norm_num) ?_
    rw [lastPlace]
    omega
  rw [roundedToDigits]
  linarith

theorem abs_sub_roundedToDigits_le_of_one_le {value : ℚ} {digits : Nat} (least : 1 ≤ digits)
    (bounded : |exact| ≤ 1) (beyond : 1 ≤ |value|)
    (near : |exact - value| ≤ 1 / 4 * 10 ^ (-digits : Int)) :
    |exact - roundedToDigits digits value| ≤ |exact - value| := by
  have small : (10 : ℝ) ^ (-digits : Int) ≤ 1 := zpow_le_one_of_nonpos₀ (by norm_num) (by omega)
  have unit : (0 : ℝ) < 10 ^ (-digits : Int) := zpow_pos (by norm_num) _
  have place : firstPlace value = 0 := by
    refine firstPlace_eq (by rwa [zpow_zero]) ?_
    have triangle := abs_sub_abs_le_abs_sub (value : ℝ) exact
    rw [abs_sub_comm] at triangle
    have real : |(value : ℝ)| < 10 := by linarith
    rw [zero_add, zpow_one]
    exact_mod_cast real
  obtain ⟨side, close, within⟩ := exists_side_near bounded beyond
  have ten : (10 : ℝ) ^ (1 - digits : Int) = 10 * 10 ^ (-digits : Int) := by
    rw [sub_eq_add_neg, zpow_one_add₀ (by norm_num)]
  have half : |value - side| < 10 ^ (1 - digits : Int) / 2 := by
    rw [← Rat.cast_lt (K := ℝ)]
    push_cast
    rw [ten]
    linarith
  have rounded : roundedToDigits digits value = side := by
    rw [roundedToDigits, lastPlace, place, zero_add]
    exact roundedAt_of_near (by omega) half
  rwa [rounded, Rat.cast_intCast]

/-- Rounding a total to digits leaves an error of one unit of the last place behind the point. -/
theorem abs_sub_roundToPrecision_le (least : 1 ≤ precision.toNat) (few : precision.toNat ≤ 10 ^ 7)
    (nonneg : 0 ≤ total.scale.toInt) (upper : total.scale.toInt ≤ 10 ^ 7) (bounded : |exact| ≤ 1)
    (near : |exact - total.value| ≤ 1 / 4 * 10 ^ (-precision.toNat : Int)) :
    |exact - (total.roundToPrecision precision).value| ≤ 10 ^ (-precision.toNat : Int) := by
  have unit : (0 : ℝ) < 10 ^ (-precision.toNat : Int) := zpow_pos (by norm_num) _
  by_cases zero : total.value = 0
  · rw [roundToPrecision_of_zero zero]
    linarith
  have small : (10 : ℝ) ^ (-precision.toNat : Int) ≤ 1 :=
    zpow_le_one_of_nonpos₀ (by norm_num) (by omega)
  have size : |total.value| < 10 ^ (1 : Int) := by
    have triangle := abs_sub_abs_le_abs_sub (total.value : ℝ) exact
    rw [abs_sub_comm] at triangle
    have real : |(total.value : ℝ)| < 10 := by linarith
    rw [zpow_one]
    exact_mod_cast real
  have first := firstPlace_lt_of_abs_lt zero size
  have digits := firstPlace_value zero
  have room : 2 * 10 ^ 7 ≤ largestExponent := by decide
  rw [value_roundToPrecision least zero (by omega) (by omega)]
  rcases lt_or_ge |total.value| 1 with inside | beyond
  · have rounded := (Rat.cast_le (K := ℝ)).mpr
      (abs_sub_roundedToDigits_le_of_lt_one precision.toNat zero inside)
    push_cast at rounded
    have triangle := abs_sub_le exact total.value
      (roundedToDigits precision.toNat total.value : ℚ)
    linarith
  · have rounded := abs_sub_roundedToDigits_le_of_one_le least bounded beyond near
    linarith

/-! ### Quotients -/

section Quotients

variable {dividend divisor : Decimal} (first : IsWide dividend) (second : IsWide divisor)
  (nonzero : dividend.value ≠ 0) (nonzero' : divisor.value ≠ 0)

include first second nonzero nonzero'

theorem IsWide.exists_divideToPrecision (least : 1 ≤ precision.toNat)
    (few : precision.toNat ≤ 10 ^ 7) :
    ∃ quotient, dividend.divideToPrecision divisor precision = .ok quotient ∧
      |dividend.value / divisor.value - quotient.value| ≤
        101 / 200 * 10 ^ (1 - precision.toNat : Int) * |dividend.value / divisor.value| := by
  have room : 10 ^ 8 ≤ largestExponent := by decide
  have digits := first.digits
  have digits' := second.digits
  obtain ⟨quotient, divided⟩ := Decimal.exists_divideToPrecision nonzero nonzero'
    (first.abs_firstPlace_le nonzero) (second.abs_firstPlace_le nonzero')
    (show precision.toNat + 2 + dividend.digitCount + divisor.digitCount ≤ _ by omega)
  refine ⟨quotient, divided, ?_⟩
  have some := div_ne_zero nonzero nonzero'
  have places := firstPlace_div nonzero nonzero'
  have behind := firstRoundingPlace_eq dividend.value divisor.value precision
  have finer : firstRoundingPlace dividend.value divisor.value precision ≤
      lastPlace precision.toNat (dividend.value / divisor.value) - 2 := by
    rw [lastPlace]
    omega
  have near := abs_sub_roundedToDigits_roundedAt_le least some
    (show firstRoundingPlace dividend.value divisor.value precision ≤ _ by omega)
  rw [← value_of_divideToPrecision least nonzero nonzero' divided] at near
  have hundredth := zpow_le_zpow_right₀ (show (1 : ℚ) ≤ 10 by norm_num) finer
  rw [zpow_sub₀ (by norm_num)] at hundredth
  have unit : (0 : ℚ) < 10 ^ (1 - precision.toNat : Int) := zpow_pos (by norm_num) _
  have size := mul_le_mul_of_nonneg_left (zpow_firstPlace_le some) unit.le
  rw [zpow_lastPlace_eq] at near hundredth
  norm_num at hundredth
  linarith

end Quotients

end Elementary
end DecimalCalculator
