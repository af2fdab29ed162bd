/-
The accuracy of tangent, cotangent, secant and cosecant.

Sine and cosine are known to a fixed number of digits behind the point, whatever their size is.  A
quotient of them is right to so many significant digits unless it is very large or very small:
the error of the denominator is multiplied by the square of the quotient.  The check of the
denominator keeps that square so small that the results at two precisions agree up to this
error.
-/

import Mathlib
import DecimalCalculator.Proofs.Elementary.Poles
import DecimalCalculator.Proofs.Elementary.Reduction

namespace DecimalCalculator
namespace Elementary

open Decimal

/-! ### Quotients of numbers with errors -/

/-- The exact numbers of a quotient: they are at most one, and not small together. -/
structure IsFraction (top bottom : ℝ) : Prop where
  top_le : |top| ≤ 1
  bottom_le : |bottom| ≤ 1
  apart : 1 ≤ top ^ 2 + bottom ^ 2

theorem isFraction_sin_cos (angle : ℝ) : IsFraction (Real.sin angle) (Real.cos angle) :=
  ⟨Real.abs_sin_le_one angle, Real.abs_cos_le_one angle, (Real.sin_sq_add_cos_sq angle).ge⟩

theorem isFraction_cos_sin (angle : ℝ) : IsFraction (Real.cos angle) (Real.sin angle) :=
  ⟨Real.abs_cos_le_one angle, Real.abs_sin_le_one angle, (Real.cos_sq_add_sin_sq angle).ge⟩

section Fractions

variable {top bottom error upper lower : ℝ}

theorem isFraction_one (bounded : |bottom| ≤ 1) : IsFraction 1 bottom :=
  ⟨abs_one.le, bounded, by linarith [sq_nonneg bottom]⟩

theorem IsFraction.inv_sq_le (fraction : IsFraction top bottom) (nonzero : bottom ≠ 0) :
    1 / bottom ^ 2 ≤ 1 + (top / bottom) ^ 2 := by
  have positive : 0 < bottom ^ 2 := by positivity
  have same : 1 + (top / bottom) ^ 2 = (top ^ 2 + bottom ^ 2) / bottom ^ 2 := by
    field_simp
    ring
  rw [same]
  exact div_le_div_of_nonneg_right fraction.apart positive.le

theorem IsFraction.abs_sub_le (fraction : IsFraction top bottom) (nonzero : bottom ≠ 0)
    (small : error ≤ |bottom| / 10 ^ 4) (near : |top - upper| ≤ error)
    (near' : |bottom - lower| ≤ error) :
    |top / bottom - upper / lower| ≤ 21 / 10 * (error * (1 + (top / bottom) ^ 2)) := by
  have positive : 0 < |bottom| := abs_pos.mpr nonzero
  have nonneg : 0 ≤ error := (abs_nonneg _).trans near
  have size : 9999 / 10000 * |bottom| ≤ |lower| := by
    have triangle := abs_sub_abs_le_abs_sub bottom lower
    linarith
  have some : lower ≠ 0 := abs_pos.mp (by linarith)
  have split : top / bottom - upper / lower =
      (top * (lower - bottom) + (top - upper) * bottom) / (bottom * lower) := by
    field_simp
    ring
  have numerator : |top * (lower - bottom) + (top - upper) * bottom| ≤ 2 * error := by
    have first : |top * (lower - bottom)| ≤ 1 * error := by
      rw [abs_mul, abs_sub_comm lower]
      exact mul_le_mul fraction.top_le near' (abs_nonneg _) zero_le_one
    have second : |(top - upper) * bottom| ≤ error * 1 := by
      rw [abs_mul]
      exact mul_le_mul near fraction.bottom_le (abs_nonneg _) nonneg
    have triangle := abs_add_le (top * (lower - bottom)) ((top - upper) * bottom)
    linarith
  have denominator : 9999 / 10000 * bottom ^ 2 ≤ |bottom * lower| := by
    rw [abs_mul, ← sq_abs]
    nlinarith
  have square : 0 < bottom ^ 2 := by positivity
  rw [split, abs_div]
  calc
    |top * (lower - bottom) + (top - upper) * bottom| / |bottom * lower| ≤
        2 * error / (9999 / 10000 * bottom ^ 2) := by
      gcongr
    _ = 20000 / 9999 * (error * (1 / bottom ^ 2)) := by
      field_simp
      ring
    _ ≤ 21 / 10 * (error * (1 + (top / bottom) ^ 2)) := by
      have carried := mul_le_mul_of_nonneg_left (fraction.inv_sq_le nonzero) nonneg
      have least : 0 ≤ error * (1 / bottom ^ 2) := by positivity
      linarith

theorem IsFraction.error_mul_le (fraction : IsFraction top bottom) (nonzero : bottom ≠ 0)
    (small : error ≤ |bottom| / 10 ^ 4) :
    error * (1 + (top / bottom) ^ 2) ≤ 1 / 5000 * (1 + |top / bottom|) := by
  have positive : 0 < |bottom| := abs_pos.mpr nonzero
  obtain ⟨most, most', apart⟩ := fraction
  rw [← sq_abs, ← sq_abs bottom] at apart
  have sum : 1 ≤ |top| + |bottom| := by
    nlinarith [abs_nonneg top]
  have square : |top| ^ 2 + |bottom| ^ 2 ≤ 2 * (|top| + |bottom|) := by
    nlinarith [abs_nonneg top]
  rw [← sq_abs (top / bottom), abs_div]
  generalize |top| = first at *
  generalize |bottom| = second at *
  have same : 1 + (first / second) ^ 2 = (first ^ 2 + second ^ 2) / second ^ 2 := by
    field_simp
    ring
  have sum' : 1 + first / second = (first + second) / second := by
    field_simp
    ring
  rw [same, sum', ← mul_div_assoc, ← mul_div_assoc, div_le_div_iff₀ (by positivity) positive]
  have nonneg : 0 ≤ first ^ 2 + second ^ 2 := by positivity
  nlinarith [mul_le_mul_of_nonneg_right small nonneg, mul_pos positive positive]

end Fractions

/-! ### The error at a precision -/

/-- The error of sine and cosine of an angle, which are summed with ten digits more than the
precision has. -/
def guardedError (digits : Nat) (angle : ℚ) : ℚ :=
  (9 * (digits + 10) + 18 + frontDigits angle / 50000) * 10 ^ (-digits - 10 : Int)

section Errors

variable {angle : ℚ} {coarse fine : Nat}

theorem guardedError_nonneg (digits : Nat) (angle : ℚ) : 0 ≤ guardedError digits angle := by
  rw [guardedError]
  positivity

theorem guardedError_succ_le (digits : Nat) (angle : ℚ) :
    guardedError (digits + 1) angle ≤ guardedError digits angle / 9 := by
  have unit : (10 : ℚ) ^ (-(digits + 1 : Nat) - 10 : Int) = 10 ^ (-digits - 10 : Int) / 10 := by
    rw [show (-(digits + 1 : Nat) - 10 : Int) = (-digits - 10) + -1 by push_cast; ring,
      zpow_add₀ (by norm_num)]
    norm_num
    ring
  have positive : (0 : ℚ) < 10 ^ (-digits - 10 : Int) := zpow_pos (by norm_num) _
  have least : (0 : ℚ) ≤ digits := Nat.cast_nonneg _
  have front : (0 : ℚ) ≤ frontDigits angle / 50000 := by positivity
  rw [guardedError, guardedError, unit]
  push_cast
  nlinarith

theorem guardedError_le_div_nine (finer : coarse < fine) :
    guardedError fine angle ≤ guardedError coarse angle / 9 := by
  induction fine, finer using Nat.le_induction with
  | base => exact guardedError_succ_le coarse angle
  | succ fine _ ih =>
      have step := guardedError_succ_le fine angle
      have nonneg := guardedError_nonneg fine angle
      linarith

theorem guardedError_le {digits : Nat} (few : digits ≤ 10 ^ 6)
    (front : frontDigits angle ≤ largestExponent) :
    guardedError digits angle ≤ 10 ^ (-digits - 3 : Int) := by
  have unit : (10 : ℚ) ^ (-digits - 10 : Int) = 10 ^ (-digits - 3 : Int) / 10 ^ 7 := by
    rw [show (-digits - 10 : Int) = (-digits - 3) + -7 by ring, zpow_add₀ (by norm_num)]
    norm_num
    ring
  have positive : (0 : ℚ) < 10 ^ (-digits - 3 : Int) := zpow_pos (by norm_num) _
  have most : (digits : ℚ) ≤ 10 ^ 6 := by exact_mod_cast few
  have most' : (frontDigits angle : ℚ) ≤ 2 ^ 32 := by
    exact_mod_cast front.trans (show largestExponent ≤ 2 ^ 32 by decide)
  rw [guardedError, unit, mul_div_assoc', div_le_iff₀ (by norm_num), mul_comm]
  exact mul_le_mul_of_nonneg_left (by linarith) positive.le

theorem circularUnits_mul_le {precision : Precision} (few : precision.toNat ≤ 10 ^ 6) (angle : ℚ) :
    circularUnits precision.seriesScale angle * lastUnit precision.seriesScale ≤
      guardedError precision.toNat angle := by
  have places := toInt_seriesScale (show precision.toNat + 10 < 2 ^ 32 by omega)
  have unit : lastUnit precision.seriesScale = 10 ^ (-precision.toNat - 10 : Int) := by
    rw [lastUnit, places, neg_add]
    rfl
  have positive : (0 : ℚ) < 10 ^ (-precision.toNat - 10 : Int) := zpow_pos (by norm_num) _
  have nonneg : (0 : ℚ) ≤ precision.toNat := Nat.cast_nonneg _
  rw [unit, circularUnits, reductionUnits, places, guardedError]
  refine mul_le_mul_of_nonneg_right ?_ positive.le
  push_cast
  linarith

end Errors

/-! ### Results at two precisions -/

/-- A result that is rounded from a quotient of numbers close to the exact ones, with a
denominator that is not refused. -/
structure IsQuotientOf (digits : Nat) (error : ℚ) (top bottom : ℝ) (result : ℚ) : Prop where
  tiny : error ≤ 10 ^ (-digits - 3 : Int)
  exists_rounded : ∃ upper lower : ℚ, |top - upper| ≤ error ∧ |bottom - lower| ≤ error ∧
    10 ^ (2 - digits : Int) / 2 ≤ |lower| ∧
    |upper / lower - result| ≤ 101 / 200 * 10 ^ (1 - digits : Int) * |upper / lower|

/-- Results that agree to so many significant digits of the second one. -/
def IsClose (digits : Nat) (first second : ℚ) : Prop :=
  |first - second| ≤ 10 ^ (1 - digits : Int) * |second|

theorem not_isClose_zero {digits : Nat} {second : ℚ} (many : 2 ≤ digits) (nonzero : second ≠ 0) :
    ¬IsClose digits 0 second := by
  have unit : (10 : ℚ) ^ (1 - digits : Int) < 1 :=
    zpow_lt_one_of_neg₀ (by norm_num) (by omega)
  have size := abs_pos.mpr nonzero
  rw [IsClose, zero_sub, abs_neg, not_le]
  nlinarith

/-- Results that agree up to the error that numbers of a fixed number of digits behind the point
leave to large and to small quotients.  Where it is small beside the quotient, and at least
between a thousandth and a thousand, they agree to so many significant digits. -/
structure AgreesTo (digits : Nat) (error first second : ℚ) : Prop where
  near : |first - second| ≤ 3 / 5 * 10 ^ (1 - digits : Int) * |second| +
    3 * error * (1 + second ^ 2)
  close : 15 / 2 * error * (1 + second ^ 2) ≤ 10 ^ (1 - digits : Int) * |second| →
    IsClose digits first second
  moderate : 1 / 1000 ≤ |second| → |second| ≤ 1000 → IsClose digits first second

namespace AgreesTo

variable {digits : Nat} {error more first second : ℚ}

theorem of_near (tiny : error ≤ 10 ^ (-digits - 3 : Int))
    (near : |first - second| ≤ 3 / 5 * 10 ^ (1 - digits : Int) * |second| +
      3 * error * (1 + second ^ 2)) : AgreesTo digits error first second := by
  have close (small : 15 / 2 * error * (1 + second ^ 2) ≤ 10 ^ (1 - digits : Int) * |second|) :
      IsClose digits first second := near.trans (by linarith)
  refine ⟨near, close, fun least most => close ?_⟩
  have ten : (10 : ℚ) ≠ 0 := by norm_num
  have unit : (10 : ℚ) ^ (-digits - 3 : Int) = 10 ^ (1 - digits : Int) / 10 ^ 4 := by
    rw [show (-digits - 3 : Int) = (1 - digits : Int) + -4 by ring, zpow_add₀ ten]
    norm_num
    ring
  have positive : (0 : ℚ) < 10 ^ (1 - digits : Int) := zpow_pos (by norm_num) _
  have square : 1 + second ^ 2 ≤ 1001 * |second| := by
    rw [← sq_abs]
    nlinarith
  have carried := mul_le_mul_of_nonneg_right (unit ▸ tiny) (by positivity : 0 ≤ 1 + second ^ 2)
  nlinarith

end AgreesTo

theorem abs_sub_le_of_rounded {exact error unit value value' result result' : ℝ}
    (nonneg : 0 ≤ error) (positive : 0 < unit) (fine : unit ≤ 1 / 100)
    (small : error * (1 + exact ^ 2) ≤ 1 / 5000 * (1 + |exact|))
    (near : |exact - value| ≤ 21 / 10 * (error * (1 + exact ^ 2)))
    (near' : |exact - value'| ≤ 24 / 100 * (error * (1 + exact ^ 2)))
    (rounded : |value - result| ≤ 101 / 200 * unit * |value|)
    (rounded' : |value' - result'| ≤ 101 / 2000 * unit * |value'|) :
    |result - result'| ≤ 3 / 5 * unit * |result'| + 3 * error * (1 + result' ^ 2) := by
  have size' : |value'| ≤ 1001 / 1000 * |result'| := by
    have triangle := abs_sub_abs_le_abs_sub value' result'
    nlinarith [abs_nonneg value']
  have apart : |value - value'| ≤ 234 / 100 * (error * (1 + exact ^ 2)) := by
    have triangle := abs_sub_le value exact value'
    rw [abs_sub_comm value exact] at triangle
    linarith
  have size : |value| ≤ |value'| + 234 / 100 * (error * (1 + exact ^ 2)) := by
    have triangle := abs_sub_abs_le_abs_sub value value'
    linarith
  have exactSize : |exact| ≤ 1002 / 1000 * |result'| + 1 / 10000 := by
    have triangle := abs_sub_abs_le_abs_sub exact value'
    linarith [abs_nonneg result']
  have square : 1 + exact ^ 2 ≤ 103 / 100 * (1 + result' ^ 2) := by
    rw [← sq_abs exact, ← sq_abs result']
    nlinarith [abs_nonneg exact, sq_nonneg (|result'| - 1)]
  have total : |result - result'| ≤ |value - result| + |value - value'| + |value' - result'| := by
    have first := abs_sub_le result value result'
    have second := abs_sub_le value value' result'
    rw [abs_sub_comm result value] at first
    linarith
  have carried := mul_le_mul_of_nonneg_left square nonneg
  have shared : 0 ≤ error * (1 + exact ^ 2) := by positivity
  have first : 101 / 200 * unit * |value| ≤ 101 / 200 * unit * |value'| +
      12 / 1000 * (error * (1 + exact ^ 2)) := by
    have scaled := mul_le_mul_of_nonneg_left size positive.le
    have part := mul_le_mul_of_nonneg_right fine shared
    nlinarith
  have second := mul_le_mul_of_nonneg_left size' positive.le
  nlinarith [abs_nonneg result']

theorem zpow_le_div_ten {place finer : Int} (less : finer < place) :
    (10 : ℝ) ^ finer ≤ 10 ^ place / 10 := by
  have power := zpow_le_zpow_right₀ (show (1 : ℝ) ≤ 10 by norm_num) (show finer + 1 ≤ place by omega)
  rw [zpow_add_one₀ (by norm_num)] at power
  linarith

theorem IsQuotientOf.agreesTo {coarse fine : Nat} {error error' : ℚ} {top bottom : ℝ}
    {result result' : ℚ} (fraction : IsFraction top bottom) (least : 3 ≤ coarse)
    (finer : coarse < fine) (nonneg : 0 ≤ error) (less : error' ≤ error / 9)
    (first : IsQuotientOf coarse error top bottom result)
    (second : IsQuotientOf fine error' top bottom result') :
    AgreesTo coarse error result result' := by
  obtain ⟨upper, lower, near, near', accepted, rounded⟩ := first.exists_rounded
  obtain ⟨upper', lower', close, close', -, rounded'⟩ := second.exists_rounded
  have ten : (10 : ℝ) ≠ 0 := by norm_num
  have unit : (10 : ℝ) ^ (1 - coarse : Int) ≤ 1 / 100 := by
    have power := zpow_le_zpow_right₀ (show (1 : ℝ) ≤ 10 by norm_num)
      (show (1 - coarse : Int) ≤ -2 by omega)
    norm_num at power ⊢
    exact power
  have unit' := zpow_le_div_ten (show (1 - fine : Int) < 1 - coarse by omega)
  have tiny := (Rat.cast_le (K := ℝ)).mpr first.tiny
  have nonneg' := (Rat.cast_le (K := ℝ)).mpr nonneg
  have less' := (Rat.cast_le (K := ℝ)).mpr less
  have guard : (10 : ℝ) ^ (2 - coarse : Int) = 10 ^ 5 * 10 ^ (-coarse - 3 : Int) := by
    rw [show (2 - coarse : Int) = 5 + (-coarse - 3) by ring, zpow_add₀ ten]
    norm_num
  have positive : (0 : ℝ) < 10 ^ (-coarse - 3 : Int) := zpow_pos (by norm_num) _
  have accepted' := (Rat.cast_le (K := ℝ)).mpr accepted
  have real := (Rat.cast_le (K := ℝ)).mpr rounded
  have real' := (Rat.cast_le (K := ℝ)).mpr rounded'
  push_cast at accepted' real real' tiny nonneg' less'
  rw [guard] at accepted'
  have large : 49999 * 10 ^ (-coarse - 3 : Int) ≤ |bottom| := by
    have triangle := abs_sub_abs_le_abs_sub (lower : ℝ) bottom
    rw [abs_sub_comm] at triangle
    linarith
  have nonzero : bottom ≠ 0 := abs_pos.mp (by linarith)
  have off := fraction.abs_sub_le nonzero (by linarith) near near'
  have off' := fraction.abs_sub_le nonzero (by linarith) close close'
  have small := fraction.error_mul_le nonzero (show (error : ℝ) ≤ |bottom| / 10 ^ 4 by linarith)
  have shared : 0 ≤ 1 + (top / bottom) ^ 2 := by positivity
  have ninth := mul_le_mul_of_nonneg_right less' shared
  have rest' : 0 ≤ (error : ℝ) * (1 + (top / bottom) ^ 2) := mul_nonneg nonneg' shared
  have rest := mul_le_mul_of_nonneg_right unit' (abs_nonneg ((upper' : ℝ) / lower'))
  have finerOff : |top / bottom - upper' / lower'| ≤
      24 / 100 * (error * (1 + (top / bottom) ^ 2)) := by
    linarith
  have finerRounded : |(upper' / lower' - result' : ℝ)| ≤
      101 / 2000 * 10 ^ (1 - coarse : Int) * |(upper' : ℝ) / lower'| := by
    linarith
  have bound := abs_sub_le_of_rounded nonneg' (zpow_pos (by norm_num) _) unit small off finerOff
    real finerRounded
  apply AgreesTo.of_near first.tiny
  rw [← Rat.cast_le (K := ℝ)]
  push_cast
  exact bound

/-! ### Sine and cosine as numerator and denominator -/

variable {angle : Decimal} {precision coarse fine : Precision}

/-- A number at the scale of a precision with an error of less than a thousandth of the last digit
that the precision counts behind the point. -/
structure IsCompanion (precision : Precision) (error : ℚ) (exact : ℝ) (number : Decimal) : Prop where
  isWithin : IsWithin precision.seriesScale number
  tiny : error ≤ 10 ^ (-precision.toNat - 3 : Int)
  near : |exact - number.value| ≤ error

theorem isCompanion_one {error : ℚ} (few : precision.toNat ≤ 10 ^ 6) (nonneg : 0 ≤ error)
    (tiny : error ≤ 10 ^ (-precision.toNat - 3 : Int)) : IsCompanion precision error 1 1 := by
  have places := toInt_seriesScale (show precision.toNat + 10 < 2 ^ 32 by omega)
  have within : 0 ≤ precision.seriesScale.toInt := by omega
  refine ⟨⟨le_refl 0, within⟩, tiny, ?_⟩
  rw [value_one, Rat.cast_one, sub_self, abs_zero]
  exact_mod_cast nonneg

theorem isCompanion_of_near {exact : ℝ} {taken : ℚ} {number : Decimal}
    (few : precision.toNat ≤ 10 ^ 6)
    (close : IsWithin precision.seriesScale number ∧ frontDigits taken ≤ largestExponent ∧
      |exact - number.value| ≤
        circularUnits precision.seriesScale taken * lastUnit precision.seriesScale) :
    IsCompanion precision (guardedError precision.toNat taken) exact number := by
  obtain ⟨isWithin, front, near⟩ := close
  refine ⟨isWithin, guardedError_le few front, near.trans ?_⟩
  exact_mod_cast circularUnits_mul_le few taken

namespace IsCompanion

variable {error : ℚ} {exact top bottom : ℝ} {number numerator denominator result : Decimal}

theorem isWide (companion : IsCompanion precision error exact number) (bounded : |exact| ≤ 1)
    (few : precision.toNat ≤ 10 ^ 6) : IsWide number := by
  have places := toInt_seriesScale (show precision.toNat + 10 < 2 ^ 32 by omega)
  obtain ⟨⟨nonneg, within⟩, tiny, near⟩ := companion
  have digits : number.digitCount ≤ 2 * 10 ^ 7 := by
    by_cases zero : number.value = 0
    · rw [digitCount, value_eq_zero_iff.mp zero]
      decide
    · have small : (error : ℝ) ≤ 1 := by
        exact_mod_cast tiny.trans (zpow_le_one_of_nonpos₀ (by norm_num) (by omega))
      have size : |number.value| < 10 ^ (1 : Int) := by
        have triangle := abs_sub_abs_le_abs_sub (number.value : ℝ) exact
        rw [abs_sub_comm] at triangle
        have real : |(number.value : ℝ)| < 10 := by linarith
        rw [zpow_one]
        exact_mod_cast real
      have first := firstPlace_lt_of_abs_lt zero size
      have count := firstPlace_value zero
      omega
  exact ⟨digits, by omega, by omega⟩

theorem isQuotientOf (fraction : IsFraction top bottom) (least : 1 ≤ precision.toNat)
    (few : precision.toNat ≤ 10 ^ 6) (first : IsCompanion precision error top numerator)
    (second : IsCompanion precision error bottom denominator)
    (accepted : vanishes denominator precision = false)
    (divided : numerator.divideToPrecision denominator precision = .ok result) :
    IsQuotientOf precision.toNat error top bottom result.value := by
  have places := toInt_seriesScale (show precision.toNat + 10 < 2 ^ 32 by omega)
  have room : 12 ≤ largestExponent := by decide
  have within := second.isWithin.within
  have size : 10 ^ (2 - precision.toNat : Int) / 2 ≤ |denominator.value| := by
    rw [← not_lt, ← vanishes_iff second.isWithin.nonneg (by omega), accepted]
    decide
  have nonzero : denominator.value ≠ 0 := by
    have positive : (0 : ℚ) < 10 ^ (2 - precision.toNat : Int) := zpow_pos (by norm_num) _
    exact abs_pos.mp (by linarith)
  refine ⟨first.tiny, numerator.value, denominator.value, first.near, second.near, size, ?_⟩
  by_cases zero : numerator.value = 0
  · rw [divideToPrecision_of_zero nonzero zero] at divided
    cases divided
    rw [zero, zero_div, show (0 : Decimal).value = 0 from value_eq_zero_iff.mpr rfl, sub_zero,
      abs_zero, mul_zero]
  · obtain ⟨quotient, divided', rounded⟩ :=
      (first.isWide fraction.top_le few).exists_divideToPrecision
        (second.isWide fraction.bottom_le few) zero nonzero least (by omega)
    obtain rfl : quotient = result := Except.ok.inj (divided'.symm.trans divided)
    exact rounded

end IsCompanion

section Companions

variable {number result : Decimal} (short : angle.IsShort) (least : 3 ≤ precision.toNat)
  (few : precision.toNat ≤ 10 ^ 6)

include few in
/-- A result that is not refused as a pole, with a numerator and a denominator that are companions
wherever they are found. -/
theorem isQuotientOf_of_refusingPoles {pole : EvaluationError} {error : ℚ} {top bottom : ℝ}
    {numerators denominators : Outcome Decimal} (fraction : IsFraction top bottom)
    (positive : 1 ≤ precision.toNat)
    (first : ∀ {number}, numerators = .ok number → IsCompanion precision error top number)
    (second : ∀ {number}, denominators = .ok number → IsCompanion precision error bottom number)
    (reached : refusingPoles precision pole denominators (fun denominator =>
      numerators >>= fun numerator => numerator.divideToPrecision denominator precision) =
        .ok result) :
    IsQuotientOf precision.toNat error top bottom result.value := by
  obtain ⟨denominator, computed, accepted, later⟩ := exists_denominator reached
  obtain ⟨numerator, computed', divided⟩ := bind_eq_ok_iff.mp later
  exact (first computed').isQuotientOf fraction positive few (second computed) accepted divided

include few in
theorem isQuotientOf_one_of_refusingPoles {pole : EvaluationError} {error : ℚ} {bottom : ℝ}
    {denominators : Outcome Decimal} (bounded : |bottom| ≤ 1) (positive : 1 ≤ precision.toNat)
    (nonneg : 0 ≤ error)
    (companion : ∀ {number}, denominators = .ok number → IsCompanion precision error bottom number)
    (reached : refusingPoles precision pole denominators (fun denominator =>
      divideToPrecision 1 denominator precision) = .ok result) :
    IsQuotientOf precision.toNat error 1 bottom result.value := by
  obtain ⟨denominator, computed, accepted, divided⟩ := exists_denominator reached
  have second := companion computed
  exact (isCompanion_one few nonneg second.tiny).isQuotientOf (isFraction_one bounded) positive few
    second accepted divided

include short least few

theorem isCompanion_sin (reached : sinAtScale angle precision.seriesScale = .ok number) :
    IsCompanion precision (guardedError precision.toNat angle.value)
      (Real.sin angle.value) number := by
  have places := toInt_seriesScale (show precision.toNat + 10 < 2 ^ 32 by omega)
  exact isCompanion_of_near few (near_of_sinAtScale short (by omega) (by omega) reached)

theorem isCompanion_cos (reached : cosAtScale angle precision.seriesScale = .ok number) :
    IsCompanion precision (guardedError precision.toNat angle.value)
      (Real.cos angle.value) number := by
  have places := toInt_seriesScale (show precision.toNat + 10 < 2 ^ 32 by omega)
  exact isCompanion_of_near few (near_of_cosAtScale short (by omega) (by omega) reached)

theorem isQuotientOf_tan (reached : tan angle precision = .ok result) :
    IsQuotientOf precision.toNat (guardedError precision.toNat angle.value)
      (Real.sin angle.value) (Real.cos angle.value) result.value := by
  rw [tan_eq_refusingPoles] at reached
  exact isQuotientOf_of_refusingPoles few (isFraction_sin_cos _) (by omega)
    (isCompanion_sin short least few) (isCompanion_cos short least few) reached

theorem isQuotientOf_cot (reached : cot angle precision = .ok result) :
    IsQuotientOf precision.toNat (guardedError precision.toNat angle.value)
      (Real.cos angle.value) (Real.sin angle.value) result.value := by
  rw [cot_eq_refusingPoles] at reached
  exact isQuotientOf_of_refusingPoles few (isFraction_cos_sin _) (by omega)
    (isCompanion_cos short least few) (isCompanion_sin short least few) reached

theorem isQuotientOf_sec (reached : sec angle precision = .ok result) :
    IsQuotientOf precision.toNat (guardedError precision.toNat angle.value) 1
      (Real.cos angle.value) result.value := by
  rw [sec_eq_refusingPoles] at reached
  exact isQuotientOf_one_of_refusingPoles few (Real.abs_cos_le_one _) (by omega)
    (guardedError_nonneg _ _) (isCompanion_cos short least few) reached

theorem isQuotientOf_csc (reached : csc angle precision = .ok result) :
    IsQuotientOf precision.toNat (guardedError precision.toNat angle.value) 1
      (Real.sin angle.value) result.value := by
  rw [csc_eq_refusingPoles] at reached
  exact isQuotientOf_one_of_refusingPoles few (Real.abs_sin_le_one _) (by omega)
    (guardedError_nonneg _ _) (isCompanion_sin short least few) reached

end Companions

/-! ### Agreement -/

/-- The results of a function at two precisions agree, if there are any. -/
def Agrees (function : Decimal → Precision → Outcome Decimal) (angle : Decimal)
    (coarse fine : Precision) : Prop :=
  ∀ result finer, function angle coarse = .ok result → function angle fine = .ok finer →
    AgreesTo coarse.toNat (guardedError coarse.toNat angle.value) result.value finer.value

theorem agrees_of_isQuotientOf {function : Decimal → Precision → Outcome Decimal} {top bottom : ℝ}
    (fraction : IsFraction top bottom) (least : 3 ≤ coarse.toNat) (finer : coarse.toNat < fine.toNat)
    (few : fine.toNat ≤ 10 ^ 6)
    (rounded : ∀ {precision : Precision} {result : Decimal}, 3 ≤ precision.toNat →
      precision.toNat ≤ 10 ^ 6 → function angle precision = .ok result →
        IsQuotientOf precision.toNat (guardedError precision.toNat angle.value) top bottom
          result.value) :
    Agrees function angle coarse fine := by
  intro result result' reached reached'
  have first := rounded least (by omega) reached
  have second := rounded (by omega) few reached'
  exact first.agreesTo fraction least finer (guardedError_nonneg _ _)
    (guardedError_le_div_nine finer) second

/-- From a precision of three on, tangent, cotangent, secant and cosecant agree with their results
at any larger precision, wherever both are not refused. -/
theorem circular_quotients_agree (short : angle.IsShort) (least : 3 ≤ coarse.toNat)
    (finer : coarse.toNat < fine.toNat) (few : fine.toNat ≤ 10 ^ 6) :
    Agrees tan angle coarse fine ∧ Agrees cot angle coarse fine ∧
      Agrees sec angle coarse fine ∧ Agrees csc angle coarse fine := by
  have one_cos := isFraction_one (Real.abs_cos_le_one angle.value)
  have one_sin := isFraction_one (Real.abs_sin_le_one angle.value)
  refine ⟨?_, ?_, ?_, ?_⟩
  · exact agrees_of_isQuotientOf (isFraction_sin_cos _) least finer few (isQuotientOf_tan short)
  · exact agrees_of_isQuotientOf (isFraction_cos_sin _) least finer few (isQuotientOf_cot short)
  · exact agrees_of_isQuotientOf one_cos least finer few (isQuotientOf_sec short)
  · exact agrees_of_isQuotientOf one_sin least finer few (isQuotientOf_csc short)

theorem csc_agrees_near_zero :
    csc ⟨10000000000004, 31⟩ 20 = .ok ⟨10 ^ 19, 1⟩ ∧
      csc ⟨10000000000004, 31⟩ 40 = .ok ⟨9999999999996000000000001599999999999360, 22⟩ ∧
      AgreesTo 20 (guardedError 20 (⟨10000000000004, 31⟩ : Decimal).value)
        (⟨10 ^ 19, 1⟩ : Decimal).value
        (⟨9999999999996000000000001599999999999360, 22⟩ : Decimal).value := by
  have first : csc ⟨10000000000004, 31⟩ 20 = .ok ⟨10 ^ 19, 1⟩ := by decide +kernel
  have second : csc ⟨10000000000004, 31⟩ 40 =
      .ok ⟨9999999999996000000000001599999999999360, 22⟩ := by decide +kernel
  obtain ⟨-, -, -, agrees⟩ : _ ∧ _ ∧ _ ∧ Agrees csc ⟨10000000000004, 31⟩ 20 40 :=
    circular_quotients_agree (by decide) (by decide) (by decide) (by decide)
  exact ⟨first, second, agrees _ _ first second⟩

/-! ### Where they do not agree -/

def longOne (zeros : Nat) : Decimal :=
  ⟨10 ^ zeros, Int64.ofNat zeros⟩

section LongOne

variable {zeros : Nat} {scale : Int64} (word : zeros < 2 ^ 62)
include word

theorem toInt_scale_longOne : (longOne zeros).scale.toInt = zeros :=
  Int64.toInt_ofNat_of_lt (by omega)

theorem value_longOne : (longOne zeros).value = 1 := by
  rw [value, toInt_scale_longOne word, zpow_natCast, show (longOne zeros).unscaled = 10 ^ zeros from rfl]
  push_cast
  exact div_self (pow_ne_zero _ (by norm_num))

theorem reducedAngle_longOne (nonneg : 0 ≤ scale.toInt) :
    reducedAngle (longOne zeros) scale = .ok ((longOne zeros).setScale scale .halfEven) := by
  have places := toInt_scale_longOne word
  have comparable : Comparable (longOne zeros).abs 3 := by
    intro _
    have common := toInt_commonScale (longOne zeros).abs 3
    have three : (3 : Decimal).scale.toInt = 0 := by decide
    have abs : (longOne zeros).abs.scale.toInt = (longOne zeros).scale.toInt := rfl
    exact ⟨Or.inr (by omega), Or.inr (by omega)⟩
  have small : |(longOne zeros).value| ≤ 3 := by
    rw [value_longOne word]
    norm_num
  rw [reducedAngle_of_small comparable small]
  exact unlessOverflow_of (.of_scale_nonneg (by omega) nonneg)

theorem reducedAngle_longOne_of_far (nonneg : 0 ≤ scale.toInt)
    (far : largestExponent < zeros - scale.toInt) :
    reducedAngle (longOne zeros) scale = .ok ⟨0, scale⟩ := by
  have distance : largestExponent < (longOne zeros).scale.toInt - scale.toInt := by
    rwa [toInt_scale_longOne word]
  have sign : (longOne zeros).sign = 1 := Int.sign_eq_one_of_pos (Int.pow_pos (by decide))
  rw [reducedAngle_longOne word nonneg, setScale, if_neg (Int64.not_le.mpr (lt_scale_of_far distance)),
    writableExponent?_sub_eq_none distance, sign]
  rfl

theorem reducedAngle_longOne_of_near (nonneg : 0 ≤ scale.toInt) (coarser : scale.toInt < zeros)
    (written : zeros - scale.toInt ≤ largestExponent) :
    reducedAngle (longOne zeros) scale = .ok ⟨10 ^ scale.toInt.toNat, scale⟩ := by
  have less : scale < (longOne zeros).scale := by
    rw [Int64.lt_iff_toInt_lt, toInt_scale_longOne word]
    exact coarser
  have power : (1 : ℚ) * 10 ^ scale.toInt = ((10 ^ scale.toInt.toNat : Int) : ℚ) := by
    rw [one_mul, ← Int.toNat_of_nonneg nonneg, zpow_natCast, Int.toNat_natCast]
    push_cast
    rfl
  rw [reducedAngle_longOne word nonneg, setScale_eq_of_written .halfEven less
    (by rwa [toInt_scale_longOne word]), value_longOne word, power, RoundingMode.round_intCast]

theorem tan_longOne_of_far (far : largestExponent + 13 < zeros) :
    tan (longOne zeros) 3 = .ok 0 := by
  have scale : (3 : Precision).seriesScale = 13 := by decide
  have distance : (largestExponent : Int) < zeros - (13 : Int64).toInt := by
    rw [show (13 : Int64).toInt = 13 by decide]
    omega
  have reduced := reducedAngle_longOne_of_far word (by decide) distance
  have cosine : cosAtScale (longOne zeros) 13 = .ok 1 := by
    rw [cosAtScale, reduced]
    rfl
  have sine : sinAtScale (longOne zeros) 13 = .ok ⟨0, 13⟩ := by
    rw [sinAtScale, reduced]
    rfl
  rw [tan_eq_refusingPoles, scale, cosine, sine]
  rfl

theorem tan_longOne_of_near (more : 14 < zeros) (written : zeros ≤ largestExponent + 14) :
    tan (longOne zeros) 4 = .ok ⟨1557, 3⟩ := by
  have scale : (4 : Precision).seriesScale = 14 := by decide
  have places : (14 : Int64).toInt = 14 := by decide
  have reduced : reducedAngle (longOne zeros) 14 = .ok ⟨10 ^ 14, 14⟩ :=
    reducedAngle_longOne_of_near word (by decide) (by rw [places]; omega) (by rw [places]; omega)
  have cosine : cosAtScale (longOne zeros) 14 = .ok ⟨54030230586815, 14⟩ := by
    rw [cosAtScale, reduced]
    decide +kernel
  have sine : sinAtScale (longOne zeros) 14 = .ok ⟨84147098480789, 14⟩ := by
    rw [sinAtScale, reduced]
    decide +kernel
  rw [tan_eq_refusingPoles, scale, cosine, sine,
    refusingPoles_of_accepted (by decide) (by decide +kernel)]
  decide +kernel

end LongOne

/-- Significant digits are lost next to zero: at a precision of 20 digits the cosecant is off in the
thirteenth one there, and a small tangent is zero.  And the tangent of one is zero to three
digits, but not to four, if one is written with so many zeros that it is dropped with them. -/
theorem circular_quotients_disagree :
    (csc ⟨10000000000004, 31⟩ 20 = .ok ⟨10 ^ 19, 1⟩ ∧
      csc ⟨10000000000004, 31⟩ 40 = .ok ⟨9999999999996000000000001599999999999360, 22⟩ ∧
      ¬IsClose 20 (⟨10 ^ 19, 1⟩ : Decimal).value
        (⟨9999999999996000000000001599999999999360, 22⟩ : Decimal).value) ∧
    (tan ⟨1, 40⟩ 20 = .ok 0 ∧ tan ⟨1, 40⟩ 40 = .ok ⟨10 ^ 39, 79⟩ ∧
      ¬IsClose 20 (0 : Decimal).value (⟨10 ^ 39, 79⟩ : Decimal).value) ∧
    (tan (longOne (largestExponent + 14)) 3 = .ok 0 ∧
      tan (longOne (largestExponent + 14)) 4 = .ok ⟨1557, 3⟩ ∧
      ¬IsClose 3 (0 : Decimal).value (⟨1557, 3⟩ : Decimal).value) := by
  have word : largestExponent + 14 < 2 ^ 62 := by decide
  have room : 0 < largestExponent := by decide
  have zero : (0 : Decimal).value = 0 := value_eq_zero_iff.mpr rfl
  refine ⟨⟨by decide +kernel, by decide +kernel, ?_⟩, ⟨by decide +kernel, by decide +kernel, ?_⟩,
    tan_longOne_of_far word (by omega), tan_longOne_of_near word (by omega) (by omega), ?_⟩
  · change ¬|((10 ^ 19 : Int) : ℚ) / 10 ^ (1 : Int) -
        ((9999999999996000000000001599999999999360 : Int) : ℚ) / 10 ^ (22 : Int)| ≤
      10 ^ (1 - (20 : Nat) : Int) *
        |((9999999999996000000000001599999999999360 : Int) : ℚ) / 10 ^ (22 : Int)|
    norm_num [abs_of_pos]
  · rw [zero]
    exact not_isClose_zero (by decide) (mt value_eq_zero_iff.mp (by decide))
  · rw [zero]
    exact not_isClose_zero (by decide) (mt value_eq_zero_iff.mp (by decide))

end Elementary
end DecimalCalculator
