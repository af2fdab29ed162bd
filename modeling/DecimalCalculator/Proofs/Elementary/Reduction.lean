/-
The reduction of angles of any size.

The turns that an angle loses have a digit more for every digit of the angle in front of the
point.  Where they can be written, the angle has lost whole turns, up to a few units of the scale
and one for every fifty thousand digits.
-/

import Mathlib
import DecimalCalculator.Proofs.Elementary.CircularFunctions

namespace DecimalCalculator
namespace Elementary

open Decimal Series

variable {angle half reduced sum : Decimal} {scale : Int64}

/-! ### What a reduction leaves -/

/-- Digits of an angle in front of the point, without the first one. -/
def frontDigits (angle : ℚ) : Nat :=
  (firstPlace angle).toNat

/-- The error of a reduction in units of the scale.  That of pi is multiplied by the turns. -/
def reductionUnits (scale : Int64) (angle : ℚ) : ℚ :=
  4 + (scale.toInt + frontDigits angle) / 50000

/-- A reduction of an angle that does not have more digits than a power of ten. -/
structure IsRoughlyReduced (scale : Int64) (angle : ℚ) (reduced : Decimal) : Prop where
  front : frontDigits angle ≤ largestExponent
  isReduced : IsReducedAngle scale (reductionUnits scale angle) angle reduced

theorem frontDigits_of_abs_le_three {exact : ℚ} (small : |exact| ≤ 3) : frontDigits exact = 0 := by
  by_cases zero : exact = 0
  · rw [zero, frontDigits, firstPlace, abs_zero, Int.log_zero_right]
    rfl
  · have first : firstPlace exact < 1 :=
      firstPlace_lt_of_abs_lt zero (small.trans_lt (by norm_num))
    exact Int.toNat_eq_zero.mpr (by omega)

theorem IsReducedAngle.isRoughlyReduced {exact : ℚ} {units : ℝ} (few : units ≤ 4)
    (nonneg : 0 ≤ scale.toInt) (small : |exact| ≤ 3)
    (isReduced : IsReducedAngle scale units exact reduced) :
    IsRoughlyReduced scale exact reduced := by
  have none := frontDigits_of_abs_le_three small
  have digits : (0 : ℝ) ≤ scale.toInt := by exact_mod_cast nonneg
  refine ⟨none ▸ Nat.zero_le _, isReduced.mono ?_⟩
  rw [reductionUnits, none]
  push_cast
  linarith

section Reduction

variable (short : angle.IsShort) (least : 13 ≤ scale.toInt) (few : scale.toInt ≤ 2 * 10 ^ 6)

theorem toInt_le_of_piAtScale (found : piAtScale scale = .ok half) :
    scale.toInt + 5 ≤ largestExponent := by
  obtain ⟨word, found⟩ := requireWords_bind_eq_ok_iff.mp found
  obtain ⟨fifth, divided, -⟩ := bind_eq_ok_iff.mp found
  obtain ⟨-, -, near, -⟩ := divideAtScale_eq_ok_iff.mp divided
  have five : (5 : Int64).toInt = 5 := by decide
  have inner : (scale + 5).toInt = scale.toInt + 5 := by
    rw [toInt_add_of_isWord (by rwa [five]), five]
  have exponent : quotientExponent 1 5 (scale + 5) = scale.toInt + 5 := by
    change (scale + 5).toInt + 0 - 0 = _
    rw [inner, add_zero, sub_zero]
  rw [exponent] at near
  exact (abs_le.mp near).2

include short least

theorem isRoughlyReduced_of_small (small : |angle.value| ≤ 3) (meets : angle.Meets scale) :
    IsRoughlyReduced scale angle.value (angle.setScale scale .halfEven) :=
  (isReducedAngle_setScale meets.1 short (by omega) small).isRoughlyReduced (by norm_num)
    (by omega) small

include few

theorem isRoughlyReduced_of_large (comparable : Comparable angle.abs 3) (large : 3 < |angle.value|)
    (reached : reducedAngle angle scale = .ok reduced) :
    IsRoughlyReduced scale angle.value reduced := by
  have room : largestExponent = 2 ^ 32 - 1 := rfl
  have digits : angle.digitCount ≤ largestExponent := short
  have nonzero : angle.value ≠ 0 := abs_pos.mp (by linarith)
  have places := firstPlace_value nonzero
  have front := firstPlace_nonneg_of_large large
  obtain ⟨inner, half, turns, takesOff, -⟩ := exists_takesOff comparable large reached
  have inside := takesOff.places
  have most := toInt_le_of_piAtScale takesOff.found
  obtain ⟨half', found, written, near⟩ :=
    exists_piAtScale_of_written (show 0 ≤ inner.toInt by omega) most
  obtain rfl : half' = half := Except.ok.inj (found.symm.trans takesOff.found)
  have most' : (inner.toInt : ℝ) ≤ 2 ^ 32 := by
    exact_mod_cast (by omega : inner.toInt ≤ 2 ^ 32)
  have million : (inner.toInt : ℝ) / 2500 + 1 ≤ 2 * 10 ^ 6 := by linarith
  have bounds := isHalfTurn_of_near (by omega) million near
  have positive : 0 < half'.value := by linarith [bounds.1]
  obtain ⟨-, -, close, -⟩ := divideAtScale_eq_ok_iff.mp takesOff.divided
  rw [quotientExponent, show (2 * half').scale = inner from (scale_ofInt_mul 2 half').trans written,
    Int64.toInt_zero, zero_add, abs_sub_comm] at close
  obtain ⟨reduced', reached', writtenAt, rounded⟩ := exists_reducedAngle_of_halfTurn comparable large
    (by omega) inside found written positive (by omega) (by omega) (by omega) close
  obtain rfl : reduced' = reduced := Except.ok.inj (reached'.symm.trans reached)
  have exact : (frontDigits angle.value : Int) = firstPlace angle.value := Int.toNat_of_nonneg front
  refine ⟨by omega, .mono ?_ <| isReducedAngle_of_near writtenAt (by omega) front
    (lt_zpow_firstPlace angle.value) inside million near rounded⟩
  have sum : (inner.toInt : ℝ) = scale.toInt + frontDigits angle.value + 2 := by
    exact_mod_cast exact ▸ inside
  have digits : (0 : ℝ) ≤ scale.toInt := by exact_mod_cast (by omega : 0 ≤ scale.toInt)
  have digits' : (0 : ℝ) ≤ frontDigits angle.value := Nat.cast_nonneg _
  rw [reductionUnits, sum]
  push_cast
  linarith

theorem isRoughlyReduced_of_eq_ok (reached : reducedAngle angle scale = .ok reduced) :
    IsRoughlyReduced scale angle.value reduced := by
  have comparable := (requireWords_bind_eq_ok_iff.mp reached).1
  rcases le_or_gt |angle.value| 3 with small | large
  · rw [reducedAngle_of_small comparable small] at reached
    obtain ⟨meets, rfl⟩ := unlessOverflow_eq_ok_iff.mp reached
    exact isRoughlyReduced_of_small short least small meets
  · exact isRoughlyReduced_of_large short least few comparable large reached

end Reduction

/-! ### Sine and cosine -/

def circularUnits (scale : Int64) (angle : ℚ) : ℚ :=
  8 * scale.toInt + 14 + reductionUnits scale angle

section Sums

variable (short : angle.IsShort) (least : 13 ≤ scale.toInt) (few : scale.toInt ≤ 2 * 10 ^ 6)
include short least few

theorem near_of_sinAtScale (reached : sinAtScale angle scale = .ok sum) :
    IsWithin scale sum ∧ frontDigits angle.value ≤ largestExponent ∧
      |Real.sin angle.value - sum.value| ≤
        circularUnits scale angle.value * lastUnit scale := by
  obtain ⟨reduced, found, summed⟩ := bind_eq_ok_iff.mp reached
  obtain ⟨front, isReduced⟩ := isRoughlyReduced_of_eq_ok short least few found
  have fractional := isFractionalScale_of_le (by omega) (few.trans (by norm_num))
  obtain ⟨sum', summed', -, sums⟩ := exists_circularSeries fractional (isCircular_sin isReduced.small)
    isReduced.written (fractional.isWithin isReduced.written)
  obtain rfl : sum' = sum := Except.ok.inj (summed'.symm.trans summed)
  have moved := isReduced.abs_sub_le Real.sin_sub_int_mul_two_pi Real.abs_sin_sub_sin_le
  have close := sums.abs_limit_sub_le (tendsto_factorSum_sin _)
  have triangle := abs_sub_le (Real.sin angle.value) (Real.sin reduced.value) sum'.value
  refine ⟨sums.isWithin, front, ?_⟩
  rw [circularUnits]
  push_cast
  linarith

theorem near_of_cosAtScale (reached : cosAtScale angle scale = .ok sum) :
    IsWithin scale sum ∧ frontDigits angle.value ≤ largestExponent ∧
      |Real.cos angle.value - sum.value| ≤
        circularUnits scale angle.value * lastUnit scale := by
  obtain ⟨reduced, found, summed⟩ := bind_eq_ok_iff.mp reached
  obtain ⟨front, isReduced⟩ := isRoughlyReduced_of_eq_ok short least few found
  have fractional := isFractionalScale_of_le (by omega) (few.trans (by norm_num))
  have circular := isCircular_cos isReduced.small
  rw [← value_one] at circular
  obtain ⟨sum', summed', -, sums⟩ := exists_circularSeries fractional circular isReduced.written
    (isWithin_one fractional)
  obtain rfl : sum' = sum := Except.ok.inj (summed'.symm.trans summed)
  rw [value_one] at sums
  have moved := isReduced.abs_sub_le Real.cos_sub_int_mul_two_pi Real.abs_cos_sub_cos_le
  have close := sums.abs_limit_sub_le (tendsto_factorSum_cos _)
  have triangle := abs_sub_le (Real.cos angle.value) (Real.cos reduced.value) sum'.value
  refine ⟨sums.isWithin, front, ?_⟩
  rw [circularUnits]
  push_cast
  linarith

end Sums

end Elementary
end DecimalCalculator
