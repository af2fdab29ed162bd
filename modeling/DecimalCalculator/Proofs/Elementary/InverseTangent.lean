/-
The error of the inverse tangent.

Half an angle has a tangent of which the truncated root is off by less than a unit, and halving
twice brings a number of at most one below one third.  Near zero an inverse tangent has as many
zeros in front of its first digit as its argument, and the scale has more digits for them.
-/

import Mathlib
import DecimalCalculator.Proofs.Elementary.Approximation
import DecimalCalculator.Proofs.Elementary.ArctangentSeries
import DecimalCalculator.Proofs.Elementary.InverseSine

namespace DecimalCalculator
namespace Elementary

open Decimal Series

variable {tangent : Decimal} {scale : Int64} {precision : Precision}

/-! ### Half angles -/

section HalfAngle

theorem two_mul_arctan_half (tangent : ℝ) :
    2 * Real.arctan (tangent / (1 + √(1 + tangent ^ 2))) = Real.arctan tangent := by
  have square : √(1 + tangent ^ 2) ^ 2 = 1 + tangent ^ 2 := Real.sq_sqrt (by positivity)
  have root := Real.sqrt_nonneg (1 + tangent ^ 2)
  generalize √(1 + tangent ^ 2) = hypotenuse at square root
  have positive : 0 < 1 + hypotenuse := by linarith
  have within : |tangent| < 1 + hypotenuse := by
    have size : |tangent| ≤ hypotenuse := by
      rw [← sq_le_sq₀ (abs_nonneg tangent) root, sq_abs]
      linarith
    linarith
  obtain ⟨lower, upper⟩ := abs_lt.mp within
  rw [Real.two_mul_arctan]
  · congr 1
    have rest : 1 - (tangent / (1 + hypotenuse)) ^ 2 = 2 / (1 + hypotenuse) := by
      field_simp
      linarith
    rw [rest]
    field_simp
  · rw [lt_div_iff₀ positive]
    linarith
  · rw [div_lt_one positive]
    exact upper

theorem truncatedRoot_between (places : Int) (value : ℚ) :
    √(1 + value ^ 2) - (1 / 10 ^ places : ℚ) ≤ truncatedRoot 2 places (1 + value ^ 2) ∧
      (truncatedRoot 2 places (1 + value ^ 2) : ℝ) ≤ √(1 + value ^ 2) := by
  have above : 0 < 1 + value ^ 2 := by positivity
  have nonneg := truncatedRoot_nonneg 2 places (1 + value ^ 2)
  have below : truncatedRoot 2 places (1 + value ^ 2) ^ 2 ≤ 1 + value ^ 2 :=
    truncatedRoot_pow_le two_ne_zero above
  have exceeds : 1 + value ^ 2 < (truncatedRoot 2 places (1 + value ^ 2) + 1 / 10 ^ places) ^ 2 :=
    lt_truncatedRoot_add_pow two_ne_zero _
  have unit : (0 : ℚ) < 1 / 10 ^ places := one_div_pos.mpr (zpow_pos (by norm_num) _)
  generalize truncatedRoot 2 places (1 + value ^ 2) = root at *
  generalize (1 : ℚ) / 10 ^ places = last at *
  have real : (1 + value ^ 2 : ℝ) < (root + last) ^ 2 := by exact_mod_cast exceeds
  have sum : (0 : ℝ) < root + last := by exact_mod_cast add_pos_of_nonneg_of_pos nonneg unit
  constructor
  · have less := (Real.sqrt_lt' sum).mpr real
    linarith
  · apply Real.le_sqrt_of_sq_le
    exact_mod_cast below

/-- A hypotenuse that is a little too short makes the tangent of half an angle a little too large. -/
theorem abs_div_sub_div_le {tangent exact root bound : ℝ} (least : 1 ≤ exact)
    (lower : exact - bound ≤ root) (upper : root ≤ exact) (few : bound ≤ 1 / 10)
    (small : |tangent| ≤ 11 / 10) :
    |tangent / (1 + exact) - tangent / (1 + root)| ≤ bound / 3 := by
  have first : 0 < 1 + exact := by linarith
  have second : 0 < 1 + root := by linarith
  have split : tangent / (1 + exact) - tangent / (1 + root) =
      -(tangent * (exact - root)) / ((1 + exact) * (1 + root)) := by
    field_simp
    ring
  have nonneg : 0 ≤ exact - root := by linarith
  have size : 19 / 5 ≤ (1 + exact) * (1 + root) := by nlinarith
  rw [split, abs_div, abs_neg, abs_mul, abs_of_nonneg nonneg, abs_of_pos (mul_pos first second),
    div_le_iff₀ (mul_pos first second)]
  have product : |tangent| * (exact - root) ≤ 11 / 10 * bound :=
    mul_le_mul small (by linarith) nonneg (by norm_num)
  nlinarith

end HalfAngle

theorem lastUnit_le_hundredth (fine : 2 ≤ scale.toInt) : (lastUnit scale : ℝ) ≤ 1 / 100 := by
  have real := (Rat.cast_le (K := ℝ)).mpr (lastUnit_le_one_div_pow fine)
  norm_num at real ⊢
  exact real

section Working

variable (working : IsWorkingScale scale) (fine : 2 ≤ scale.toInt)
include working fine

section Halving

variable (own : IsWorkingScale tangent.scale)
include own

theorem exists_halfAngleTangent_near (small : |(tangent.value : ℝ)| ≤ 11 / 10) :
    ∃ halved, halfAngleTangent tangent scale = .ok halved ∧ halved.scale = scale ∧
      |(halved.value : ℝ)| ≤ 10 / 19 * |(tangent.value : ℝ)| + 1 / 200 ∧
      |Real.arctan tangent.value - 2 * Real.arctan halved.value| ≤ 2 * lastUnit scale := by
  obtain ⟨halved, reached, written, near⟩ := exists_halfAngleTangent working own
  have unit := lastUnit_le_hundredth fine
  have positive := cast_lastUnit_pos scale
  have last : (1 : ℚ) / 10 ^ scale.toInt = lastUnit scale := by
    rw [lastUnit, zpow_neg, one_div]
  obtain ⟨lower, upper⟩ := truncatedRoot_between scale.toInt tangent.value
  have real := (Rat.cast_le (K := ℝ)).mpr near
  rw [last] at lower
  push_cast at real
  generalize truncatedRoot 2 scale.toInt (1 + tangent.value ^ 2) = root at lower upper real
  have least : 1 ≤ √(1 + (tangent.value : ℝ) ^ 2) := Real.one_le_sqrt.mpr (by nlinarith)
  have half := two_mul_arctan_half tangent.value
  have moved := abs_div_sub_div_le least lower upper (by linarith) small
  generalize √(1 + (tangent.value : ℝ) ^ 2) = exact at *
  refine ⟨halved, reached, written, ?_, ?_⟩
  · have divisor : 19 / 10 ≤ 1 + (root : ℝ) := by linarith
    have quotient : |tangent.value / (1 + root : ℝ)| ≤ 10 / 19 * |(tangent.value : ℝ)| := by
      rw [abs_div, abs_of_pos (by linarith : 0 < 1 + (root : ℝ)), div_le_iff₀ (by linarith)]
      nlinarith [abs_nonneg (tangent.value : ℝ)]
    have triangle := abs_sub_abs_le_abs_sub (halved.value : ℝ) (tangent.value / (1 + root))
    rw [abs_sub_comm] at triangle
    linarith
  · have slow := abs_arctan_sub_arctan_le (tangent.value / (1 + exact)) halved.value
    have triangle := abs_sub_le (tangent.value / (1 + exact)) (tangent.value / (1 + root : ℝ))
      halved.value
    rw [← half, ← mul_sub, abs_mul, abs_of_pos two_pos]
    linarith

theorem exists_atanOfUnit_near (small : |(tangent.value : ℝ)| ≤ 11 / 10) :
    ∃ angle, atanOfUnit tangent scale = .ok angle ∧ angle.scale = scale ∧
      |Real.arctan tangent.value - angle.value| ≤ (8 * scale.toInt + 14) * lastUnit scale := by
  obtain ⟨halved, first, written, size, near⟩ :=
    exists_halfAngleTangent_near working fine own small
  obtain ⟨quartered, second, written', size', near'⟩ :=
    exists_halfAngleTangent_near working fine
      (show IsWorkingScale halved.scale from written ▸ working) (by linarith)
  have third : |quartered.value| ≤ 1 / 3 := by
    have real : |(quartered.value : ℝ)| ≤ (1 / 3 : ℚ) := by
      push_cast
      linarith
    exact_mod_cast real
  have fractional : IsFractionalScale scale :=
    isFractionalScale_of_le (by omega) (working.small.trans (by norm_num))
  obtain ⟨sum, summed, same, close⟩ :=
    exists_oddPowers_arctan fractional third written'
  refine ⟨4 * sum, atanOfUnit_eq_ok first second summed, (scale_ofInt_mul 4 sum).trans same, ?_⟩
  have value : (4 * sum).value = 4 * sum.value := by exact_mod_cast value_ofInt_mul 4 sum
  have split : Real.arctan tangent.value - ((4 * sum).value : ℝ) =
      (Real.arctan tangent.value - 2 * Real.arctan halved.value) +
        (2 * (Real.arctan halved.value - 2 * Real.arctan quartered.value) +
          4 * (Real.arctan quartered.value - sum.value)) := by
    rw [value]
    push_cast
    ring
  have triangle := abs_add_le (Real.arctan tangent.value - 2 * Real.arctan halved.value)
    (2 * (Real.arctan halved.value - 2 * Real.arctan quartered.value) +
      4 * (Real.arctan quartered.value - sum.value))
  have triangle' := abs_add_le (2 * (Real.arctan halved.value - 2 * Real.arctan quartered.value))
    (4 * (Real.arctan quartered.value - sum.value))
  rw [abs_mul (2 : ℝ), abs_mul (4 : ℝ), Nat.abs_ofNat, Nat.abs_ofNat] at triangle'
  rw [split]
  linarith

end Halving

omit fine in
theorem exists_rightAngle_near (few : scale.toInt ≤ 4 * 10 ^ 6) :
    ∃ right, rightAngle scale = .ok right ∧ right.scale.toInt = scale.toInt + 1 ∧
      |Real.pi / 2 - right.value| ≤ 1000 * lastUnit scale := by
  obtain ⟨pi, found, written, near⟩ := exists_piAtScale_near working.nonneg few
  have word : IsWord (pi.scale.toInt + half.scale.toInt) := by
    rw [written]
    change IsWord (scale.toInt + 1)
    have nonneg := working.nonneg
    exact ⟨by omega, by omega⟩
  refine ⟨pi * half, ?_, ?_, ?_⟩
  · rw [rightAngle, found]
    rfl
  · rw [← written]
    exact toInt_add_of_isWord word
  · rw [value_mul word, value_half]
    have split : Real.pi / 2 - (pi.value * (1 / 2) : ℚ) = (Real.pi - pi.value) / 2 := by
      push_cast
      ring
    rw [split, abs_div, Nat.abs_ofNat]
    linarith

end Working

/-! ### The inverse tangent at a scale -/

/-- A result at a scale that is off from an angle by less than the guard digits show. -/
structure IsAngleAt (scale : Int64) (angle : ℝ) (result : Decimal) : Prop where
  nonneg : 0 ≤ result.scale.toInt
  within : result.scale.toInt ≤ scale.toInt + 1
  near : |angle - result.value| ≤ (8 * scale.toInt + 1100) * lastUnit scale

theorem IsAngleAt.withSignOf {result : Decimal}
    (isAngle : IsAngleAt scale (Real.arctan |(tangent.value : ℝ)|) result) :
    IsAngleAt scale (Real.arctan tangent.value) (withSignOf tangent result) := by
  rw [Elementary.withSignOf]
  cases negative : tangent.isNegative with
  | true =>
      have below : (tangent.value : ℝ) < 0 := by
        exact_mod_cast isNegative_iff.mp negative
      have near := isAngle.near
      rw [abs_of_neg below, Real.arctan_neg, abs_sub_comm] at near
      refine ⟨isAngle.nonneg, isAngle.within, ?_⟩
      simp only [↓reduceIte]
      rw [value_neg, Rat.cast_neg, sub_neg_eq_add, add_comm, ← sub_neg_eq_add]
      exact near
  | false =>
      have nonneg : (0 : ℝ) ≤ tangent.value := by
        exact_mod_cast isNegative_eq_false_iff.mp negative
      rw [abs_of_nonneg nonneg] at isAngle
      exact isAngle

theorem abs_arctan_sub_le {tangent inverse angle right error error' error'' : ℝ}
    (positive : 0 < tangent) (near : |tangent⁻¹ - inverse| ≤ error)
    (near' : |Real.arctan inverse - angle| ≤ error') (near'' : |Real.pi / 2 - right| ≤ error'') :
    |Real.arctan tangent - (right - angle)| ≤ error + error' + error'' := by
  have complement := Real.arctan_inv_of_pos positive
  have slow := abs_arctan_sub_arctan_le tangent⁻¹ inverse
  have triangle := abs_sub_le (Real.arctan tangent⁻¹) (Real.arctan inverse) angle
  have split : Real.arctan tangent - (right - angle) =
      (Real.pi / 2 - right) - (Real.arctan tangent⁻¹ - angle) := by
    rw [complement]
    ring
  rw [split]
  refine (abs_sub _ _).trans ?_
  linarith

section AtScale

variable (working : IsWorkingScale scale) (fine : 2 ≤ scale.toInt)
  (few : scale.toInt ≤ 4 * 10 ^ 6) (moderate : IsModerate tangent) (nonzero : tangent.value ≠ 0)
include working fine moderate nonzero

omit fine in
theorem exists_inverse :
    ∃ inverse, divideAtScale 1 tangent.abs scale .halfEven = .ok inverse ∧ inverse.scale = scale ∧
      |(|tangent.value|)⁻¹ - inverse.value| ≤ lastUnit scale / 2 := by
  have room : 10 ^ 7 * 2 ≤ largestExponent := by decide
  obtain ⟨-, lower, upper⟩ := moderate
  obtain ⟨nonneg, small⟩ := working
  have some : tangent.abs.value ≠ 0 := by
    rw [value_abs]
    exact abs_ne_zero.mpr nonzero
  have near : |quotientExponent 1 tangent.abs scale| ≤ largestExponent := by
    rw [quotientExponent, abs_le]
    change -_ ≤ scale.toInt + tangent.scale.toInt - 0 ∧ scale.toInt + tangent.scale.toInt - 0 ≤ _
    omega
  have sum : IsWord (scale.toInt + tangent.abs.scale.toInt) := by
    change IsWord (scale.toInt + tangent.scale.toInt)
    exact ⟨by omega, by omega⟩
  have divided := divideAtScale_eq_ok .halfEven some sum near
  rw [value_one, value_abs, one_div] at divided
  exact ⟨_, divided, rfl, abs_sub_round_mul_le _ scale⟩

theorem exists_atanAtScale_of_le (within : |tangent.value| ≤ 1) :
    ∃ angle, atanAtScale tangent scale = .ok angle ∧
      IsAngleAt scale (Real.arctan tangent.value) angle := by
  have size : tangent.abs.value = |tangent.value| := value_abs tangent
  have inside : ¬1 < tangent.abs := by
    rw [lt_iff_value_lt moderate.comparable, value_one, size]
    exact not_lt.mpr within
  have own : IsWorkingScale tangent.abs.scale := by
    have count : 1 ≤ tangent.digitCount := Digits.count_pos _
    have first := firstPlace_value nonzero
    have front : firstPlace tangent.value ≤ 0 :=
      firstPlace_le_of_abs_le nonzero (by rwa [zpow_zero])
    have upper := moderate.upper
    change IsWorkingScale tangent.scale
    exact ⟨by omega, by omega⟩
  have small : |(tangent.abs.value : ℝ)| ≤ 11 / 10 := by
    have real : |(tangent.value : ℝ)| ≤ 1 := by exact_mod_cast within
    rw [size, Rat.cast_abs, abs_abs]
    linarith
  obtain ⟨angle, reached, written, near⟩ := exists_atanOfUnit_near working fine own small
  rw [size, Rat.cast_abs] at near
  have isAngle : IsAngleAt scale (Real.arctan |(tangent.value : ℝ)|) angle := by
    have positive := cast_lastUnit_pos scale
    refine ⟨?_, ?_, ?_⟩
    · rw [written]
      omega
    · rw [written]
      omega
    · linarith
  refine ⟨withSignOf tangent angle, ?_, isAngle.withSignOf⟩
  rw [atanAtScale_of_ne_zero nonzero, requireWords_bind_of moderate.comparable]
  simp only [inside, ↓reduceIte]
  rw [reached]
  rfl

include few in
theorem exists_atanAtScale_of_gt (beyond : 1 < |tangent.value|) :
    ∃ angle, atanAtScale tangent scale = .ok angle ∧
      IsAngleAt scale (Real.arctan tangent.value) angle := by
  have size : tangent.abs.value = |tangent.value| := value_abs tangent
  have outside : 1 < tangent.abs := by
    rw [lt_iff_value_lt moderate.comparable, value_one, size]
    exact beyond
  obtain ⟨inverse, divided, written, near⟩ := exists_inverse working moderate nonzero
  have real : (1 : ℝ) < |(tangent.value : ℝ)| := by exact_mod_cast beyond
  have moved := (Rat.cast_le (K := ℝ)).mpr near
  push_cast at moved
  have unit := lastUnit_le_hundredth fine
  have positive := cast_lastUnit_pos scale
  have reciprocal : 0 < |(tangent.value : ℝ)|⁻¹ ∧ |(tangent.value : ℝ)|⁻¹ ≤ 1 :=
    ⟨inv_pos.mpr (by linarith), inv_le_one_of_one_le₀ real.le⟩
  have small : |(inverse.value : ℝ)| ≤ 11 / 10 := by
    rw [abs_le] at moved ⊢
    constructor
    · linarith
    · linarith
  obtain ⟨angle, reached, same, close⟩ := exists_atanOfUnit_near working fine
    (show IsWorkingScale inverse.scale from written ▸ working) small
  obtain ⟨right, found, place, about⟩ := exists_rightAngle_near working few
  have common := toInt_commonScale right angle
  rw [same, place] at common
  have difference : (right - angle).value = right.value - angle.value :=
    value_sub ⟨Or.inr (by omega), Or.inr (by rw [same]; omega)⟩
  have isAngle : IsAngleAt scale (Real.arctan |(tangent.value : ℝ)|) (right - angle) := by
    have scales : (right - angle).scale.toInt = max (scale.toInt + 1) scale.toInt := common
    refine ⟨by omega, by omega, ?_⟩
    rw [difference, Rat.cast_sub]
    exact (abs_arctan_sub_le (by linarith) moved close about).trans (by linarith)
  refine ⟨withSignOf tangent (right - angle), ?_, isAngle.withSignOf⟩
  rw [atanAtScale_of_ne_zero nonzero, requireWords_bind_of moderate.comparable]
  simp only [outside, ↓reduceIte]
  rw [divided]
  change rightAngle scale >>= _ = _
  rw [found]
  change atanOfUnit inverse scale >>= _ = _
  rw [reached]
  rfl

include few in
theorem exists_atanAtScale_near :
    ∃ angle, atanAtScale tangent scale = .ok angle ∧
      IsAngleAt scale (Real.arctan tangent.value) angle := by
  rcases le_or_gt |tangent.value| 1 with within | beyond
  · exact exists_atanAtScale_of_le working fine moderate nonzero within
  · exact exists_atanAtScale_of_gt working fine few moderate nonzero beyond

end AtScale

/-! ### The error of an inverse tangent -/

theorem half_le_arctan {tangent : ℝ} (nonneg : 0 ≤ tangent) (small : tangent ≤ 1) :
    tangent / 2 ≤ Real.arctan tangent := by
  have angle : 0 ≤ Real.arctan tangent := Real.arctan_nonneg.mpr nonneg
  have below := Real.sin_le angle
  have root : √(1 + tangent ^ 2) ≤ 2 := by
    rw [Real.sqrt_le_left two_pos.le]
    nlinarith
  have positive : 0 < √(1 + tangent ^ 2) := Real.sqrt_pos.mpr (by positivity)
  rw [Real.sin_arctan] at below
  refine le_trans ?_ below
  rw [div_le_div_iff₀ two_pos positive]
  nlinarith

theorem abs_arctan (tangent : ℝ) : |Real.arctan tangent| = Real.arctan |tangent| := by
  rcases le_total 0 tangent with nonneg | nonpos
  · rw [abs_of_nonneg nonneg, abs_of_nonneg (Real.arctan_nonneg.mpr nonneg)]
  · rw [abs_of_nonpos nonpos, Real.arctan_neg, abs_of_nonpos]
    rwa [← neg_nonneg, ← Real.arctan_neg, Real.arctan_nonneg, neg_nonneg]

theorem abs_arctan_le (tangent : ℝ) : |Real.arctan tangent| ≤ 10 ^ (1 : Int) / 2 := by
  have pi := Real.pi_lt_four
  have above := Real.arctan_lt_pi_div_two tangent
  have below := Real.neg_pi_div_two_lt_arctan tangent
  rw [abs_le]
  constructor
  · linarith
  · linarith

theorem zpow_le_abs_arctan {value : ℚ} (nonzero : value ≠ 0) :
    (10 : ℝ) ^ (-max (-firstPlace value) 0) ≤ 2 * |Real.arctan value| := by
  have first := (Rat.cast_le (K := ℝ)).mpr (zpow_firstPlace_le nonzero)
  push_cast at first
  have power : (0 : ℝ) < 10 ^ (-max (-firstPlace value) 0) := zpow_pos (by norm_num) _
  have small : (10 : ℝ) ^ (-max (-firstPlace value) 0) ≤ 1 :=
    zpow_le_one_of_nonpos₀ (by norm_num) (by omega)
  have below : (10 : ℝ) ^ (-max (-firstPlace value) 0) ≤ |(value : ℝ)| :=
    (zpow_le_zpow_right₀ (by norm_num) (by omega)).trans first
  have half := half_le_arctan power.le small
  have order := Real.arctan_strictMono.monotone below
  rw [abs_arctan]
  linarith

theorem IsAngleAt.isTotal {digits : Nat} {value : ℚ} {result : Decimal} (nonzero : value ≠ 0)
    (places : scale.toInt = digits + 10 + max (-firstPlace value) 0)
    (few : scale.toInt ≤ 4 * 10 ^ 6)
    (isAngle : IsAngleAt scale (Real.arctan value) result) :
    IsTotal digits (Real.arctan value) result := by
  obtain ⟨nonneg, within, near⟩ := isAngle
  refine ⟨nonneg, by omega, near.trans ?_⟩
  have size := zpow_le_abs_arctan nonzero
  have steps : (8 * scale.toInt + 1100 : ℝ) ≤ 4 * 10 ^ 7 := by
    have most : (scale.toInt : ℝ) ≤ 4 * 10 ^ 6 := by exact_mod_cast few
    linarith
  have front : (0 : ℝ) < 10 ^ (1 - digits : Int) := zpow_pos (by norm_num) _
  rw [cast_lastUnit_eq places]
  calc
    (8 * scale.toInt + 1100 : ℝ) *
          (10 ^ (1 - digits : Int) * 10 ^ (-11 : Int) * 10 ^ (-max (-firstPlace value) 0)) ≤
        4 * 10 ^ 7 *
          (10 ^ (1 - digits : Int) * 10 ^ (-11 : Int) * (2 * |Real.arctan value|)) := by
      gcongr
    _ ≤ 1 / 20 * 10 ^ (1 - digits : Int) * |Real.arctan value| := by
      have product : 0 ≤ (10 : ℝ) ^ (1 - digits : Int) * |Real.arctan value| := by positivity
      norm_num
      linarith

/-- The inverse tangent is right to the digits of the precision, however small it is, and it is
zero for zero alone. -/
theorem atan_approximates (tangent : Decimal) (precision : Precision) (least : 1 ≤ precision.toNat)
    (few : precision.toNat ≤ 10 ^ 6) (moderate : IsModerate tangent) :
    ∃ result, atan tangent precision = .ok result ∧
      ApproximatesTo precision.toNat (Real.arctan tangent.value) result ∧
      (result.value = 0 ↔ tangent.value = 0) := by
  obtain ⟨scale, found, known⟩ := exists_scaleNear few moderate
  by_cases zero : tangent.value = 0
  · have nothing : (0 : Decimal).value = 0 := value_eq_zero_iff.mpr rfl
    refine ⟨0, ?_, .of_zero nothing ?_, iff_of_true nothing zero⟩
    · rw [atan, found]
      change atanAtScale tangent scale >>= _ = _
      rw [atanAtScale_of_zero zero]
      exact congrArg Except.ok (roundToPrecision_of_zero nothing precision)
    · rw [zero, Rat.cast_zero, Real.arctan_zero]
  · have working := isWorkingScale_of_scaleNear few moderate known
    have places : scale.toInt = precision.toNat + 10 + max (-firstPlace tangent.value) 0 := by
      rw [known, firstPlace_value zero]
      congr 2
      ring
    have count : 1 ≤ tangent.digitCount := Digits.count_pos _
    have upper := moderate.upper
    have bounded : scale.toInt ≤ 4 * 10 ^ 6 := by
      omega
    obtain ⟨angle, reached, isAngle⟩ :=
      exists_atanAtScale_near working (by omega) bounded moderate zero
    have some : Real.arctan tangent.value ≠ 0 := by
      rw [Ne, Real.arctan_eq_zero_iff]
      exact_mod_cast zero
    obtain ⟨near, -⟩ := (isAngle.isTotal zero places bounded).rounded least (by omega) some
      (abs_arctan_le tangent.value) (by decide)
    have unit := zpow_one_sub_le_one least
    refine ⟨angle.roundToPrecision precision, ?_, .of_near least near,
      iff_of_false (ne_zero_of_near some near (by linarith)) zero⟩
    rw [atan, found]
    change atanAtScale tangent scale >>= _ = _
    rw [reached]
    rfl

theorem atan_approximates_tiny :
    ∃ result, atan ⟨1, 1000000⟩ 1 = .ok result ∧
      ApproximatesTo (1 : Precision).toNat (Real.arctan (⟨1, 1000000⟩ : Decimal).value) result ∧
      (result.value = 0 ↔ (⟨1, 1000000⟩ : Decimal).value = 0) :=
  atan_approximates ⟨1, 1000000⟩ 1 (by decide) (by decide) ⟨by decide, by decide, by decide⟩

end Elementary
end DecimalCalculator
