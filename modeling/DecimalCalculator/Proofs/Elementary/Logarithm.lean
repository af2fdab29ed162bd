/-
The error of the natural logarithm.

The parts of an argument are a factor close to one, a power of two and a power of ten, and each
of their logarithms is summed at the scale of the series.  Close to one this scale grows with
the zeros in front of the distance from one, so that the error is small beside the logarithm
even if its parts cancel each other.
-/

import Mathlib
import DecimalCalculator.Proofs.Elementary.Approximation
import DecimalCalculator.Proofs.Elementary.Exponential
import DecimalCalculator.Proofs.Elementary.InverseSine
import DecimalCalculator.Proofs.Elementary.ScaledLogarithm

namespace DecimalCalculator

open Decimal

namespace Elementary

variable {argument factor : Decimal} {precision : Precision} {scale : Int64}

/-! ### The parts of an argument -/

theorem IsModerate.isShort (moderate : IsModerate argument) : argument.IsShort :=
  moderate.digits.trans (by decide)

theorem toInt_leadingExponent_eq_firstPlace (moderate : IsModerate argument)
    (nonzero : argument.value ≠ 0) :
    argument.leadingExponent.toInt = firstPlace argument.value := by
  obtain ⟨digits, lower, upper⟩ := moderate
  have places := firstPlace_value nonzero
  rw [leadingExponent_eq_ofInt nonzero]
  exact Int64.toInt_ofInt_of_le (by omega) (by omega)

theorem value_mantissa_eq (few : argument.digitCount < 2 ^ 61) (nonzero : argument.value ≠ 0) :
    (mantissa argument).value * 10 ^ firstPlace argument.value = argument.value := by
  rw [firstPlace_value nonzero, value, value, scale_mantissa few]
  change (argument.unscaled : ℚ) / _ * _ = _
  rw [zpow_sub₀ (by norm_num) (argument.digitCount - 1 : Int)]
  field_simp

theorem one_le_mantissa (few : argument.digitCount < 2 ^ 61) (positive : 0 < argument.value) :
    1 ≤ (mantissa argument).value := by
  have place : (0 : ℚ) < 10 ^ firstPlace argument.value := zpow_pos (by norm_num) _
  have first := zpow_firstPlace_le positive.ne'
  rw [abs_of_pos positive] at first
  refine le_of_mul_le_mul_right ?_ place
  rwa [one_mul, value_mantissa_eq few positive.ne']

/-- An argument as a factor close to one, a power of two and a power of ten. -/
structure HasParts (argument : ℚ) (factor : Decimal) (halvings : Nat) (decade : Int) : Prop where
  product : factor.value * 2 ^ halvings * 10 ^ decade = argument
  lower : 3 / 4 ≤ factor.value
  upper : factor.value ≤ 3 / 2
  few : halvings ≤ 3
  fractional : 0 ≤ factor.scale.toInt
  narrow : factor.scale.toInt < 2 ^ 62

theorem hasParts (few : argument.digitCount < 2 ^ 61) (positive : 0 < argument.value) :
    HasParts argument.value (Series.halveTo nearOneLimit (mantissa argument)).1
      (Series.halveTo nearOneLimit (mantissa argument)).2 (firstPlace argument.value) := by
  have halvings := halvings_mantissa_le few positive
  obtain ⟨fractional, narrow⟩ := scale_halved_mantissa few positive
  have least := one_le_mantissa few positive
  obtain ⟨product, within, above⟩ := isHalved_mantissa few positive
  rw [value_nearOneLimit] at within above
  generalize Series.halveTo nearOneLimit (mantissa argument) = halved at *
  have lower : 3 / 4 ≤ halved.1.value := by
    rcases above with none | some
    · rw [none, pow_zero, mul_one] at product
      linarith
    · linarith
  refine ⟨?_, lower, within, halvings, fractional, narrow⟩
  rw [product, value_mantissa_eq few positive.ne']

namespace HasParts

variable {number : ℚ} {halvings : Nat} {decade : Int}

theorem value_sub_one (parts : HasParts number factor halvings decade) :
    (factor - 1).value = factor.value - 1 := by
  have common := toInt_commonScale factor 1
  have one : (1 : Decimal).scale.toInt = 0 := rfl
  have lower := parts.fractional
  have upper := parts.narrow
  rw [value_sub ⟨Or.inr (by omega), Or.inr (by omega)⟩, value_one]

theorem value_add_one (parts : HasParts number factor halvings decade) :
    (factor + 1).value = factor.value + 1 := by
  have common := toInt_commonScale factor 1
  have one : (1 : Decimal).scale.toInt = 0 := rfl
  have lower := parts.fractional
  have upper := parts.narrow
  rw [value_add ⟨Or.inr (by omega), Or.inr (by omega)⟩, value_one]

theorem abs_ratio_le (parts : HasParts number factor halvings decade) :
    |(factor.value - 1) / (factor.value + 1)| ≤ 1 / 5 := by
  have lower := parts.lower
  have upper := parts.upper
  have positive : 0 < factor.value + 1 := by linarith
  rw [abs_div, abs_of_pos positive, div_le_iff₀ positive, abs_le]
  constructor
  · linarith
  · linarith

theorem exists_ratio (parts : HasParts number factor halvings decade)
    (fractional : IsFractionalScale scale) :
    ∃ ratio sum, (factor - 1).divideAtScale (factor + 1) scale .halfEven = .ok ratio ∧
      Series.oddPowers .positive ratio scale = .ok sum ∧
      IsLogarithm scale factor.value (4 * scale.toInt + 6) (2 * sum) := by
  have lower := parts.lower
  have small := parts.abs_ratio_le
  have unit := fractional.lastUnit_le
  have nonzero : (factor + 1).value ≠ 0 := by
    rw [parts.value_add_one]
    linarith
  have sum : IsWord (scale.toInt + (factor + 1).scale.toInt) := by
    have room : largestExponent < 2 ^ 32 := by decide
    have common : (factor + 1).scale.toInt = max factor.scale.toInt 0 := toInt_commonScale factor 1
    have written := fractional.written
    have positive := fractional.positive
    have narrow := parts.narrow
    exact ⟨by omega, by omega⟩
  have near : |quotientExponent (factor - 1) (factor + 1) scale| ≤ largestExponent := by
    obtain ⟨positive, written⟩ := fractional
    change |scale.toInt + (factor.commonScale 1).toInt - (factor.commonScale 1).toInt| ≤ _
    rw [add_sub_cancel_right, abs_le]
    omega
  have divided := divideAtScale_eq_ok .halfEven nonzero sum near
  have rounded := abs_sub_round_mul_le ((factor - 1).value / (factor + 1).value) scale
  generalize known : Decimal.mk (RoundingMode.halfEven.round _) scale = ratio at divided rounded
  rw [parts.value_sub_one, parts.value_add_one] at rounded
  have small' : |ratio.value| ≤ 1 / 3 := by
    have triangle := abs_sub_abs_le_abs_sub ratio.value
      ((factor.value - 1) / (factor.value + 1))
    rw [abs_sub_comm] at triangle
    linarith
  obtain ⟨sum, reached, logarithm⟩ := exists_isLogarithm_oddPowers factor.value fractional
    (by linarith : 0 < factor.value) (small.trans (by norm_num)) small' (known ▸ rfl) rounded
  exact ⟨ratio, sum, divided, reached, logarithm⟩

end HasParts

theorem IsLogarithm.mono {number units units' : ℚ} {result : Decimal}
    (given : IsLogarithm scale number units result) (more : units ≤ units') :
    IsLogarithm scale number units' result := by
  refine ⟨given.positive, given.written, given.near.trans ?_⟩
  have unit : (0 : ℝ) ≤ lastUnit scale := by exact_mod_cast (lastUnit_pos scale).le
  exact mul_le_mul_of_nonneg_right (Rat.cast_le.mpr more) unit

theorem lnOfParts_eq_ok {halvings : Nat} {decade : Int64} {ratio sum two ten : Decimal}
    (divided : (factor - 1).divideAtScale (factor + 1) scale .halfEven = .ok ratio)
    (summed : Series.oddPowers .positive ratio scale = .ok sum) (foundTwo : lnOfTwo scale = .ok two)
    (foundTen : lnOfTen scale = .ok ten) (precision : Precision) :
    let doubled := if halvings ≠ 0 then 2 * sum + ofInt halvings * two else 2 * sum
    let total := if decade ≠ 0 then doubled + ofInt decade.toInt * ten else doubled
    lnOfParts factor halvings decade scale precision = .ok (total.roundToPrecision precision) := by
  intro doubled total
  rw [lnOfParts, divided]
  change Series.oddPowers .positive ratio scale >>= _ = _
  rw [summed, foundTwo, foundTen]
  simp only [total, doubled]
  rcases eq_or_ne halvings 0 with first | first
  · rcases eq_or_ne decade 0 with second | second
    · simp only [first, second, ne_eq, not_true_eq_false, ↓reduceIte]
      rfl
    · simp only [first, second, ne_eq, not_true_eq_false, not_false_eq_true, ↓reduceIte]
      rfl
  · rcases eq_or_ne decade 0 with second | second
    · simp only [first, second, ne_eq, not_true_eq_false, not_false_eq_true, ↓reduceIte]
      rfl
    · simp only [first, second, ne_eq, not_false_eq_true, ↓reduceIte]
      rfl

theorem exists_lnOfParts {number : ℚ} {halvings : Nat} {decade : Int64}
    (fractional : IsFractionalScale scale)
    (parts : HasParts number factor halvings decade.toInt) (precision : Precision) :
    ∃ total, lnOfParts factor halvings decade scale precision =
        .ok (total.roundToPrecision precision) ∧
      IsLogarithm scale number (4 * (1 + |decade.toInt|) * (4 * scale.toInt + 6)) total := by
  obtain ⟨ratio, sum, divided, summed, near⟩ := parts.exists_ratio fractional
  obtain ⟨two, foundTwo, nearTwo⟩ := exists_lnOfTwo fractional
  obtain ⟨ten, foundTen, nearTen⟩ := exists_lnOfTen fractional
  refine ⟨_, lnOfParts_eq_ok divided summed foundTwo foundTen precision, ?_⟩
  have doubled := near.add_power (halvings ≠ 0) halvings nearTwo fun none => by
    rw [not_not.mp none, Nat.cast_zero]
  have total := doubled.add_power (decade ≠ 0) decade.toInt nearTen fun none => by
    rw [not_not.mp none, Int64.toInt_zero]
  rw [zpow_natCast, parts.product] at total
  refine total.mono ?_
  have few : (halvings : ℚ) ≤ 3 := by exact_mod_cast parts.few
  have size : (0 : ℚ) ≤ 4 * scale.toInt + 6 := by
    have positive : (1 : ℚ) ≤ scale.toInt := by exact_mod_cast fractional.positive
    linarith
  rw [Nat.abs_cast, Int.cast_natCast]
  push_cast
  nlinarith

/-! ### The size of a logarithm -/

section Size

theorem two_lt_log_ten : 2 < Real.log 10 := by
  have eight : Real.log 8 = 3 * Real.log 2 := by
    rw [show (8 : ℝ) = 2 ^ 3 by norm_num, Real.log_pow]
    norm_num
  have order : Real.log 8 ≤ Real.log 10 := Real.log_le_log (by norm_num) (by norm_num)
  have two := Real.log_two_gt_d9
  linarith

variable {number : ℚ} (positive : 0 < number)

include positive

theorem log_between : firstPlace number * Real.log 10 ≤ Real.log number ∧
    Real.log number ≤ (firstPlace number + 1) * Real.log 10 := by
  have least := (Rat.cast_le (K := ℝ)).mpr (zpow_firstPlace_le positive.ne')
  have most := (Rat.cast_le (K := ℝ)).mpr (lt_zpow_firstPlace number).le
  rw [abs_of_pos positive] at least most
  push_cast at least most
  have real : (0 : ℝ) < number := Rat.cast_pos.mpr positive
  constructor
  · have order := Real.log_le_log (zpow_pos (by norm_num) _) least
    rwa [Real.log_zpow] at order
  · have order := Real.log_le_log real most
    rw [Real.log_zpow] at order
    exact_mod_cast order

theorem abs_sub_one_le (small : number ≤ 10) : |(number : ℝ) - 1| ≤ 10 * |Real.log number| := by
  have real : (0 : ℝ) < number := Rat.cast_pos.mpr positive
  have ten : (number : ℝ) ≤ 10 := by exact_mod_cast small
  rcases le_total (1 : ℝ) number with above | below
  · have tangent := Real.one_sub_inv_le_log_of_pos real
    have quotient : ((number : ℝ) - 1) / 10 ≤ 1 - (number : ℝ)⁻¹ := by
      rw [div_le_iff₀ (by norm_num)]
      have inverse : (number : ℝ) * (number : ℝ)⁻¹ = 1 := mul_inv_cancel₀ real.ne'
      nlinarith [inv_pos.mpr real]
    rw [abs_of_nonneg (by linarith), abs_of_nonneg (Real.log_nonneg above)]
    linarith
  · have tangent := Real.log_le_sub_one_of_pos real
    rw [abs_of_nonpos (by linarith), abs_of_nonpos (Real.log_nonpos real.le below)]
    linarith

/-- Scaled by the zeros in front of the distance from one, no logarithm is small beside the
power of ten of its argument. -/
theorem decade_mul_le_abs_log (other : number ≠ 1) :
    (1 + |(firstPlace number : ℝ)|) * 10 ^ (-max (-firstPlace (number - 1)) 0) ≤
      20 * |Real.log number| := by
  have ten := two_lt_log_ten
  obtain ⟨lower, upper⟩ := log_between positive
  have zeros : (0 : Int) ≤ max (-firstPlace (number - 1)) 0 := le_max_right _ _
  have small : (10 : ℝ) ^ (-max (-firstPlace (number - 1)) 0) ≤ 1 :=
    zpow_le_one_of_nonpos₀ (by norm_num) (by omega)
  have power : (0 : ℝ) < 10 ^ (-max (-firstPlace (number - 1)) 0) := zpow_pos (by norm_num) _
  rcases (by omega : 1 ≤ firstPlace number ∨ -1 ≤ firstPlace number ∧ firstPlace number ≤ 0 ∨
    firstPlace number ≤ -2) with large | near | tiny
  · have size : (1 : ℝ) ≤ firstPlace number := by exact_mod_cast large
    have logarithm : 2 * (firstPlace number : ℝ) ≤ Real.log number := by nlinarith
    rw [abs_of_nonneg (by linarith), abs_of_nonneg (by linarith)]
    nlinarith
  · have distance : (10 : ℝ) ^ (-max (-firstPlace (number - 1)) 0) ≤ |(number : ℝ) - 1| := by
      have least := (Rat.cast_le (K := ℝ)).mpr (zpow_firstPlace_le (sub_ne_zero.mpr other))
      push_cast at least
      refine le_trans (zpow_le_zpow_right₀ (by norm_num) ?_) least
      omega
    have atMost : number ≤ 10 := by
      have below := lt_zpow_firstPlace number
      rw [abs_of_pos positive] at below
      refine below.le.trans ((zpow_le_zpow_right₀ (by norm_num) (by omega)).trans_eq (zpow_one 10))
    have close := abs_sub_one_le positive atMost
    have decade : |(firstPlace number : ℝ)| ≤ 1 := by
      rw [← Int.cast_abs]
      exact_mod_cast (abs_le.mpr ⟨by omega, by omega⟩ : |firstPlace number| ≤ 1)
    nlinarith
  · have size : (firstPlace number : ℝ) ≤ -2 := by exact_mod_cast tiny
    have logarithm : Real.log number ≤ 2 * ((firstPlace number : ℝ) + 1) := by nlinarith
    rw [abs_of_nonpos (by linarith), abs_of_nonpos (by linarith)]
    nlinarith

end Size
/-! ### The scale of a logarithm -/

section Scale

variable (moderate : IsModerate argument) (few : precision.toNat ≤ 10 ^ 6 + 10)
  (positive : 0 < argument.value) (other : argument.value ≠ 1)

include moderate

theorem IsModerate.aligned_one : Aligned argument 1 := by
  have common := toInt_commonScale argument 1
  have one : (1 : Decimal).scale.toInt = 0 := rfl
  have lower := moderate.lower
  have upper := moderate.upper
  exact ⟨Or.inr (by omega), Or.inr (by omega)⟩

theorem value_distance : (argument - 1).abs.value = |argument.value - 1| := by
  rw [value_abs, value_sub moderate.aligned_one, value_one]

include positive other

theorem firstPlace_distance :
    -10 ^ 6 ≤ firstPlace (argument.value - 1) ∧ firstPlace (argument.value - 1) ≤ 2 * 10 ^ 6 := by
  obtain ⟨digits, lower, upper⟩ := id moderate
  have distance := value_distance moderate
  have nonzero := sub_ne_zero.mpr other
  have same : firstPlace (argument - 1).abs.value = firstPlace (argument.value - 1) := by
    rw [distance, firstPlace, abs_abs, firstPlace]
  constructor
  · have some : (argument - 1).abs.value ≠ 0 := by
      rw [distance]
      exact abs_ne_zero.mpr nonzero
    have count : 1 ≤ (argument - 1).abs.digitCount := Digits.count_pos _
    have scale : (argument - 1).abs.scale.toInt = max argument.scale.toInt 0 :=
      toInt_commonScale argument 1
    have place := firstPlace_value some
    rw [same] at place
    omega
  · refine firstPlace_le_of_abs_le nonzero ?_
    have first := firstPlace_value positive.ne'
    have below := (lt_zpow_firstPlace argument.value).le
    rw [abs_of_pos positive] at below
    have wide : argument.value ≤ 10 ^ (2 * 10 ^ 6 : Int) :=
      below.trans (zpow_le_zpow_right₀ (by norm_num) (by omega))
    have one : (1 : ℚ) ≤ 10 ^ (2 * 10 ^ 6 : Int) := one_le_zpow₀ (by norm_num) (by norm_num)
    rw [abs_le]
    constructor
    · linarith
    · linarith

include few

theorem exists_scaleNear_distance :
    ∃ scale, precision.scaleNear (argument - 1).abs = .ok scale ∧
      scale.toInt = precision.toNat + 10 + max (-firstPlace (argument.value - 1)) 0 := by
  obtain ⟨lower, upper⟩ := firstPlace_distance moderate positive other
  have distance := value_distance moderate
  have some : (argument - 1).abs.value ≠ 0 := by
    rw [distance]
    exact abs_ne_zero.mpr (sub_ne_zero.mpr other)
  have same : firstPlace (argument - 1).abs.value = firstPlace (argument.value - 1) := by
    rw [distance, firstPlace, abs_abs, firstPlace]
  have guards : precision.Guards := Precision.guards_of_lt (by omega)
  obtain ⟨scale, found, places⟩ := exists_scaleNear_of_firstPlace guards some
    (by rw [same, abs_le]; omega)
  exact ⟨scale, found, same ▸ places⟩

end Scale

/-! ### The error of a logarithm -/

/-- A result that is the logarithm of a number to so many digits. -/
structure IsLogarithmTo (digits : Nat) (number : ℚ) (result : Decimal) : Prop where
  near : |Real.log number - result.value| ≤ 3 / 5 * 10 ^ (1 - digits : Int) * |Real.log number|
  wide : IsWide result

theorem log_ne_zero {number : ℚ} (positive : 0 < number) (other : number ≠ 1) :
    Real.log number ≠ 0 := by
  refine Real.log_ne_zero_of_pos_of_ne_one (Rat.cast_pos.mpr positive) ?_
  exact_mod_cast other

theorem units_mul_lastUnit_le {number : ℚ} {digits : Nat} (positive : 0 < number)
    (other : number ≠ 1)
    (places : scale.toInt = digits + 10 + max (-firstPlace (number - 1)) 0)
    (few : scale.toInt ≤ 10 ^ 7) :
    ((4 * (1 + |firstPlace number|) * (4 * scale.toInt + 6) : ℚ) : ℝ) * (lastUnit scale : ℝ) ≤
      1 / 20 * 10 ^ (1 - digits : Int) * |Real.log number| := by
  have size := decade_mul_le_abs_log positive other
  have steps : (4 * scale.toInt + 6 : ℝ) ≤ 5 * 10 ^ 7 := by
    have most : (scale.toInt : ℝ) ≤ 10 ^ 7 := by exact_mod_cast few
    linarith
  have front : (0 : ℝ) < 10 ^ (1 - digits : Int) := zpow_pos (by norm_num) _
  have factor : (0 : ℝ) ≤ (1 + |(firstPlace number : ℝ)|) *
      10 ^ (-max (-firstPlace (number - 1)) 0) := by positivity
  push_cast
  rw [cast_lastUnit_eq places]
  calc
    4 * (1 + |(firstPlace number : ℝ)|) * (4 * scale.toInt + 6) *
          (10 ^ (1 - digits : Int) * 10 ^ (-11 : Int) * 10 ^ (-max (-firstPlace (number - 1)) 0)) =
        4 * 10 ^ (-11 : Int) * 10 ^ (1 - digits : Int) * (4 * scale.toInt + 6) *
          ((1 + |(firstPlace number : ℝ)|) * 10 ^ (-max (-firstPlace (number - 1)) 0)) := by
      ring
    _ ≤ 4 * 10 ^ (-11 : Int) * 10 ^ (1 - digits : Int) * (5 * 10 ^ 7) *
          (20 * |Real.log number|) := by
      gcongr
    _ ≤ 1 / 20 * 10 ^ (1 - digits : Int) * |Real.log number| := by
      have nonneg : 0 ≤ (10 : ℝ) ^ (1 - digits : Int) * |Real.log number| := by positivity
      norm_num
      linarith

theorem exists_ln_total (moderate : IsModerate argument) (few : precision.toNat ≤ 10 ^ 6 + 10)
    (positive : 0 < argument.value) (other : argument.value ≠ 1) :
    ∃ total : Decimal, ln argument precision = .ok (total.roundToPrecision precision) ∧
      IsTotal precision.toNat (Real.log argument.value) total := by
  obtain ⟨scale, found, places⟩ := exists_scaleNear_distance moderate few positive other
  have short := moderate.isShort.digitCount_lt
  have word : IsWord (argument.digitCount - 1 - argument.scale.toInt) := by
    obtain ⟨digits, lower, upper⟩ := moderate
    exact ⟨by omega, by omega⟩
  have parts := hasParts moderate.isShort.digitCount_lt positive
  rw [← toInt_leadingExponent_eq_firstPlace moderate positive.ne'] at parts
  obtain ⟨lower, upper⟩ := firstPlace_distance moderate positive other
  rw [ln_eq_lnOfParts positive other fun _ => moderate.aligned_one, requireWords_bind_of word, found]
  change ∃ total, (requireWords (Series.Halves nearOneLimit (mantissa argument)) >>= fun _ =>
    lnOfParts _ _ _ scale precision) = _ ∧ _
  rw [requireWords_bind_of (halves_mantissa short)]
  have fractional : IsFractionalScale scale := isFractionalScale_of_le (by omega) (by omega)
  obtain ⟨total, reached, logarithm⟩ := exists_lnOfParts fractional parts precision
  refine ⟨total, reached, ?_, ?_, logarithm.near.trans ?_⟩
  · rw [logarithm.written]
    omega
  · rw [logarithm.written]
    omega
  · rw [toInt_leadingExponent_eq_firstPlace moderate positive.ne']
    exact units_mul_lastUnit_le positive other places (by omega)

theorem abs_log_le (moderate : IsModerate argument) (positive : 0 < argument.value) :
    |Real.log argument.value| ≤ 4 * 10 ^ 7 := by
  obtain ⟨digits, lower, upper⟩ := moderate
  have first := firstPlace_value positive.ne'
  have count : 1 ≤ argument.digitCount := Digits.count_pos _
  obtain ⟨least, most⟩ := log_between positive
  have above : Real.log 10 ≤ 9 := by
    have tangent := Real.log_le_sub_one_of_pos (show (0 : ℝ) < 10 by norm_num)
    linarith
  have below := two_lt_log_ten
  have size : (firstPlace argument.value : ℝ) ≤ 2 * 10 ^ 6 := by
    exact_mod_cast (by omega : firstPlace argument.value ≤ 2 * 10 ^ 6)
  have size' : (-(2 * 10 ^ 6) : ℝ) ≤ firstPlace argument.value := by
    exact_mod_cast (by omega : -(2 * 10 ^ 6) ≤ firstPlace argument.value)
  rw [abs_le]
  constructor
  · nlinarith
  · nlinarith

/-- The logarithm of a moderate number is right to the digits of the precision. -/
theorem exists_ln (precision : Precision) (moderate : IsModerate argument) (least : 1 ≤ precision.toNat)
    (few : precision.toNat ≤ 10 ^ 6 + 10) (positive : 0 < argument.value)
    (other : argument.value ≠ 1) :
    ∃ result, ln argument precision = .ok result ∧
      IsLogarithmTo precision.toNat argument.value result := by
  obtain ⟨total, reached, summed⟩ := exists_ln_total moderate few positive other
  have most : |Real.log argument.value| ≤ 10 ^ (8 : Int) / 2 := by
    have size := abs_log_le moderate positive
    norm_num
    linarith
  obtain ⟨near, wide⟩ := summed.rounded least (by omega) (log_ne_zero positive other) most (by decide)
  exact ⟨_, reached, near, wide⟩

theorem ln_of_value_one (moderate : IsModerate argument) (one : argument.value = 1) :
    ln argument precision = .ok 0 := by
  exact ln_of_one one fun _ => moderate.aligned_one

/-- The natural logarithm of a positive number is right to the digits of the precision, however
close to one the number is, and it is zero for one alone.  Other numbers are refused. -/
theorem ln_approximates (argument : Decimal) (precision : Precision) :
    (1 ≤ precision.toNat → precision.toNat ≤ 10 ^ 6 → IsModerate argument → 0 < argument.value →
      ∃ result, ln argument precision = .ok result ∧
        ApproximatesTo precision.toNat (Real.log argument.value) result ∧
        (result.value = 0 ↔ argument.value = 1)) ∧
    (argument.Reaches 0 → argument.value ≤ 0 →
      ln argument precision = .error (.logarithmOfNonpositive argument)) := by
  constructor
  · intro least few moderate positive
    by_cases one : argument.value = 1
    · have nothing : (0 : Decimal).value = 0 := value_eq_zero_iff.mpr rfl
      refine ⟨0, ln_of_value_one moderate one, .of_zero nothing ?_, iff_of_true nothing one⟩
      rw [one, Rat.cast_one, Real.log_one]
    · obtain ⟨result, reached, logarithm⟩ :=
        exists_ln precision moderate least (by omega) positive one
      have unit := zpow_one_sub_le_one least
      have some := ne_zero_of_near (log_ne_zero positive one) logarithm.near (by linarith)
      exact ⟨result, reached, .of_near least logarithm.near, iff_of_false some one⟩
  · intro reaches nonpos
    rw [ln_of_nonpos nonpos, Checked.refuse_of_reaches _ reaches]

theorem ln_approximates_nines :
    (∃ result, ln (nines 30) 20 = .ok result ∧
      ApproximatesTo 20 (Real.log (nines 30).value) result ∧
      (result.value = 0 ↔ (nines 30).value = 1)) ∧
    ln ⟨-1, 0⟩ 20 = .error (.logarithmOfNonpositive ⟨-1, 0⟩) := by
  refine ⟨(ln_approximates (nines 30) 20).1 (by decide) (by decide)
    ⟨by decide, by decide, by decide⟩ ?_, (ln_approximates ⟨-1, 0⟩ 20).2 (by decide) ?_⟩
  · rw [value_nines (by decide)]
    norm_num
  · exact not_lt.mp (mt value_pos_iff.mp (by decide))

end Elementary
end DecimalCalculator
