/-
Logarithms of exact powers.

Both logarithms of a quotient carry ten digits more than the result, so that the quotient for
an exact power is so close to the exponent that the first of its two roundings finds it.  An
integer with no more digits than the precision is kept by the second one.
-/

import Mathlib
import DecimalCalculator.Proofs.Elementary.Logarithm

namespace DecimalCalculator

open Decimal

/-! ### Values close to an integer -/

namespace Decimal

variable {value : ℚ} {integer place : Int} {digits : Nat}

theorem roundedToDigits_intCast (nonzero : integer ≠ 0) (few : |integer| < 10 ^ digits) :
    roundedToDigits digits integer = integer := by
  have exact : (integer : ℚ) = integer * 10 ^ (0 : Int) := by rw [zpow_zero, mul_one]
  exact roundedAt_eq_self exact
    (lastPlace_le_of_hasDigits few (Int.cast_ne_zero.mpr nonzero) exact)

theorem roundedToDigits_roundedAt_of_near (nonzero : integer ≠ 0) (few : |integer| < 10 ^ digits)
    (near : |value - integer| ≤ 2 * 10 ^ (-9 - digits : Int) * |(integer : ℚ)|)
    (lower : firstPlace value - 2 - digits ≤ place) (upper : place ≤ firstPlace value - 1 - digits) :
    roundedToDigits digits (roundedAt place value) = integer := by
  have ten : (10 : ℚ) ≠ 0 := by norm_num
  have whole : 0 < |(integer : ℚ)| := abs_pos.mpr (Int.cast_ne_zero.mpr nonzero)
  have small : (10 : ℚ) ^ (-9 - digits : Int) ≤ 10 ^ (-9 : Int) :=
    zpow_le_zpow_right₀ (by norm_num) (by omega)
  have triangle := abs_sub_abs_le_abs_sub value integer
  have triangle' := abs_sub_abs_le_abs_sub (integer : ℚ) value
  rw [abs_sub_comm] at triangle'
  have tenth : |value - integer| ≤ |(integer : ℚ)| / 10 := by
    norm_num at small
    nlinarith
  have some : value ≠ 0 := abs_pos.mp (by linarith)
  have behind : place ≤ 0 := by
    have size : |value| ≤ 10 ^ (digits + 1 : Int) := by
      have limit : |(integer : ℚ)| ≤ 10 ^ digits := by exact_mod_cast few.le
      rw [zpow_add₀ ten, zpow_natCast, zpow_one]
      linarith
    have first := firstPlace_le_of_abs_le some size
    omega
  rw [roundedAt_of_near behind (near.trans_lt ?_), roundedToDigits_intCast nonzero few]
  have finer : (10 : ℚ) ^ (firstPlace value - 2 - digits) ≤ 10 ^ place :=
    zpow_le_zpow_right₀ (by norm_num) lower
  have guard : (10 : ℚ) ^ (-9 - digits : Int) * 10 ^ (firstPlace value + 1) * 10 ^ 6 =
      10 ^ (firstPlace value - 2 - digits) := by
    rw [← zpow_natCast, ← zpow_add₀ ten, ← zpow_add₀ ten]
    congr 1
    push_cast
    ring
  have most := lt_zpow_firstPlace value
  have unit : (0 : ℚ) < 10 ^ (-9 - digits : Int) := zpow_pos (by norm_num) _
  have scaled : 2 * 10 ^ (-9 - digits : Int) * |(integer : ℚ)| ≤
      2 * 10 ^ (-9 - digits : Int) * (2 * 10 ^ (firstPlace value + 1)) := by
    gcongr
    linarith
  have positive : (0 : ℚ) < 10 ^ (-9 - digits : Int) * 10 ^ (firstPlace value + 1) := by positivity
  linarith

end Decimal

namespace Elementary

variable {argument base : Decimal} {precision : Precision} {exponent : Int}

/-! ### Quotients of logarithms -/

theorem IsLogarithmTo.value_ne_zero {digits : Nat} {number : ℚ} {result : Decimal}
    (logarithm : IsLogarithmTo digits number result) (least : 1 ≤ digits) (positive : 0 < number)
    (other : number ≠ 1) : result.value ≠ 0 := by
  have unit : (10 : ℝ) ^ (1 - digits : Int) ≤ 1 := zpow_le_one_of_nonpos₀ (by norm_num) (by omega)
  exact ne_zero_of_near (log_ne_zero positive other) logarithm.near (by linarith)

theorem abs_div_sub_le {digits : Nat} {number : ℚ} {dividend divisor : Decimal}
    (positive : 0 < number) (other : number ≠ 1)
    (first : IsLogarithmTo (digits + 10) (number ^ exponent) dividend)
    (second : IsLogarithmTo (digits + 10) number divisor) :
    |dividend.value / divisor.value - exponent| ≤
      2 * 10 ^ (-9 - digits : Int) * |(exponent : ℚ)| := by
  have size := abs_pos.mpr (log_ne_zero positive other)
  have nearDividend := first.near
  have nearDivisor := second.near
  have error : (1 - (digits + 10 : Nat) : Int) = -9 - digits := by
    push_cast
    ring
  have logarithm : Real.log (number ^ exponent : ℚ) = exponent * Real.log number := by
    rw [Rat.cast_zpow, Real.log_zpow]
  rw [logarithm, abs_mul, error, abs_sub_comm] at nearDividend
  rw [error] at nearDivisor
  have unit : (0 : ℝ) < 10 ^ (-9 - digits : Int) := zpow_pos (by norm_num) _
  have small : (10 : ℝ) ^ (-9 - digits : Int) ≤ 10 ^ (-1 : Int) :=
    zpow_le_zpow_right₀ (by norm_num) (by omega)
  rw [zpow_neg_one] at small
  have away : 9 / 10 * |Real.log number| ≤ |(divisor.value : ℝ)| := by
    have triangle := abs_sub_abs_le_abs_sub (Real.log number) divisor.value
    nlinarith
  have some : 0 < |(divisor.value : ℝ)| := by linarith
  have multiple : |(dividend.value : ℝ) - exponent * divisor.value| ≤
      6 / 5 * 10 ^ (-9 - digits : Int) * (|(exponent : ℝ)| * |Real.log number|) := by
    have triangle := abs_sub_le (dividend.value : ℝ) (exponent * Real.log number)
      (exponent * divisor.value)
    rw [← mul_sub, abs_mul] at triangle
    have scaled := mul_le_mul_of_nonneg_left nearDivisor (abs_nonneg (exponent : ℝ))
    linarith
  rw [← Rat.cast_le (K := ℝ)]
  push_cast
  have quotient : (dividend.value : ℝ) / divisor.value - exponent =
      (dividend.value - exponent * divisor.value) / divisor.value := by
    rw [sub_div, mul_div_cancel_right₀ _ (abs_pos.mp some)]
  rw [quotient, abs_div, div_le_iff₀ some]
  refine multiple.trans ?_
  have front : 0 ≤ 10 ^ (-9 - digits : Int) * |(exponent : ℝ)| :=
    mul_nonneg unit.le (abs_nonneg _)
  nlinarith

theorem exists_divideToPrecision_of_logarithms {number : ℚ} {dividend divisor : Decimal}
    (least : 1 ≤ precision.toNat) (few : precision.toNat ≤ 10 ^ 6) (positive : 0 < number)
    (other : number ≠ 1) (nonzero : exponent ≠ 0) (digits : |exponent| < 10 ^ precision.toNat)
    (first : IsLogarithmTo (precision.toNat + 10) (number ^ exponent) dividend)
    (second : IsLogarithmTo (precision.toNat + 10) number divisor) :
    ∃ result, dividend.divideToPrecision divisor precision = .ok result ∧
      result.value = exponent := by
  have power : number ^ exponent ≠ 1 := by
    rw [Ne, zpow_eq_one_iff_right₀ positive.le other]
    exact nonzero
  have some := first.value_ne_zero (by omega) (zpow_pos positive exponent) power
  have some' := second.value_ne_zero (by omega) positive other
  have room : 10 ^ 8 ≤ largestExponent := by decide
  have count := first.wide.digits
  have count' := second.wide.digits
  obtain ⟨result, divided⟩ := exists_divideToPrecision some some' (first.wide.abs_firstPlace_le some)
    (second.wide.abs_firstPlace_le some')
    (show precision.toNat + 2 + dividend.digitCount + divisor.digitCount ≤ _ by omega)
  have places := firstPlace_div some some'
  refine ⟨result, divided, ?_⟩
  rw [value_of_divideToPrecision least some some' divided]
  refine roundedToDigits_roundedAt_of_near nonzero digits
    (abs_div_sub_le positive other first second) ?_ ?_
  · rw [firstRoundingPlace]
    omega
  · rw [firstRoundingPlace]
    omega

/-! ### Logarithms to a base -/

theorem exists_logToBase_of_pow (least : 1 ≤ precision.toNat) (few : precision.toNat ≤ 10 ^ 6)
    (moderate : IsModerate argument) (moderateBase : IsModerate base) (positive : 0 < base.value)
    (other : base.value ≠ 1) (digits : |exponent| < 10 ^ precision.toNat)
    (power : argument.value = base.value ^ exponent) :
    ∃ result, logToBase argument base precision = .ok result ∧ result.value = exponent := by
  have above : 0 < argument.value := by
    rw [power]
    exact zpow_pos positive exponent
  have wide : precision.guarded.toNat = precision.toNat + 10 := toNat_guarded (by omega)
  obtain ⟨divisor, foundBase, lnBase⟩ :=
    exists_ln precision.guarded moderateBase (by omega) (by omega) positive other
  rw [wide] at lnBase
  have guards : precision.Guards := Precision.guards_of_lt (by omega)
  rw [logToBase, if_neg (mt sign_le_zero_iff.mp (not_le.mpr above)), requireWords_bind_of guards]
  by_cases zero : exponent = 0
  · rw [zero, zpow_zero] at power
    have some := lnBase.value_ne_zero (by omega) positive other
    refine ⟨0, ?_, by rw [zero, Int.cast_zero]; exact value_eq_zero_iff.mpr rfl⟩
    rw [ln_of_value_one moderate power, foundBase]
    exact divideToPrecision_of_zero some (value_eq_zero_iff.mpr rfl)
  · have apart : argument.value ≠ 1 := by
      rw [power, Ne, zpow_eq_one_iff_right₀ positive.le other]
      exact zero
    obtain ⟨dividend, foundArgument, lnArgument⟩ :=
      exists_ln precision.guarded moderate (by omega) (by omega) above apart
    rw [wide, power] at lnArgument
    rw [foundArgument, foundBase]
    exact exists_divideToPrecision_of_logarithms least few positive other zero digits lnArgument lnBase

/-- The logarithm of an exact power to its base is the exponent, if this has no more digits than
the precision; so is the decimal logarithm of a power of ten. -/
theorem logToBase_of_pow (least : 1 ≤ precision.toNat) (few : precision.toNat ≤ 10 ^ 6)
    (moderate : IsModerate argument) (digits : |exponent| < 10 ^ precision.toNat) :
    (∀ base : Decimal, IsModerate base → 0 < base.value → base.value ≠ 1 →
      argument.value = base.value ^ exponent →
      ∃ result, logToBase argument base precision = .ok result ∧ result.value = exponent) ∧
    (argument.value = 10 ^ exponent →
      ∃ result, log10 argument precision = .ok result ∧ result.value = exponent) := by
  constructor
  · intro base moderateBase positive other power
    exact exists_logToBase_of_pow least few moderate moderateBase positive other digits power
  · intro power
    have ten : (10 : Decimal).value = 10 := by exact_mod_cast value_ofInt 10
    have moderateBase : IsModerate 10 := ⟨by decide, by decide, by decide⟩
    refine exists_logToBase_of_pow least few moderate moderateBase ?_ ?_ digits ?_
    · rw [ten]
      norm_num
    · rw [ten]
      norm_num
    · rw [ten, power]

theorem logToBase_of_pow_eighth :
    ∃ result, logToBase ⟨125, 3⟩ 2 20 = .ok result ∧ result.value = (-3 : Int) := by
  have two : (2 : Decimal).value = 2 := by exact_mod_cast value_ofInt 2
  have eighth : (⟨125, 3⟩ : Decimal).value = 1 / 8 := by
    change ((125 : Int) : ℚ) / 10 ^ (3 : Int) = _
    norm_num
  refine (logToBase_of_pow (by decide) (by decide) ⟨by decide, by decide, by decide⟩
    (by decide)).1 2 ⟨by decide, by decide, by decide⟩ ?_ ?_ ?_
  · rw [two]
    norm_num
  · rw [two]
    norm_num
  · rw [two, eighth]
    norm_num

end Elementary
end DecimalCalculator
