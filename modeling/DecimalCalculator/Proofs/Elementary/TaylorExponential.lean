/-
The error of the exponential function.

A positive argument is halved until it is at most one half, and the Taylor sum of what is left
is squared as often again.  A squaring at most triples the error of a number beside the number,
and the digits that are added for the halvings outweigh that.  The exponential of a negative
number is the reciprocal of one with ten more digits.
-/

import Mathlib
import DecimalCalculator.Proofs.Elementary.Approximation
import DecimalCalculator.Proofs.Elementary.ExponentialSize
import DecimalCalculator.Proofs.Elementary.Root

namespace DecimalCalculator
namespace Elementary

open Decimal Series

variable {argument number : Decimal} {scale : Int64} {precision : Precision} {value : ℚ}

/-! ### The Taylor sum -/

def expFactor (value : ℚ) (index : Nat) : ℚ :=
  value / (index + 1)

theorem factorTerm_expFactor (value : ℚ) (index : Nat) :
    factorTerm 1 (expFactor value) index = value ^ index / index.factorial := by
  induction index with
  | zero =>
      rw [factorTerm_zero, pow_zero, Nat.factorial_zero, Nat.cast_one, div_one]
  | succ index ih =>
      rw [factorTerm_succ, ih, expFactor, div_mul_div_comm, ← pow_succ, Nat.factorial_succ,
        mul_comm (index + 1), Nat.cast_mul, Nat.cast_succ]

theorem factorSum_expFactor (value : ℚ) (count : Nat) :
    factorSum 1 (expFactor value) count =
      ∑ index ∈ Finset.range count, value ^ index / index.factorial :=
  Finset.sum_congr rfl fun index _ => factorTerm_expFactor value index

theorem tendsto_factorSum_exp (value : ℚ) :
    Filter.Tendsto (fun count => (factorSum 1 (expFactor value) count : ℝ)) Filter.atTop
      (nhds (Real.exp value)) := by
  have sums := (NormedSpace.expSeries_div_hasSum_exp (value : ℝ)).tendsto_sum_nat
  rw [← Real.exp_eq_exp_ℝ] at sums
  refine sums.congr fun count => ?_
  rw [factorSum_expFactor]
  push_cast
  rfl

theorem abs_expFactor_le (small : |value| ≤ 3 / 5) {index : Nat} (late : 1 ≤ index) :
    |expFactor value index| ≤ 1 / 3 := by
  have size : (2 : ℚ) ≤ index + 1 := by exact_mod_cast Nat.succ_le_succ late
  rw [expFactor, abs_div, abs_of_pos (show (0 : ℚ) < index + 1 by linarith),
    div_le_iff₀ (by linarith)]
  linarith

theorem settles_expFactor (small : |value| ≤ 3 / 5) : Settles (expFactor value) := by
  have third := abs_expFactor_le small (le_refl 1)
  exact ⟨by linarith, fun index late => abs_expFactor_le small (by omega)⟩

/-- The term of the exponential series after the one with an index. -/
def nextPower (argument : Decimal) (scale : Int64) (index : Nat) (term : Decimal) :
    Outcome Decimal :=
  (term * argument).divideAtScale (ofInt (index + 1)) scale .halfEven

theorem expSeries_eq (argument : Decimal) (scale : Int64) :
    expSeries argument scale = sumFrom (nextPower argument scale) 1 :=
  rfl

section Taylor

variable (fractional : IsFractionalScale scale) (written : argument.scale = scale)
include fractional written

theorem exists_nextPower {term : Decimal} (isWithin : IsWithin scale term) (index : Nat) :
    ∃ following, nextPower argument scale index term = .ok following ∧ following.scale = scale ∧
      |term.value * expFactor argument.value index - following.value| ≤ lastUnit scale / 2 := by
  obtain ⟨following, divided, same, near⟩ :=
    isWithin.exists_divideAtScale_mul fractional written (show (index + 1 : Int) ≠ 0 by omega)
  refine ⟨following, divided, same, ?_⟩
  rw [expFactor, ← mul_div_assoc]
  push_cast at near
  exact near

variable (small : |argument.value| ≤ 3 / 5)
include small

theorem computes_expSeries :
    Computes scale 1 (expFactor argument.value) (nextPower argument scale) := by
  have unit := lastUnit_pos scale
  constructor
  · obtain ⟨following, reached, same, near⟩ :=
      exists_nextPower fractional written (isWithin_one fractional) 0
    exact ⟨following, reached, same, by linarith⟩
  · intro index term late isTerm
    obtain ⟨following, reached, same, near⟩ :=
      exists_nextPower fractional written (fractional.isWithin isTerm.written) index
    have third := abs_expFactor_le small late
    exact ⟨following, reached, ⟨same, by linarith⟩, .of_third isTerm.written same third near⟩

theorem exists_expSeries :
    ∃ sum, expSeries argument scale = .ok sum ∧
      SumsFrom (nextPower argument scale) (4 * scale.toInt.toNat + 7) 1 sum ∧
      IsWithin scale sum ∧
      |Real.exp argument.value - sum.value| ≤ (8 * scale.toInt + 14) * lastUnit scale := by
  obtain ⟨sum, ended, sums⟩ := exists_sumFrom fractional (isWithin_one fractional)
    (settles_expFactor small) (computes_expSeries fractional written small) (by
      rw [value_one, factorTerm_expFactor]
      norm_num
      linarith)
  rw [value_one] at sums
  refine ⟨sum, ?_, ended, sums.isWithin, sums.abs_limit_sub_le (tendsto_factorSum_exp _)⟩
  rw [expSeries_eq]
  exact ended.reached

end Taylor

/-! ### Squares of the sum -/

theorem abs_exp_sub_exp_le {first second : ℝ} (near : |first - second| ≤ 1) :
    |Real.exp first - Real.exp second| ≤ 2 * |first - second| * Real.exp first := by
  have positive := Real.exp_pos first
  have split : Real.exp first - Real.exp second =
      -(Real.exp (second - first) - 1) * Real.exp first := by
    rw [Real.exp_sub]
    field_simp
    ring
  have change := Real.abs_exp_sub_one_le (show |second - first| ≤ 1 by rwa [abs_sub_comm])
  rw [abs_sub_comm second] at change
  rw [split, abs_mul, abs_neg, abs_of_pos positive]
  exact mul_le_mul_of_nonneg_right change positive.le

theorem abs_sq_sub_setScale_le {exact error : ℝ} (fractional : IsFractionalScale scale)
    (isWithin : IsWithin scale number) (least : 1 ≤ exact) (unit : (lastUnit scale : ℝ) ≤ error)
    (small : error ≤ 1 / 3) (near : |exact - number.value| ≤ error * exact) :
    |exact ^ 2 - ((number * number).setScale scale .halfEven).value| ≤ 3 * error * exact ^ 2 := by
  have rounded := isWithin.abs_mul_sub_setScale_le fractional isWithin
  rw [← Rat.cast_le (K := ℝ)] at rounded
  push_cast at rounded
  have positive := cast_lastUnit_pos scale
  have product : |exact ^ 2 - number.value * number.value| ≤
      error * exact * ((2 + 1 / 3) * exact) := by
    have size : |exact + number.value| ≤ (2 + 1 / 3) * exact := by
      rw [abs_le] at near ⊢
      constructor
      · nlinarith
      · nlinarith
    have split : exact ^ 2 - number.value * number.value =
        (exact - number.value) * (exact + number.value) := by
      ring
    rw [split, abs_mul]
    exact mul_le_mul near size (abs_nonneg _) (by nlinarith)
  have triangle := abs_sub_le (exact ^ 2) (number.value * number.value : ℝ)
    ((number * number).setScale scale .halfEven).value
  have square : 1 ≤ exact ^ 2 := one_le_pow₀ least
  nlinarith

theorem squareRepeatedly_near {exact error : ℝ} {times : Nat} (fractional : IsFractionalScale scale)
    (isWithin : IsWithin scale number) (least : 1 ≤ exact) (unit : (lastUnit scale : ℝ) ≤ error)
    (small : 3 ^ times * error ≤ 1) (near : |exact - number.value| ≤ error * exact) :
    IsWithin scale (squareRepeatedly scale times number) ∧
      |exact ^ 2 ^ times - (squareRepeatedly scale times number).value| ≤
        3 ^ times * error * exact ^ 2 ^ times := by
  induction times generalizing number exact error with
  | zero =>
      rw [pow_zero, pow_zero, pow_one, one_mul]
      exact ⟨isWithin, near⟩
  | succ times ih =>
      have positive := cast_lastUnit_pos scale
      have power : (1 : ℝ) ≤ 3 ^ times := one_le_pow₀ (by norm_num)
      rw [pow_succ (3 : ℝ), mul_assoc] at small
      rw [pow_succ (3 : ℝ), mul_assoc (3 ^ times : ℝ), pow_succ' 2, pow_mul]
      have third : error ≤ 1 / 3 := by nlinarith
      have squared := abs_sq_sub_setScale_le fractional isWithin least unit third near
      exact ih (fractional.isWithin (scale_setScale _ _ _)) (one_le_pow₀ least) (by linarith)
        small squared

/-! ### Halving the argument -/

structure IsExponent (argument : Decimal) : Prop where
  digits : argument.digitCount ≤ 10 ^ 6
  size : |argument.value| ≤ 10 ^ 4

namespace IsExponent

theorem neg (isExponent : IsExponent argument) : IsExponent (-argument) := by
  constructor
  · have same : (-argument).digitCount = argument.digitCount :=
      congrArg Digits.count (Int.natAbs_neg argument.unscaled)
    rw [same]
    exact isExponent.digits
  · rw [value_neg, abs_neg]
    exact isExponent.size

variable (isExponent : IsExponent argument) (positive : 0 < argument.value)
include isExponent positive

theorem isHalvable : IsHalvable argument := by
  refine ⟨isExponent.digits.trans (by decide), positive, ?_⟩
  have size := (abs_le.mp isExponent.size).2
  linarith

theorem few_halvings : (halveTo half argument).2 ≤ 15 := by
  have size := isExponent.size
  rw [abs_of_pos positive] at size
  refine (isExponent.isHalvable positive).isHalved.halvings_le (by norm_num) ?_
  norm_num
  linarith

theorem expWords (few : precision.toNat + 10 < 2 ^ 32) : ExpWords argument precision := by
  have halvings := isExponent.few_halvings positive
  exact ⟨(isExponent.isHalvable positive).halves, few, by omega, by omega⟩

theorem meets_halved (fractional : IsFractionalScale scale) :
    (halveTo half argument).1.Meets scale := by
  have lower := (isExponent.isHalvable positive).scale_halved.1
  have upper := (halveTo half argument).1.scale.toInt_lt
  have fine := fractional.positive
  have written := fractional.written
  have room : largestExponent < 2 ^ 61 := by decide
  exact ⟨Or.inr (by omega), by omega⟩

theorem abs_halved_sub_setScale_le (fractional : IsFractionalScale scale) :
    |(halveTo half argument).1.value -
        ((halveTo half argument).1.setScale scale .halfEven).value| ≤ lastUnit scale / 2 := by
  have room : 10 ^ 6 + 31 ≤ largestExponent ∧ largestExponent < 2 ^ 61 := by decide
  have halvable := isExponent.isHalvable positive
  have lower := halvable.scale_halved.1
  have digits := isExponent.digits
  have fine := fractional.positive
  have written := fractional.written
  have reaches : (halveTo half argument).1.Reaches scale := Or.inr (by omega)
  rcases le_or_gt argument.value (1 / 2) with atMost | above
  · rw [halvable.halveTo_eq atMost] at reaches ⊢
    rw [setScale_eq .halfEven reaches fun _ => halvable.short]
    exact abs_sub_round_mul_le _ scale
  · have upper := halvable.scale_halved.2 above
    exact abs_sub_setScale_le reaches (by omega)

end IsExponent

/-! ### The error of an exponential -/

theorem toInt_expScale {halvings : Nat} (few : precision.toNat + 10 < 2 ^ 32)
    (small : halvings ≤ 15) :
    (expScale precision halvings).toInt = precision.toNat + 11 + (halvings * 3 / 10 : Nat) := by
  rw [toInt_expScale_eq precision (by omega), toNat_guarded few]
  push_cast
  ring

theorem three_pow_le {halvings : Nat} (few : halvings ≤ 15) :
    3 ^ halvings ≤ 1600 * 10 ^ (halvings * 3 / 10) := by
  interval_cases halvings <;> decide

theorem three_pow_mul_lastUnit_le {digits halvings : Nat} (few : halvings ≤ 15)
    (bounded : digits ≤ 10 ^ 6 + 10)
    (places : scale.toInt = digits + 11 + (halvings * 3 / 10 : Nat)) :
    (3 : ℝ) ^ halvings * ((8 * scale.toInt + 15) * lastUnit scale) ≤
      1 / 20 * 10 ^ (1 - digits : Int) := by
  have power : (3 : ℝ) ^ halvings ≤ 1600 * 10 ^ (halvings * 3 / 10) := by
    exact_mod_cast three_pow_le few
  have steps : (8 * scale.toInt + 15 : ℝ) ≤ 10 ^ 7 := by
    have most : (scale.toInt : ℝ) ≤ 10 ^ 6 + 30 := by
      exact_mod_cast (by omega : scale.toInt ≤ 10 ^ 6 + 30)
    linarith
  have unit : (lastUnit scale : ℝ) * 10 ^ (halvings * 3 / 10) =
      10 ^ (1 - digits : Int) * 10 ^ (-12 : Int) := by
    rw [lastUnit, places, ← zpow_natCast, ← zpow_add₀ (by norm_num)]
    push_cast
    rw [← zpow_add₀ (by norm_num)]
    congr 1
    ring
  have positive := cast_lastUnit_pos scale
  have front : (0 : ℝ) < 10 ^ (1 - digits : Int) := zpow_pos (by norm_num) _
  have some : (0 : ℝ) ≤ 8 * scale.toInt + 15 := by
    have least : (0 : ℝ) ≤ scale.toInt := by exact_mod_cast (by omega : 0 ≤ scale.toInt)
    linarith
  calc
    (3 : ℝ) ^ halvings * ((8 * scale.toInt + 15) * lastUnit scale) ≤
        1600 * 10 ^ (halvings * 3 / 10) * (10 ^ 7 * lastUnit scale) := by
      gcongr
    _ = 1600 * 10 ^ 7 * (lastUnit scale * 10 ^ (halvings * 3 / 10)) := by
      ring
    _ ≤ 1 / 20 * 10 ^ (1 - digits : Int) := by
      rw [unit]
      norm_num
      linarith

theorem exists_expSeries_of_rounded {reduced : Decimal} (fractional : IsFractionalScale scale)
    (written : reduced.scale = scale) (nonneg : 0 ≤ value) (within : value ≤ 1 / 2)
    (rounded : |value - reduced.value| ≤ lastUnit scale / 2) :
    ∃ sum, expSeries reduced scale = .ok sum ∧ IsWithin scale sum ∧
      |Real.exp value - sum.value| ≤ (8 * scale.toInt + 15) * lastUnit scale * Real.exp value := by
  have unit := fractional.lastUnit_le
  have small : |reduced.value| ≤ 3 / 5 := by
    rw [abs_le] at rounded ⊢
    constructor
    · linarith
    · linarith
  obtain ⟨sum, reached, -, isWithin, near⟩ := exists_expSeries fractional written small
  refine ⟨sum, reached, isWithin, ?_⟩
  have real := (Rat.cast_le (K := ℝ)).mpr rounded
  have real' := (Rat.cast_le (K := ℝ)).mpr unit
  push_cast at real real'
  have positive := cast_lastUnit_pos scale
  have size : (1 : ℝ) ≤ scale.toInt := by exact_mod_cast fractional.positive
  have least : 1 ≤ Real.exp value := Real.one_le_exp (Rat.cast_nonneg.mpr nonneg)
  have moved := abs_exp_sub_exp_le (show |(value : ℝ) - reduced.value| ≤ 1 by linarith)
  have first : 2 * |(value : ℝ) - reduced.value| * Real.exp value ≤
      lastUnit scale * Real.exp value := by
    gcongr
    linarith
  have second : (8 * scale.toInt + 14) * (lastUnit scale : ℝ) ≤
      (8 * scale.toInt + 14) * lastUnit scale * Real.exp value :=
    le_mul_of_one_le_right (by positivity) least
  have triangle := abs_sub_le (Real.exp value) (Real.exp reduced.value) sum.value
  linarith

theorem exists_expOfHalved {halved : Decimal × Nat}
    (fractional : IsFractionalScale scale) (meets : halved.1.Meets scale)
    (product : halved.1.value * 2 ^ halved.2 = value) (nonneg : 0 ≤ halved.1.value)
    (within : halved.1.value ≤ 1 / 2)
    (rounded : |halved.1.value - (halved.1.setScale scale .halfEven).value| ≤ lastUnit scale / 2)
    (small : (3 : ℝ) ^ halved.2 * ((8 * scale.toInt + 15) * lastUnit scale) ≤ 1)
    (precision : Precision) :
    ∃ total, expOfHalved halved scale precision = .ok (total.roundToPrecision precision) ∧
      IsWithin scale total ∧
      |Real.exp value - total.value| ≤
        3 ^ halved.2 * ((8 * scale.toInt + 15) * lastUnit scale) * Real.exp value := by
  obtain ⟨sum, reached, isWithin, near⟩ :=
    exists_expSeries_of_rounded fractional (scale_setScale _ _ _) nonneg within rounded
  have least : 1 ≤ Real.exp halved.1.value := Real.one_le_exp (Rat.cast_nonneg.mpr nonneg)
  have positive := cast_lastUnit_pos scale
  have size : (1 : ℝ) ≤ scale.toInt := by exact_mod_cast fractional.positive
  obtain ⟨isWithin', near'⟩ :=
    squareRepeatedly_near fractional isWithin least (by nlinarith) small near
  have power : Real.exp halved.1.value ^ 2 ^ halved.2 = Real.exp value := by
    rw [← Real.exp_nat_mul, ← product]
    push_cast
    rw [mul_comm]
  rw [power] at near'
  refine ⟨squareRepeatedly scale halved.2 sum, ?_, isWithin', near'⟩
  rw [expOfHalved, Checked.setScale, unlessOverflow_of meets]
  change (expSeries (halved.1.setScale scale .halfEven) scale >>= _) = _
  rw [reached]
  rfl

theorem exists_expOfPositive_total (isExponent : IsExponent argument)
    (positive : 0 < argument.value) (least : 1 ≤ precision.toNat)
    (few : precision.toNat ≤ 10 ^ 6 + 10) :
    ∃ total : Decimal, expOfPositive argument precision = .ok (total.roundToPrecision precision) ∧
      IsTotal precision.toNat (Real.exp argument.value) total := by
  obtain ⟨product, within, -⟩ := (isExponent.isHalvable positive).isHalved
  have halvings := isExponent.few_halvings positive
  have places := toInt_expScale (show precision.toNat + 10 < 2 ^ 32 by omega) halvings
  have fractional : IsFractionalScale (expScale precision (halveTo half argument).2) :=
    isFractionalScale_of_le (by omega) (by omega)
  have rounded := isExponent.abs_halved_sub_setScale_le positive fractional
  have meets := isExponent.meets_halved positive fractional
  rw [expOfPositive_eq_expOfHalved (isExponent.expWords positive (by omega))]
  generalize expScale precision (halveTo half argument).2 = scale at *
  generalize halveTo half argument = halved at *
  have error := three_pow_mul_lastUnit_le halvings few places
  have unit := zpow_one_sub_le_one least
  have nonneg : 0 ≤ halved.1.value := by
    refine nonneg_of_mul_nonneg_left ?_ (show (0 : ℚ) < 2 ^ halved.2 by positivity)
    rw [product]
    exact positive.le
  obtain ⟨total, reached, isWithin, near⟩ :=
    exists_expOfHalved fractional meets product nonneg within rounded (by linarith) precision
  refine ⟨total, reached, isWithin.nonneg, isWithin.within.trans (by omega), near.trans ?_⟩
  rw [abs_of_pos (Real.exp_pos _)]
  exact mul_le_mul_of_nonneg_right error (Real.exp_pos _).le

theorem exp_le_zpow {count : Nat} (small : value ≤ count) :
    Real.exp value ≤ 10 ^ (count + 1 : Int) / 2 := by
  have argument : (value : ℝ) ≤ count * 1 := by
    rw [mul_one]
    exact_mod_cast small
  have base : Real.exp 1 ≤ 10 := by
    have bound := Real.exp_one_lt_d9
    linarith
  have power : Real.exp (count * 1) ≤ 10 ^ count := by
    rw [Real.exp_nat_mul]
    exact pow_le_pow_left₀ (Real.exp_pos 1).le base _
  have positive : (0 : ℝ) < 10 ^ count := pow_pos (by norm_num) _
  have order := Real.exp_le_exp.mpr argument
  rw [zpow_add_one₀ (by norm_num), zpow_natCast]
  linarith

theorem exists_expOfPositive (precision : Precision) (isExponent : IsExponent argument)
    (positive : 0 < argument.value) (least : 1 ≤ precision.toNat)
    (few : precision.toNat ≤ 10 ^ 6 + 10) :
    ∃ result, expOfPositive argument precision = .ok result ∧
      |Real.exp argument.value - result.value| ≤
        3 / 5 * 10 ^ (1 - precision.toNat : Int) * Real.exp argument.value ∧ IsWide result := by
  obtain ⟨total, reached, summed⟩ := exists_expOfPositive_total isExponent positive least few
  have most : |Real.exp argument.value| ≤ 10 ^ ((10 ^ 4 : Nat) + 1 : Int) / 2 := by
    rw [abs_of_pos (Real.exp_pos _)]
    exact exp_le_zpow (by exact_mod_cast (abs_le.mp isExponent.size).2)
  have rounded := summed.rounded least (by omega) (Real.exp_ne_zero _) most (by norm_num)
  rw [abs_of_pos (Real.exp_pos _)] at rounded
  exact ⟨_, reached, rounded⟩

theorem abs_exp_sub_inv_le {exponent result error : ℝ} (small : error ≤ 1 / 2)
    (near : |Real.exp (-exponent) - result| ≤ error * Real.exp (-exponent)) :
    |Real.exp exponent - result⁻¹| ≤ 2 * error * Real.exp exponent := by
  have opposite : Real.exp (-exponent) = (Real.exp exponent)⁻¹ := Real.exp_neg exponent
  have positive := Real.exp_pos exponent
  rw [opposite] at near
  generalize Real.exp exponent = exact at near positive ⊢
  have inverse : exact * exact⁻¹ = 1 := mul_inv_cancel₀ positive.ne'
  have positive' := inv_pos.mpr positive
  have away : 1 / 2 * exact⁻¹ ≤ result := by
    have upper := (abs_le.mp near).2
    nlinarith
  have some : 0 < result := by linarith
  have split : exact - result⁻¹ = -(exact⁻¹ - result) * (exact * result⁻¹) := by
    field_simp
    ring
  have factor : 0 < exact * result⁻¹ := mul_pos positive (inv_pos.mpr some)
  have product : exact⁻¹ * (exact * result⁻¹) ≤ 2 * exact := by
    rw [← mul_assoc, inv_mul_cancel₀ positive.ne', one_mul, inv_le_iff_one_le_mul₀ some]
    nlinarith
  have nonneg : 0 ≤ error := by
    have bound := (abs_nonneg _).trans near
    exact nonneg_of_mul_nonneg_left bound positive'
  rw [split, abs_mul, abs_neg, abs_of_pos factor]
  calc
    |exact⁻¹ - result| * (exact * result⁻¹) ≤ error * exact⁻¹ * (exact * result⁻¹) := by
      gcongr
    _ = error * (exact⁻¹ * (exact * result⁻¹)) := by
      ring
    _ ≤ error * (2 * exact) := by
      gcongr
    _ = 2 * error * exact := by
      ring

section Exp

variable (isExponent : IsExponent argument) (least : 1 ≤ precision.toNat)
  (few : precision.toNat ≤ 10 ^ 6)
include isExponent least few

theorem exists_exp_of_neg (negative : argument.value < 0) :
    ∃ result, exp argument precision = .ok result ∧
      |Real.exp argument.value - result.value| ≤
        3 / 5 * 10 ^ (1 - precision.toNat : Int) * Real.exp argument.value := by
  have guarded : precision.guarded.toNat = precision.toNat + 10 := toNat_guarded (by omega)
  have positive : 0 < (-argument).value := by
    rw [value_neg]
    exact neg_pos.mpr negative
  obtain ⟨opposite, reached, near, wide⟩ :=
    exists_expOfPositive precision.guarded isExponent.neg positive (by omega) (by omega)
  have unit := zpow_one_sub_le_one least
  have front : (0 : ℝ) < 10 ^ (1 - precision.toNat : Int) := zpow_pos (by norm_num) _
  have guard : (10 : ℝ) ^ (1 - precision.guarded.toNat : Int) =
      10 ^ (1 - precision.toNat : Int) * 10 ^ (-10 : Int) := by
    rw [guarded, ← zpow_add₀ (by norm_num)]
    push_cast
    congr 1
    ring
  have digits : (10 : ℝ) ^ (-10 : Int) = 1 / 10 ^ 10 := by norm_num
  rw [guard, digits, value_neg, Rat.cast_neg] at near
  have exact := Real.exp_pos argument.value
  have inverse := abs_exp_sub_inv_le (by linarith) near
  have some : opposite.value ≠ 0 :=
    ne_zero_of_near (Real.exp_ne_zero (-argument.value)) (by rwa [abs_of_pos (Real.exp_pos _)])
      (by linarith)
  obtain ⟨result, divided, rounded⟩ := isWide_one.exists_divideToPrecision wide
    (by rw [value_one]; exact one_ne_zero) some least (by omega)
  refine ⟨result, ?_, ?_⟩
  · rw [exp_of_neg negative, requireWords_bind_of (Precision.guards_of_lt (by omega)), reached]
    exact divided
  · rw [value_one, one_div, ← Rat.cast_le (K := ℝ)] at rounded
    push_cast at rounded
    have triangle := abs_sub_le (Real.exp argument.value) (opposite.value : ℝ)⁻¹ result.value
    have size : |(opposite.value : ℝ)⁻¹| ≤ 11 / 10 * Real.exp argument.value := by
      have apart := abs_sub_abs_le_abs_sub (opposite.value : ℝ)⁻¹ (Real.exp argument.value)
      rw [abs_sub_comm, abs_of_pos exact] at apart
      nlinarith
    have product : 0 < (10 : ℝ) ^ (1 - precision.toNat : Int) * Real.exp argument.value :=
      mul_pos front exact
    have scaled : 101 / 200 * 10 ^ (1 - precision.toNat : Int) * |(opposite.value : ℝ)⁻¹| ≤
        101 / 200 * 10 ^ (1 - precision.toNat : Int) * (11 / 10 * Real.exp argument.value) := by
      gcongr
    linarith

theorem exists_exp :
    ∃ result, exp argument precision = .ok result ∧
      |Real.exp argument.value - result.value| ≤
        3 / 5 * 10 ^ (1 - precision.toNat : Int) * Real.exp argument.value := by
  rcases lt_trichotomy argument.value 0 with negative | zero | positive
  · exact exists_exp_of_neg isExponent least few negative
  · refine ⟨1, exp_of_zero zero precision, ?_⟩
    rw [zero, value_one, Rat.cast_zero, Real.exp_zero, Rat.cast_one, sub_self, abs_zero]
    positivity
  · obtain ⟨result, reached, near, -⟩ :=
      exists_expOfPositive precision isExponent positive least (by omega)
    rw [exp_of_pos positive]
    exact ⟨result, reached, near⟩

end Exp

theorem exists_abs_sub_sum_le {result error : ℚ} (positive : 0 < error)
    (near : |Real.exp value - result| ≤ 3 / 5 * error * Real.exp value) :
    ∃ first : Nat, ∀ last : Nat, first ≤ last →
      |result - ∑ index ∈ Finset.range (last + 1), value ^ index / index.factorial| ≤
        error * ∑ index ∈ Finset.range (last + 1), value ^ index / index.factorial := by
  have sums := (tendsto_factorSum_exp value).comp (Filter.tendsto_add_atTop_nat 1)
  have distance := (sums.const_sub (result : ℝ)).abs.sub (sums.const_mul (error : ℝ))
  have below : |(result : ℝ) - Real.exp value| - error * Real.exp value < 0 := by
    have size : 0 < (error : ℝ) * Real.exp value :=
      mul_pos (Rat.cast_pos.mpr positive) (Real.exp_pos _)
    rw [abs_sub_comm] at near
    linarith
  obtain ⟨first, late⟩ := Filter.eventually_atTop.mp (distance.eventually_lt_const below)
  refine ⟨first, fun last after => ?_⟩
  have close := sub_neg.mp (late last after)
  simp only [Function.comp_apply, factorSum_expFactor] at close
  exact_mod_cast close.le

/-- The exponential of a number of at most ten thousand is positive and right to the digits of
the precision, measured by any Taylor sum that is long enough. -/
theorem exp_approximates (argument : Decimal) (precision : Precision) (least : 1 ≤ precision.toNat)
    (few : precision.toNat ≤ 10 ^ 6) (isExponent : IsExponent argument) :
    ∃ result, exp argument precision = .ok result ∧ 0 < result.value ∧
      ∃ first : Nat, ∀ last : Nat, first ≤ last →
        |result.value -
            ∑ index ∈ Finset.range (last + 1), argument.value ^ index / index.factorial| ≤
          10 ^ (1 - precision.toNat : Int) *
            ∑ index ∈ Finset.range (last + 1), argument.value ^ index / index.factorial := by
  obtain ⟨result, reached, near⟩ := exists_exp isExponent least few
  have unit := zpow_one_sub_le_one least
  have positive := Real.exp_pos argument.value
  refine ⟨result, reached, ?_, exists_abs_sub_sum_le (zpow_pos (by norm_num) _) ?_⟩
  · have upper := (abs_le.mp near).2
    have some : (0 : ℝ) < result.value := by nlinarith
    exact_mod_cast some
  · push_cast
    exact near

theorem exp_approximates_large :
    ∃ result, exp ⟨-99995, 1⟩ 1000000 = .ok result ∧ 0 < result.value ∧
      ∃ first : Nat, ∀ last : Nat, first ≤ last →
        |result.value - ∑ index ∈ Finset.range (last + 1),
            (⟨-99995, 1⟩ : Decimal).value ^ index / index.factorial| ≤
          10 ^ (1 - (1000000 : Precision).toNat : Int) * ∑ index ∈ Finset.range (last + 1),
            (⟨-99995, 1⟩ : Decimal).value ^ index / index.factorial := by
  refine exp_approximates ⟨-99995, 1⟩ 1000000 (by decide) (by decide) ⟨by decide, ?_⟩
  change |((-99995 : Int) : ℚ) / 10 ^ (1 : Int)| ≤ _
  norm_num [abs_of_pos]

end Elementary
end DecimalCalculator
