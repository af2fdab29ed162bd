/-
Logarithms at a scale.

The logarithm of a number is twice the inverse hyperbolic tangent of a ratio, and the sum of
odd powers at the rounded ratio is close to it.  Products of numbers add up their logarithms and
the errors of these, so the logarithms of 2 and 10 bring those of all other numbers along.
-/

import Mathlib
import DecimalCalculator.Elementary.Logarithm
import DecimalCalculator.Proofs.Elementary.OddPowers

namespace DecimalCalculator

open Decimal

/-! ### The series -/

namespace Series

variable {value : ℚ} {scale : Int64} {result : Decimal} {units : ℚ}

theorem tendsto_oddSum (small : |value| ≤ 1 / 3) :
    Filter.Tendsto (fun count => ((oddSum .positive value count : ℚ) : ℝ)) Filter.atTop
      (nhds ((Real.log (1 + value) - Real.log (1 - value)) / 2)) := by
  have inside : |(value : ℝ)| < 1 := by
    have below : |value| < 1 := by linarith
    exact_mod_cast below
  have sums := (Real.hasSum_log_sub_log_of_abs_lt_one inside).tendsto_sum_nat.div_const 2
  refine sums.congr fun count => ?_
  rw [oddSum, Rat.cast_sum, Finset.sum_div]
  refine Finset.sum_congr rfl fun index _ => ?_
  have unsigned : ¬(Signs.positive = .alternating ∧ index % 2 = 1) := by
    intro both
    cases both.1
  rw [oddTerm, if_neg unsigned, one_mul]
  push_cast
  ring

theorem abs_log_sub_le (first : Nat) (small : |value| ≤ 1 / 3)
    (near : ∀ count, first ≤ count → IsSum scale (oddSum .positive value count) units result) :
    |Real.log (1 + value) - Real.log (1 - value) - 2 * result.value| ≤
      2 * units * lastUnit scale := by
  have bound := abs_limit_sub_le first (tendsto_oddSum small) fun count later =>
    (near count later).near
  push_cast at bound
  have twice : Real.log (1 + value) - Real.log (1 - value) - 2 * result.value =
      2 * ((Real.log (1 + value) - Real.log (1 - value)) / 2 - result.value) := by
    ring
  rw [twice, abs_mul, abs_of_pos two_pos, mul_assoc]
  linarith

end Series

/-! ### Logarithms of numbers that are close to each other -/

theorem log_sub_log_le {first second : ℝ} (positive : 0 < first) (above : 2 / 3 ≤ second) :
    Real.log first - Real.log second ≤ 3 / 2 * |first - second| := by
  have nonzero : 0 < second := by linarith
  rw [← Real.log_div positive.ne' nonzero.ne']
  calc
    Real.log (first / second) ≤ first / second - 1 :=
      Real.log_le_sub_one_of_pos (div_pos positive nonzero)
    _ = (first - second) / second := by field_simp
    _ ≤ |first - second| / second := by
      gcongr
      exact le_abs_self _
    _ ≤ 3 / 2 * |first - second| := by
      rw [div_le_iff₀ nonzero]
      nlinarith [abs_nonneg (first - second)]

theorem abs_log_sub_log_le {first second : ℝ} (above : 2 / 3 ≤ first) (above' : 2 / 3 ≤ second) :
    |Real.log first - Real.log second| ≤ 3 / 2 * |first - second| := by
  rw [abs_le]
  have upper := log_sub_log_le (by linarith : (0 : ℝ) < first) above'
  have lower := log_sub_log_le (by linarith : (0 : ℝ) < second) above
  rw [abs_sub_comm] at lower
  constructor
  · linarith
  · exact upper

theorem abs_log_sub_log_ratio_le {number ratio bound : ℝ} (positive : 0 < number)
    (small : |(number - 1) / (number + 1)| ≤ 1 / 3) (small' : |ratio| ≤ 1 / 3)
    (near : |(number - 1) / (number + 1) - ratio| ≤ bound) :
    |Real.log number - (Real.log (1 + ratio) - Real.log (1 - ratio))| ≤ 3 * bound := by
  obtain ⟨lower, upper⟩ := abs_le.mp small
  obtain ⟨lower', upper'⟩ := abs_le.mp small'
  have split : Real.log number = Real.log (1 + (number - 1) / (number + 1)) -
      Real.log (1 - (number - 1) / (number + 1)) := by
    rw [← Real.log_div (by linarith) (by linarith)]
    congr 1
    field_simp
    ring
  have first := abs_log_sub_log_le (show (2 : ℝ) / 3 ≤ 1 + (number - 1) / (number + 1) by linarith)
    (show (2 : ℝ) / 3 ≤ 1 + ratio by linarith)
  have second := abs_log_sub_log_le (show (2 : ℝ) / 3 ≤ 1 - (number - 1) / (number + 1) by linarith)
    (show (2 : ℝ) / 3 ≤ 1 - ratio by linarith)
  rw [add_sub_add_left_eq_sub] at first
  rw [sub_sub_sub_cancel_left, abs_sub_comm ratio] at second
  rw [split, sub_sub_sub_comm]
  refine (abs_sub _ _).trans ?_
  linarith

/-! ### Logarithms at a scale -/

namespace Elementary

/-- The logarithm of a number at a scale, with an error of so many units. -/
structure IsLogarithm (scale : Int64) (number : ℚ) (units : ℚ) (result : Decimal) : Prop where
  positive : 0 < number
  written : result.scale = scale
  near : |Real.log number - result.value| ≤ units * lastUnit scale

namespace IsLogarithm

variable {scale : Int64} {number other units units' : ℚ} {result result' : Decimal}

theorem add (first : IsLogarithm scale number units result)
    (second : IsLogarithm scale other units' result') :
    IsLogarithm scale (number * other) (units + units') (result + result') := by
  have sum := value_add (aligned_of_scale first.written second.written)
  have left := first.near
  have right := second.near
  refine ⟨mul_pos first.positive second.positive,
    commonScale_of_scale first.written second.written, ?_⟩
  have logarithm : Real.log (number * other : ℚ) = Real.log number + Real.log other := by
    rw [Rat.cast_mul, Real.log_mul]
    · exact Rat.cast_ne_zero.mpr first.positive.ne'
    · exact Rat.cast_ne_zero.mpr second.positive.ne'
  rw [logarithm, sum]
  push_cast
  rw [add_sub_add_comm, add_mul]
  exact (abs_add_le _ _).trans (add_le_add left right)

theorem ofInt_mul (times : Int) (given : IsLogarithm scale number units result) :
    IsLogarithm scale (number ^ times) (|times| * units) (ofInt times * result) := by
  refine ⟨zpow_pos given.positive times, (scale_ofInt_mul times result).trans given.written, ?_⟩
  have near := mul_le_mul_of_nonneg_left given.near (abs_nonneg (times : ℝ))
  rw [value_ofInt_mul]
  push_cast
  rw [Real.log_zpow, ← mul_sub, abs_mul, mul_assoc]
  exact near

theorem add_power (counts : Prop) [Decidable counts] (times : Int)
    (first : IsLogarithm scale number units result)
    (second : IsLogarithm scale other units' result') (skipped : ¬counts → times = 0) :
    IsLogarithm scale (number * other ^ times) (units + |times| * units')
      (if counts then result + ofInt times * result' else result) := by
  by_cases some : counts
  · rw [if_pos some]
    exact first.add (second.ofInt_mul times)
  · rw [if_neg some, skipped some, zpow_zero, mul_one, abs_zero, Int.cast_zero, zero_mul, add_zero]
    exact first

end IsLogarithm

variable {scale : Int64}

theorem exists_isLogarithm_oddPowers (number : ℚ) {ratio : Decimal}
    (fractional : IsFractionalScale scale) (positive : 0 < number)
    (small : |(number - 1) / (number + 1)| ≤ 1 / 3) (small' : |ratio.value| ≤ 1 / 3)
    (written : ratio.scale = scale)
    (near : |(number - 1) / (number + 1) - ratio.value| ≤ lastUnit scale / 2) :
    ∃ sum, Series.oddPowers .positive ratio scale = .ok sum ∧
      IsLogarithm scale number (4 * scale.toInt + 6) (2 * sum) := by
  obtain ⟨sum, reached, close⟩ :=
    Series.exists_oddPowers_isSum_of_scale .positive fractional small' written
  have digits := fractional.positive
  have same : sum.scale = scale := (close (2 * scale.toInt + 1).toNat (by omega)).written
  have double : (2 * sum).value = 2 * sum.value := by exact_mod_cast value_ofInt_mul 2 sum
  refine ⟨sum, reached, positive, (scale_ofInt_mul 2 sum).trans same, ?_⟩
  have series := Series.abs_log_sub_le (2 * scale.toInt + 1).toNat small'
    fun count later => close count (by omega)
  have first := (Rat.cast_le (K := ℝ)).mpr small
  have second := (Rat.cast_le (K := ℝ)).mpr small'
  have apart := (Rat.cast_le (K := ℝ)).mpr near
  push_cast at first second apart
  have moved := abs_log_sub_log_ratio_le (Rat.cast_pos.mpr positive) first second apart
  have triangle := abs_sub_le (Real.log number)
    (Real.log (1 + ratio.value) - Real.log (1 - ratio.value)) (2 * sum.value)
  have unit : (0 : ℝ) < lastUnit scale := by exact_mod_cast lastUnit_pos scale
  rw [double]
  push_cast at series moved ⊢
  linarith

/-! ### The logarithms of 2 and 10 -/

theorem abs_third_le {ratio : Decimal} (fractional : IsFractionalScale scale)
    (written : ratio.scale = scale) (near : |1 / 3 - ratio.value| ≤ lastUnit scale / 2) :
    |ratio.value| ≤ 1 / 3 := by
  have digits := fractional.positive
  have unit := fractional.lastUnit_le
  have positive := lastUnit_pos scale
  obtain ⟨places, known⟩ := Int.eq_ofNat_of_zero_le (show 0 ≤ scale.toInt by omega)
  obtain ⟨lower, upper⟩ := abs_le.mp near
  rw [abs_of_nonneg (by linarith)]
  rw [value_of_scale written] at lower ⊢
  have power : lastUnit scale * (10 ^ places : Nat) = 1 := by
    rw [lastUnit, known, zpow_neg, zpow_natCast]
    push_cast
    exact inv_mul_cancel₀ (by positivity)
  have rest : (10 ^ places) % 3 = 1 := by
    rw [Nat.pow_mod]
    norm_num
  have most : 3 * ratio.unscaled < (10 ^ places : Nat) + 2 := by
    have scaled : (3 * ratio.unscaled : ℚ) < (10 ^ places : Nat) + 2 := by
      refine lt_of_mul_lt_mul_right ?_ positive.le
      linarith
    exact_mod_cast scaled
  have whole : (3 * ratio.unscaled : ℚ) ≤ (10 ^ places : Nat) := by
    exact_mod_cast (by omega : 3 * ratio.unscaled ≤ (10 ^ places : Nat))
  have scaled := mul_le_mul_of_nonneg_right whole positive.le
  linarith

theorem exists_lnOfTwo (fractional : IsFractionalScale scale) :
    ∃ result, lnOfTwo scale = .ok result ∧ IsLogarithm scale 2 (4 * scale.toInt + 6) result := by
  obtain ⟨ratio, divided, written, near⟩ := exists_reciprocal 3 fractional (by decide)
  have third := abs_third_le fractional written (by exact_mod_cast near)
  obtain ⟨sum, reached, logarithm⟩ := exists_isLogarithm_oddPowers 2 fractional two_pos
    (by norm_num [abs_of_pos]) third written (by norm_num at near ⊢; exact near)
  refine ⟨2 * sum, ?_, logarithm⟩
  change divideAtScale 1 (ofInt (3 : Nat)) scale .halfEven >>= _ = _
  rw [divided]
  change Series.oddPowers .positive ratio scale >>= _ = _
  rw [reached]
  rfl

theorem exists_lnOfTen (fractional : IsFractionalScale scale) :
    ∃ result, lnOfTen scale = .ok result ∧
      IsLogarithm scale 10 (4 * (4 * scale.toInt + 6)) result := by
  obtain ⟨two, found, double⟩ := exists_lnOfTwo fractional
  obtain ⟨ratio, divided, written, near⟩ := exists_reciprocal 9 fractional (by decide)
  have ninth : |ratio.value| ≤ 1 / 3 := by
    have unit := fractional.lastUnit_le
    have triangle := abs_sub_abs_le_abs_sub ratio.value (1 / (9 : Nat))
    rw [abs_sub_comm, abs_of_pos (by norm_num : (0 : ℚ) < 1 / (9 : Nat))] at triangle
    norm_num at triangle near ⊢
    linarith
  obtain ⟨sum, reached, quarter⟩ := exists_isLogarithm_oddPowers (5 / 4) fractional
    (by norm_num) (by norm_num [abs_of_pos]) ninth written (by norm_num at near ⊢; exact near)
  have product := (double.ofInt_mul 3).add quarter
  refine ⟨ofInt 3 * two + 2 * sum, ?_, ?_⟩
  · change lnOfTwo scale >>= _ = _
    rw [found]
    change divideAtScale 1 (ofInt (9 : Nat)) scale .halfEven >>= _ >>= _ = _
    rw [divided]
    change Series.oddPowers .positive ratio scale >>= _ >>= _ = _
    rw [reached]
    rfl
  · norm_num at product ⊢
    convert product using 1
    ring

end Elementary
end DecimalCalculator
