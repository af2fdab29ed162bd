/-
Inverse tangents as sums of odd powers, and pi.

An alternating sum of odd powers tends to the inverse tangent, which moves by no more than its
argument does.  Pi is sixteen times one such sum less four times another, and the five digits
that are dropped at the end hold the errors of both.
-/

import Mathlib
import DecimalCalculator.Elementary.Trigonometry
import DecimalCalculator.Proofs.Elementary.OddPowers

namespace DecimalCalculator

open Decimal

/-! ### The series -/

namespace Series

variable {value : ℚ} {scale : Int64} {argument : Decimal}

theorem tendsto_oddSum_alternating (small : |value| ≤ 1 / 3) :
    Filter.Tendsto (fun count => ((oddSum .alternating value count : ℚ) : ℝ)) Filter.atTop
      (nhds (Real.arctan value)) := by
  have inside : ‖(value : ℝ)‖ < 1 := by
    have below : |value| < 1 := by linarith
    rw [Real.norm_eq_abs]
    exact_mod_cast below
  have sums := (Real.hasSum_arctan inside).tendsto_sum_nat
  refine sums.congr fun count => ?_
  rw [oddSum, Rat.cast_sum]
  refine Finset.sum_congr rfl fun index _ => ?_
  rcases Nat.mod_two_eq_zero_or_one index with even | odd
  · rw [oddTerm, if_neg (by omega), (Nat.even_iff.mpr even).neg_one_pow]
    push_cast
    ring
  · rw [oddTerm, if_pos ⟨rfl, odd⟩, (Nat.odd_iff.mpr odd).neg_one_pow]
    push_cast
    ring

theorem abs_arctan_sub_arctan_le (first second : ℝ) :
    |Real.arctan first - Real.arctan second| ≤ |first - second| := by
  have slope (point : ℝ) : ‖deriv Real.arctan point‖ ≤ 1 := by
    have positive : 0 < 1 + point ^ 2 := by positivity
    rw [Real.deriv_arctan, Real.norm_eq_abs, abs_of_pos (one_div_pos.mpr positive),
      div_le_one positive]
    nlinarith [sq_nonneg point]
  have bound := convex_univ.norm_image_sub_le_of_norm_deriv_le
    (fun point _ => Real.differentiableAt_arctan point) (fun point _ => slope point)
    (Set.mem_univ second) (Set.mem_univ first)
  rwa [one_mul] at bound

theorem exists_oddPowers_arctan (fractional : IsFractionalScale scale)
    (small : |argument.value| ≤ 1 / 3) (written : argument.scale = scale) :
    ∃ sum, oddPowers .alternating argument scale = .ok sum ∧ sum.scale = scale ∧
      |Real.arctan argument.value - sum.value| ≤ (2 * scale.toInt + 2) * lastUnit scale := by
  obtain ⟨sum, reached, close⟩ :=
    exists_oddPowers_isSum_of_scale .alternating fractional small written
  have digits := fractional.positive
  refine ⟨sum, reached, (close (2 * scale.toInt + 1).toNat (by omega)).written, ?_⟩
  have bound := abs_limit_sub_le (2 * scale.toInt + 1).toNat (tendsto_oddSum_alternating small)
    fun count later => (close count (by omega)).near
  push_cast at bound
  exact bound

end Series

namespace Elementary

/-! ### Pi -/

variable {scale : Int64}

theorem exists_arctan_inv (divisor : Nat) (fractional : IsFractionalScale scale)
    (large : 5 ≤ divisor) :
    ∃ ratio sum, divideAtScale 1 (ofInt divisor) scale .halfEven = .ok ratio ∧
      Series.oddPowers .alternating ratio scale = .ok sum ∧ sum.scale = scale ∧
      |Real.arctan (divisor : ℝ)⁻¹ - sum.value| ≤ (2 * scale.toInt + 3) * lastUnit scale := by
  obtain ⟨ratio, divided, written, near⟩ := exists_reciprocal divisor fractional (by omega)
  have unit := fractional.lastUnit_le
  have fifth : (1 : ℚ) / divisor ≤ 1 / 5 :=
    one_div_le_one_div_of_le (by norm_num) (by exact_mod_cast large)
  have positive : (0 : ℚ) ≤ 1 / divisor := by positivity
  have small : |ratio.value| ≤ 1 / 3 := by
    rw [abs_le] at near ⊢
    constructor
    · linarith
    · linarith
  obtain ⟨sum, reached, same, close⟩ := Series.exists_oddPowers_arctan fractional small written
  refine ⟨ratio, sum, divided, reached, same, ?_⟩
  have real := (Rat.cast_le (K := ℝ)).mpr near
  push_cast at real
  rw [one_div] at real
  have moved := Series.abs_arctan_sub_arctan_le (divisor : ℝ)⁻¹ ratio.value
  have triangle := abs_sub_le (Real.arctan (divisor : ℝ)⁻¹) (Real.arctan ratio.value) sum.value
  have last := cast_lastUnit_pos scale
  linarith

theorem isFractionalScale_add_five (nonneg : 0 ≤ scale.toInt)
    (few : scale.toInt + 5 ≤ largestExponent) :
    (scale + 5).toInt = scale.toInt + 5 ∧ IsFractionalScale (scale + 5) := by
  have room : largestExponent < 2 ^ 61 := by decide
  have inner : (scale + 5).toInt = scale.toInt + 5 := by
    apply toInt_add_of_isWord
    change IsWord (scale.toInt + 5)
    exact ⟨by omega, by omega⟩
  exact ⟨inner, by omega, by omega⟩

theorem piAtScale_eq_ok {fifth small first second : Decimal}
    (word : IsWord (scale.toInt + 5))
    (divided : divideAtScale 1 (ofInt (5 : Nat)) (scale + 5) .halfEven = .ok fifth)
    (divided' : divideAtScale 1 (ofInt (239 : Nat)) (scale + 5) .halfEven = .ok small)
    (summed : Series.oddPowers .alternating fifth (scale + 5) = .ok first)
    (summed' : Series.oddPowers .alternating small (scale + 5) = .ok second) :
    piAtScale scale = .ok ((ofInt 16 * first - ofInt 4 * second).setScale scale .halfEven) := by
  rw [piAtScale, requireWords_bind_of word]
  change divideAtScale 1 (ofInt (5 : Nat)) (scale + 5) .halfEven >>= _ = _
  rw [divided]
  change divideAtScale 1 (ofInt (239 : Nat)) (scale + 5) .halfEven >>= _ = _
  rw [divided']
  change Series.oddPowers .alternating fifth (scale + 5) >>= _ = _
  rw [summed]
  change Series.oddPowers .alternating small (scale + 5) >>= _ = _
  rw [summed']
  rfl

theorem abs_pi_sub_le {first second error : ℝ}
    (near : |Real.arctan 5⁻¹ - first| ≤ error) (near' : |Real.arctan 239⁻¹ - second| ≤ error) :
    |Real.pi - (16 * first - 4 * second)| ≤ 20 * error := by
  have machin := Real.four_mul_arctan_inv_5_sub_arctan_inv_239
  have split : Real.pi - (16 * first - 4 * second) =
      16 * (Real.arctan 5⁻¹ - first) - 4 * (Real.arctan 239⁻¹ - second) := by
    linarith
  rw [abs_le] at near near' ⊢
  rw [split]
  constructor
  · linarith
  · linarith

theorem exists_piAtScale_of_written (nonneg : 0 ≤ scale.toInt)
    (few : scale.toInt + 5 ≤ largestExponent) :
    ∃ result, piAtScale scale = .ok result ∧ result.scale = scale ∧
      |Real.pi - result.value| ≤ (scale.toInt / 2500 + 1) * lastUnit scale := by
  obtain ⟨inner, fractional⟩ := isFractionalScale_add_five nonneg few
  have unit : lastUnit (scale + 5) = lastUnit scale / 10 ^ 5 := by
    rw [lastUnit, lastUnit, inner, neg_add, zpow_add₀ (by norm_num)]
    norm_num
    ring
  obtain ⟨fifth, first, divided, summed, same, near⟩ := exists_arctan_inv 5 fractional (by decide)
  obtain ⟨small, second, divided', summed', same', near'⟩ :=
    exists_arctan_inv 239 fractional (by decide)
  have room : largestExponent < 2 ^ 61 := by decide
  have word : IsWord (scale.toInt + 5) := ⟨by omega, by omega⟩
  refine ⟨_, piAtScale_eq_ok word divided divided' summed summed', scale_setScale _ _ _, ?_⟩
  have sixteen := (scale_ofInt_mul 16 first).trans same
  have four := (scale_ofInt_mul 4 second).trans same'
  have difference : (ofInt 16 * first - ofInt 4 * second).value =
      16 * first.value - 4 * second.value := by
    rw [value_sub (aligned_of_scale sixteen four), value_ofInt_mul, value_ofInt_mul]
    norm_num
  have written : (ofInt 16 * first - ofInt 4 * second).scale = scale + 5 :=
    commonScale_of_scale sixteen four
  have room := fractional.written
  have rounded := abs_sub_round_mul_le (ofInt 16 * first - ofInt 4 * second).value scale
  rw [← setScale_eq .halfEven (Or.inr (by rw [written]; omega)) (by rw [written]; omega),
    difference, ← Rat.cast_le (K := ℝ)] at rounded
  push_cast at rounded near near'
  have sums := abs_pi_sub_le near near'
  rw [unit, inner] at sums
  push_cast at sums
  have last := cast_lastUnit_pos scale
  have triangle := abs_sub_le Real.pi (16 * first.value - 4 * second.value : ℝ)
    ((ofInt 16 * first - ofInt 4 * second).setScale scale .halfEven).value
  linarith

theorem exists_piAtScale_near (nonneg : 0 ≤ scale.toInt) (few : scale.toInt ≤ 4 * 10 ^ 6) :
    ∃ result, piAtScale scale = .ok result ∧ result.scale = scale ∧
      |Real.pi - result.value| ≤ 2000 * lastUnit scale := by
  have room : 4 * 10 ^ 6 + 5 ≤ largestExponent := by decide
  obtain ⟨result, found, written, near⟩ := exists_piAtScale_of_written nonneg (by omega)
  refine ⟨result, found, written, near.trans ?_⟩
  have most : (scale.toInt : ℝ) ≤ 4 * 10 ^ 6 := by exact_mod_cast few
  exact mul_le_mul_of_nonneg_right (by linarith) (cast_lastUnit_pos scale).le

end Elementary
end DecimalCalculator
