/-
The shortest form of a number.

Numbers with the same value have the same shortest form: its scale is not negative,
and no zero stands at the end of the digits after the point.  The form in which a
result is shown is the shortest form of the value rounded once.
-/

import Mathlib
import DecimalCalculator.Evaluation.Walk
import DecimalCalculator.Proofs.Decimal.Rounding

namespace DecimalCalculator
namespace Decimal

variable {number : Decimal}

/-! ### Zeros at the end -/

theorem trailingZeros_le (limit : Nat) (number : Int) : trailingZeros limit number ≤ limit := by
  induction limit generalizing number with
  | zero => exact Nat.le_refl 0
  | succ limit ih =>
      rw [trailingZeros]
      split
      · exact Nat.succ_le_succ (ih _)
      · exact Nat.zero_le _

theorem exists_eq_mul_pow_trailingZeros (limit : Nat) (number : Int) :
    ∃ front, number = front * 10 ^ trailingZeros limit number ∧
      (number ≠ 0 → trailingZeros limit number < limit → ¬(10 : Int) ∣ front) := by
  induction limit generalizing number with
  | zero => exact ⟨number, by simp [trailingZeros], fun _ impossible => absurd impossible (by omega)⟩
  | succ limit ih =>
      rw [trailingZeros]
      split
      · rename_i ends
        obtain ⟨rest, rfl⟩ := Int.dvd_of_tmod_eq_zero ends
        rw [Int.mul_tdiv_cancel_left _ (by decide)]
        obtain ⟨front, same, last⟩ := ih rest
        refine ⟨front, ?_, ?_⟩
        · rw [pow_succ, ← mul_assoc, ← same, mul_comm]
        · intro nonzero few
          exact last (by omega) (by omega)
      · rename_i digit
        refine ⟨number, by rw [pow_zero, mul_one], ?_⟩
        exact fun _ _ divides => digit (Int.tmod_eq_zero_of_dvd divides)

/-! ### Reduced forms -/

/-- A form without zeros at the end of the digits after the point. -/
structure IsReduced (number : Decimal) : Prop where
  nonneg : 0 ≤ number.scale
  reduced : 0 < number.scale → ¬(10 : Int) ∣ number.unscaled

theorem exists_strip_eq (nonzero : number.unscaled ≠ 0) (fractional : 0 ≤ number.scale) :
    ∃ zeros : Nat, number.unscaled = number.strip.unscaled * 10 ^ zeros ∧
      number.strip.scale.toInt = number.scale.toInt - zeros ∧ 0 ≤ number.strip.scale.toInt ∧
      (0 < number.strip.scale.toInt → ¬(10 : Int) ∣ number.strip.unscaled) := by
  obtain ⟨front, same, last⟩ :=
    exists_eq_mul_pow_trailingZeros number.scale.toNatClampNeg number.unscaled
  have few := trailingZeros_le number.scale.toNatClampNeg number.unscaled
  have stripped : number.strip = ⟨number.unscaled.tdiv
      (10 ^ trailingZeros number.scale.toNatClampNeg number.unscaled : Nat),
      number.scale - Int64.ofNat (trailingZeros number.scale.toNatClampNeg number.unscaled)⟩ := by
    rw [strip, if_neg nonzero, if_neg (Int64.not_lt.mpr fractional)]
  generalize trailingZeros number.scale.toNatClampNeg number.unscaled = zeros at *
  have nonneg := Int64.le_iff_toInt_le.mp fractional
  have upper := number.scale.toInt_lt
  rw [Int64.toInt_zero] at nonneg
  rw [← Int64.toNat_toInt] at few last
  have places : (number.scale - Int64.ofNat zeros).toInt = number.scale.toInt - zeros := by
    rw [Int64.toInt_sub, Int64.toInt_ofNat_of_lt (by omega)]
    exact Int.bmod_eq_of_le (by omega) (by omega)
  have remaining : number.unscaled.tdiv (10 ^ zeros : Nat) = front := by
    have power : ((10 ^ zeros : Nat) : Int) = 10 ^ zeros := by push_cast; rfl
    rw [power, same]
    exact Int.mul_tdiv_cancel _ (pow_ne_zero _ (by decide))
  rw [stripped]
  simp only [places, remaining]
  refine ⟨zeros, same, rfl, by omega, ?_⟩
  exact fun positive => last nonzero (by omega)

theorem isReduced_strip (number : Decimal) : number.strip.IsReduced := by
  by_cases zero : number.unscaled = 0
  · rw [strip, if_pos zero]
    exact ⟨Int64.le_refl 0, fun positive => absurd positive (by decide)⟩
  · by_cases whole : number.scale < 0
    · rw [strip, if_neg zero, if_pos whole]
      exact ⟨Int64.le_refl 0, fun positive => absurd positive Int64.lt_irrefl⟩
    · obtain ⟨zeros, -, -, nonneg, last⟩ := exists_strip_eq zero (Int64.not_lt.mp whole)
      constructor
      · rwa [Int64.le_iff_toInt_le, Int64.toInt_zero]
      · rwa [Int64.lt_iff_toInt_lt, Int64.toInt_zero]

theorem value_strip (reaches : number.Reaches 0) : number.strip.value = number.value := by
  by_cases zero : number.unscaled = 0
  · rw [value_eq_zero_iff.mpr zero, value_eq_zero_iff, strip, if_pos zero]
    rfl
  · by_cases whole : number.scale < 0
    · have aligned := alignedTo_eq (Int64.le_of_lt whole) reaches
      rw [Int64.toInt_zero, zpow_zero, mul_one] at aligned
      rw [strip, if_neg zero, if_pos whole, ← aligned]
      change (Int.cast (number.alignedTo 0) : ℚ) / 10 ^ (0 : Int64).toInt = _
      rw [Int64.toInt_zero, zpow_zero, div_one]
    · obtain ⟨zeros, same, scale, -, -⟩ := exists_strip_eq zero (Int64.not_lt.mp whole)
      rw [value, value, same, scale, zpow_sub₀ (by norm_num), zpow_natCast]
      push_cast
      field_simp

theorem IsReduced.eq_of_value_eq {left right : Decimal} (first : left.IsReduced)
    (second : right.IsReduced) (same : left.value = right.value) : left = right := by
  wlog order : left.scale.toInt ≤ right.scale.toInt generalizing left right
  · exact (this second first same.symm (Int.le_of_not_le order)).symm
  · obtain ⟨gap, distance⟩ := Int.le.dest order
    have scaled : right.unscaled = left.unscaled * 10 ^ gap := by
      have exact : (right.unscaled : ℚ) = left.unscaled * 10 ^ gap := by
        rw [unscaled_eq, unscaled_eq, same, mul_assoc, ← zpow_natCast, ← zpow_add₀ (by norm_num),
          distance]
      exact_mod_cast exact
    cases gap with
    | zero =>
        rw [pow_zero, mul_one] at scaled
        have scale := Int64.toInt_inj.mp (distance ▸ (add_zero left.scale.toInt).symm)
        exact Decimal.mk.injEq .. ▸ ⟨scaled.symm, scale⟩
    | succ gap =>
        have nonneg := Int64.le_iff_toInt_le.mp first.nonneg
        have positive : 0 < right.scale := by
          rw [Int64.lt_iff_toInt_lt, Int64.toInt_zero]
          rw [Int64.toInt_zero] at nonneg
          omega
        refine absurd ?_ (second.reduced positive)
        rw [scaled, pow_succ, ← mul_assoc]
        exact Int.dvd_mul_left _ _

theorem IsReduced.strip_eq (reduced : number.IsReduced) : number.strip = number :=
  (isReduced_strip number).eq_of_value_eq reduced (value_strip (.of_nonneg reduced.nonneg))

theorem scale_strip_le (fractional : 0 ≤ number.scale) : number.strip.scale ≤ number.scale := by
  by_cases zero : number.unscaled = 0
  · rw [strip, if_pos zero]
    exact fractional
  · obtain ⟨zeros, -, scale, -, -⟩ := exists_strip_eq zero fractional
    rw [Int64.le_iff_toInt_le, scale]
    omega

/-! ### Final forms -/

/-- The value rounded half to even to so many digits after the point. -/
def roundedTo (places : Nat) (value : ℚ) : ℚ :=
  RoundingMode.halfEven.round (value * 10 ^ places) / 10 ^ places

theorem roundedTo_add_small {rest : ℚ} (whole places : Nat) (nonneg : 0 ≤ rest)
    (small : rest < 1 / 10 ^ (places + 1)) : roundedTo places (rest + whole) = whole := by
  have power : (0 : ℚ) < 10 ^ places := pow_pos (by norm_num) _
  have scaled : (rest + whole) * 10 ^ places =
      ((whole * 10 ^ places : Int) : ℚ) + rest * 10 ^ places := by
    push_cast
    ring
  have less : rest * 10 ^ places < 1 / 2 := by
    rw [pow_succ, lt_div_iff₀ (by positivity)] at small
    linarith
  rw [roundedTo, scaled, RoundingMode.round, RoundingMode.nearestOr_add _ _ (by positivity) less]
  push_cast
  exact mul_div_cancel_right₀ _ power.ne'

/-- A reduced form with no more digits after the point than are shown. -/
structure IsCanonical (displayScale : UInt32) (number : Decimal) : Prop extends
    IsReduced number where
  limited : number.scale ≤ Int64.ofNat displayScale.toNat

theorem toInt_displayScale (displayScale : UInt32) :
    (Int64.ofNat displayScale.toNat).toInt = displayScale.toNat := by
  have bound := displayScale.toNat_lt
  exact Int64.toInt_ofNat_of_lt (by omega)

theorem displayScale_nonneg (displayScale : UInt32) : 0 ≤ Int64.ofNat displayScale.toNat := by
  rw [Int64.le_iff_toInt_le, Int64.toInt_zero, toInt_displayScale]
  exact Int.natCast_nonneg _

theorem isCanonical_finalForm (displayScale : UInt32) (number : Decimal) :
    (Evaluation.finalForm displayScale number).IsCanonical displayScale := by
  unfold Evaluation.finalForm
  simp only
  split
  · refine ⟨isReduced_strip _, ?_⟩
    have nonneg : 0 ≤ (number.strip.setScale (Int64.ofNat displayScale.toNat) .halfEven).scale := by
      rw [scale_setScale]
      exact displayScale_nonneg displayScale
    have limited := scale_strip_le nonneg
    rwa [scale_setScale] at limited
  · rename_i limited
    exact ⟨isReduced_strip number, Int64.not_lt.mp limited⟩

theorem value_finalForm_of_setScale (displayScale : UInt32) (reaches : number.Reaches 0)
    (rounds : Int64.ofNat displayScale.toNat < number.strip.scale →
      number.strip.setScale (Int64.ofNat displayScale.toNat) .halfEven =
        ⟨RoundingMode.halfEven.round (number.strip.value * 10 ^ displayScale.toNat),
          Int64.ofNat displayScale.toNat⟩) :
    (Evaluation.finalForm displayScale number).value =
      roundedTo displayScale.toNat number.value := by
  have reached {target : Int64} : number.strip.Reaches target :=
    .of_nonneg (isReduced_strip number).nonneg
  have limit := toInt_displayScale displayScale
  unfold Evaluation.finalForm
  simp only
  split
  · rename_i longer
    rw [rounds longer, value_strip]
    · rw [value_strip reaches]
      change _ / (10 : ℚ) ^ (Int64.ofNat displayScale.toNat).toInt = _
      rw [limit, zpow_natCast]
      rfl
    · exact .of_nonneg (displayScale_nonneg displayScale)
  · rename_i limited
    have aligned := alignedTo_eq (Int64.not_lt.mp limited) reached
    rw [limit, zpow_natCast, value_strip reaches] at aligned
    rw [roundedTo, ← aligned, RoundingMode.round_intCast, aligned, value_strip reaches,
      mul_div_cancel_right₀]
    exact pow_ne_zero _ (by norm_num)

theorem value_finalForm (displayScale : UInt32) (reaches : number.Reaches 0)
    (short : Int64.ofNat displayScale.toNat < number.strip.scale → number.strip.IsShort) :
    (Evaluation.finalForm displayScale number).value =
      roundedTo displayScale.toNat number.value := by
  have limit := toInt_displayScale displayScale
  refine value_finalForm_of_setScale displayScale reaches fun _ => ?_
  rw [setScale_eq .halfEven (.of_nonneg (isReduced_strip number).nonneg)
    fun far => short (lt_scale_of_far far), limit, zpow_natCast]

/-- The same for a number of any length, as long as a power of ten has so many digits as are
dropped. -/
theorem value_finalForm_of_written (displayScale : UInt32) (fractional : 0 ≤ number.scale)
    (written : number.scale.toInt ≤ displayScale.toNat + largestExponent) :
    (Evaluation.finalForm displayScale number).value =
      roundedTo displayScale.toNat number.value := by
  have limit := toInt_displayScale displayScale
  refine value_finalForm_of_setScale displayScale (.of_nonneg fractional) fun longer => ?_
  have shorter := Int64.le_iff_toInt_le.mp (scale_strip_le fractional)
  rw [setScale_eq_of_written .halfEven longer (by omega), limit, zpow_natCast]

end Decimal
end DecimalCalculator
