/-
The rational number that a decimal number stands for.

Sums, differences and products are exact as long as no scale and no distance of
scales that they form leaves the signed 64-bit words.
-/

import Mathlib
import DecimalCalculator.Decimal.Basic

namespace DecimalCalculator
namespace Decimal

variable {left right number : Decimal} {target : Int64}

def value (number : Decimal) : ℚ :=
  number.unscaled / 10 ^ number.scale.toInt

/-! ### Words -/

/-- The scale of the number is one that a signed 32-bit word holds. -/
structure HasNarrowScale (number : Decimal) : Prop where
  lower : -2 ^ 31 ≤ number.scale.toInt
  upper : number.scale.toInt < 2 ^ 31

instance (number : Decimal) : Decidable number.HasNarrowScale :=
  decidable_of_iff (-2 ^ 31 ≤ number.scale.toInt ∧ number.scale.toInt < 2 ^ 31)
    ⟨fun both => ⟨both.1, both.2⟩, fun narrow => ⟨narrow.lower, narrow.upper⟩⟩

theorem toInt_add_of_isWord {first second : Int64} (word : IsWord (first.toInt + second.toInt)) :
    (first + second).toInt = first.toInt + second.toInt := by
  rw [Int64.toInt_add]
  exact Int.bmod_eq_of_le (by simpa using word.1) (by simpa using word.2)

/-! ### Values -/

theorem value_eq_zero_iff : number.value = 0 ↔ number.unscaled = 0 := by
  have power : (10 : ℚ) ^ number.scale.toInt ≠ 0 := zpow_ne_zero _ (by norm_num)
  rw [value, div_eq_zero_iff, or_iff_left power, Int.cast_eq_zero]

theorem value_ofInt (integer : Int) : (ofInt integer).value = integer := by
  change (integer : ℚ) / 10 ^ (0 : Int) = integer
  rw [zpow_zero, div_one]

theorem value_one : (1 : Decimal).value = 1 := by
  change ((1 : Int) : ℚ) / 10 ^ (0 : Int) = 1
  norm_num

theorem unscaled_eq (number : Decimal) :
    (number.unscaled : ℚ) = number.value * 10 ^ number.scale.toInt := by
  rw [value, div_mul_cancel₀]
  exact zpow_ne_zero _ (by norm_num)

theorem sign_value (number : Decimal) :
    SignType.sign number.value = SignType.sign number.unscaled := by
  rw [value, div_eq_mul_inv, sign_mul, sign_pos (inv_pos.mpr (zpow_pos (by norm_num) _)), mul_one,
    sign_intCast]

theorem value_neg (number : Decimal) : (-number).value = -number.value := by
  change (Int.cast (-number.unscaled) : ℚ) / _ = _
  rw [Int.cast_neg, neg_div]
  rfl

theorem value_mul (word : IsWord (left.scale.toInt + right.scale.toInt)) :
    (left * right).value = left.value * right.value := by
  change (Int.cast (left.unscaled * right.unscaled) : ℚ) / 10 ^ (left.scale + right.scale).toInt = _
  rw [toInt_add_of_isWord word, Int.cast_mul, zpow_add₀ (by norm_num), mul_div_mul_comm]
  rfl

/-! ### Alignment -/

theorem toNatClampNeg_sub (finer : number.scale ≤ target)
    (near : target.toInt - number.scale.toInt < 2 ^ 63) :
    ((target - number.scale).toNatClampNeg : Int) = target.toInt - number.scale.toInt := by
  have order := Int64.le_iff_toInt_le.mp finer
  have difference : (target - number.scale).toInt = target.toInt - number.scale.toInt := by
    rw [Int64.toInt_sub]
    exact Int.bmod_eq_of_le (by omega) (by omega)
  rw [← Int64.toNat_toInt, difference]
  omega

theorem alignedTo_eq (finer : number.scale ≤ target) (reaches : number.Reaches target) :
    (number.alignedTo target : ℚ) = number.value * 10 ^ target.toInt := by
  unfold alignedTo
  split
  · rename_i unchanged
    rcases unchanged with coarser | zero
    · rw [Int64.le_antisymm coarser finer, ← unscaled_eq]
    · rw [value_eq_zero_iff.mpr zero, zero, Int.cast_zero, zero_mul]
  · rename_i moved
    have near := reaches.resolve_left fun zero => moved (Or.inr zero)
    rw [Int.cast_mul, unscaled_eq, mul_assoc, Int.cast_natCast, Nat.cast_pow, ← zpow_natCast,
      toNatClampNeg_sub finer near, Nat.cast_ofNat, ← zpow_add₀ (by norm_num), add_sub_cancel]

theorem Reaches.of_nonneg (nonneg : 0 ≤ number.scale) : number.Reaches target := by
  have upper := target.toInt_lt
  rw [Int64.le_iff_toInt_le, Int64.toInt_zero] at nonneg
  exact Or.inr (by omega)

theorem toInt_max (first second : Int64) :
    (max first second).toInt = max first.toInt second.toInt := by
  change (if first ≤ second then second else first).toInt = _
  split
  · rename_i finer
    rw [max_eq_right (Int64.le_iff_toInt_le.mp finer)]
  · rename_i coarser
    rw [max_eq_left (Int64.lt_iff_toInt_lt.mp (Int64.not_le.mp coarser)).le]

theorem toInt_commonScale (left right : Decimal) :
    (left.commonScale right).toInt = max left.scale.toInt right.scale.toInt :=
  toInt_max left.scale right.scale

namespace Aligned

theorem left_eq (aligned : Aligned left right) :
    (left.alignedTo (left.commonScale right) : ℚ) =
      left.value * 10 ^ (left.commonScale right).toInt := by
  refine alignedTo_eq ?_ aligned.first
  rw [Int64.le_iff_toInt_le, toInt_commonScale]
  exact le_max_left _ _

theorem right_eq (aligned : Aligned left right) :
    (right.alignedTo (left.commonScale right) : ℚ) =
      right.value * 10 ^ (left.commonScale right).toInt := by
  refine alignedTo_eq ?_ aligned.second
  rw [Int64.le_iff_toInt_le, toInt_commonScale]
  exact le_max_right _ _

end Aligned

theorem Aligned.symm (aligned : Aligned left right) : Aligned right left := by
  constructor
  · rw [commonScale_comm]
    exact aligned.second
  · rw [commonScale_comm]
    exact aligned.first

theorem value_add (aligned : Aligned left right) :
    (left + right).value = left.value + right.value := by
  change (Int.cast (left.alignedTo _ + right.alignedTo _) : ℚ) /
    10 ^ (left.commonScale right).toInt = _
  rw [Int.cast_add, aligned.left_eq, aligned.right_eq, ← add_mul, mul_div_cancel_right₀]
  exact zpow_ne_zero _ (by norm_num)

theorem value_sub (aligned : Aligned left right) :
    (left - right).value = left.value - right.value := by
  change (Int.cast (left.alignedTo _ - right.alignedTo _) : ℚ) /
    10 ^ (left.commonScale right).toInt = _
  rw [Int.cast_sub, aligned.left_eq, aligned.right_eq, ← sub_mul, mul_div_cancel_right₀]
  exact zpow_ne_zero _ (by norm_num)

/-! ### Powers -/

theorem power_eq (base : Decimal) (exponent : Nat) :
    base.power exponent = ⟨base.unscaled ^ exponent, base.scale * Int64.ofNat exponent⟩ := by
  induction exponent using Nat.strong_induction_on with
  | _ exponent ih =>
      rw [power]
      split
      · rename_i none
        rw [none, pow_zero]
        exact congrArg (Decimal.mk 1) Int64.mul_zero.symm
      · rename_i some
        simp only [ih (exponent / 2) (by omega)]
        split
        · have whole : exponent = exponent / 2 + exponent / 2 := by omega
          change Decimal.mk (_ * _) (_ + _) = _
          rw [← pow_add, ← Int64.mul_add, ← Int64.ofNat_add, ← whole]
        · have whole : exponent = exponent / 2 + exponent / 2 + 1 := by omega
          change Decimal.mk (_ * _ * base.unscaled) (_ + _ + base.scale) = _
          have scale : base.scale * Int64.ofNat (exponent / 2 + exponent / 2) + base.scale =
              base.scale * Int64.ofNat (exponent / 2 + exponent / 2 + 1) := by
            rw [Int64.ofNat_add _ 1, Int64.mul_add]
            exact congrArg _ (Int64.mul_one _).symm
          rw [← pow_add, ← pow_succ, ← Int64.mul_add, ← Int64.ofNat_add, scale, ← whole]

theorem value_mul_hundredths {count : Nat} (word : number.scale.toInt + 2 * count < 2 ^ 63) :
    (number * (⟨1, 2⟩ : Decimal).power count).value = number.value / 100 ^ count := by
  have lower := number.scale.le_toInt
  have places : number.scale + 2 * Int64.ofNat count =
      Int64.ofInt (number.scale.toInt + 2 * count) := by
    rw [Int64.ofInt_add, Int64.ofInt_mul, Int64.ofInt_toInt, Int64.ofInt_eq_ofNat]
    rfl
  have scale : (number.scale + 2 * Int64.ofNat count).toInt = number.scale.toInt + 2 * count := by
    rw [places]
    exact Int64.toInt_ofInt_of_le (by omega) word
  have hundred : (10 : ℚ) ^ (2 * count : Int) = 100 ^ count := by
    rw [zpow_mul, zpow_natCast]
    norm_num
  rw [power_eq]
  change (Int.cast (number.unscaled * 1 ^ count) : ℚ) /
    10 ^ (number.scale + 2 * Int64.ofNat count).toInt = _
  rw [one_pow, mul_one, scale, zpow_add₀ (by norm_num), hundred, ← div_div]
  rfl

theorem value_unit (scale : Int64) (positive : 0 < scale.toInt) :
    0 < (⟨1, scale⟩ : Decimal).value ∧ (⟨1, scale⟩ : Decimal).value ≤ 1 / 10 := by
  have power : (10 : ℚ) ^ (1 : Int) ≤ 10 ^ scale.toInt :=
    zpow_le_zpow_right₀ (by norm_num) positive
  have value : (⟨1, scale⟩ : Decimal).value = 1 / 10 ^ scale.toInt := by
    change ((1 : Int) : ℚ) / 10 ^ scale.toInt = _
    rw [Int.cast_one]
  rw [value]
  exact ⟨by positivity, one_div_le_one_div_of_le (by norm_num) (by simpa using power)⟩

end Decimal
end DecimalCalculator
