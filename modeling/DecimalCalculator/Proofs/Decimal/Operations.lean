/-
Operations on numbers as operations on their values.

Sums, differences and products are exact, the comparison is the order of the values, and a
remainder is what whole divisors leave of the dividend, as long as no scale and no distance
of two scales leaves the words.  The forms of the operands do not enter into any of them.
-/

import Mathlib
import DecimalCalculator.Arithmetic.Divisor
import DecimalCalculator.Proofs.Decimal.Forms

namespace DecimalCalculator

/-! ### Whole divisors -/

namespace RoundingMode

theorem down_quotient (dividend divisor : Int) :
    down.quotient dividend divisor = dividend.tdiv divisor := by
  simp only [quotient, leavesTruncation, Bool.false_eq_true, if_false, ite_self]

theorem down_round_div (dividend : Int) {divisor : Int} (nonzero : divisor ≠ 0) :
    down.round (dividend / divisor : ℚ) = dividend.tdiv divisor := by
  rw [← quotient_eq_round down dividend nonzero, down_quotient]

end RoundingMode

/-- What is left of a dividend when the whole divisors in it are taken away: closer to zero
than the divisor, and on the side of the dividend. -/
structure IsRemainder (dividend divisor rest : ℚ) : Prop where
  whole : dividend = divisor * RoundingMode.down.round (dividend / divisor) + rest
  smaller : |rest| < |divisor|
  side : rest = 0 ∨ SignType.sign rest = SignType.sign dividend

namespace IsRemainder

variable {unit : ℚ} {dividend divisor : Int}

theorem sign_tmod (dividend divisor : Int) :
    dividend.tmod divisor = 0 ∨
      SignType.sign (dividend.tmod divisor) = SignType.sign dividend := by
  rcases lt_trichotomy dividend 0 with negative | rfl | positive
  · have opposite : 0 ≤ (-dividend).tmod divisor := Int.tmod_nonneg divisor (by omega)
    rw [Int.neg_tmod] at opposite
    rcases opposite.lt_or_eq with below | zero
    · exact Or.inr (by rw [sign_neg negative, sign_neg (by omega)])
    · exact Or.inl (by omega)
  · exact Or.inl (Int.zero_tmod divisor)
  · rcases (Int.tmod_nonneg divisor positive.le).lt_or_eq with above | zero
    · exact Or.inr (by rw [sign_pos positive, sign_pos above])
    · exact Or.inl zero.symm

theorem sign_intCast_div (positive : 0 < unit) (units : Int) :
    SignType.sign (units / unit : ℚ) = SignType.sign units := by
  rw [div_eq_mul_inv, sign_mul, sign_pos (inv_pos.mpr positive), mul_one, sign_intCast]

theorem of_units (positive : 0 < unit) (nonzero : divisor ≠ 0) :
    IsRemainder (dividend / unit) (divisor / unit) ((dividend.tmod divisor : Int) / unit) := by
  have exact : (dividend : ℚ) =
      divisor * (dividend.tdiv divisor : Int) + (dividend.tmod divisor : Int) := by
    exact_mod_cast (Int.mul_tdiv_add_tmod dividend divisor).symm
  constructor
  · rw [div_div_div_cancel_right₀ positive.ne', RoundingMode.down_round_div _ nonzero,
      div_mul_eq_mul_div, ← add_div, ← exact]
  · have below : |dividend.tmod divisor| < |divisor| := by
      rw [Int.abs_eq_natAbs, Int.abs_eq_natAbs, Int.natAbs_tmod]
      exact_mod_cast Nat.mod_lt _ (Int.natAbs_pos.mpr nonzero)
    rw [abs_div, abs_div]
    exact div_lt_div_of_pos_right (by exact_mod_cast below) (abs_pos.mpr positive.ne')
  · rw [sign_intCast_div positive, sign_intCast_div positive]
    refine (sign_tmod dividend divisor).imp_left fun zero => ?_
    rw [zero, Int.cast_zero, zero_div]

end IsRemainder

namespace Decimal

variable {left right third : Decimal}

theorem Aligned.value_left_eq (aligned : Aligned left right) :
    left.value =
      left.alignedTo (left.commonScale right) / 10 ^ (left.commonScale right).toInt := by
  rw [aligned.left_eq, mul_div_cancel_right₀]
  exact zpow_ne_zero _ (by norm_num)

theorem Aligned.value_right_eq (aligned : Aligned left right) :
    right.value =
      right.alignedTo (left.commonScale right) / 10 ^ (left.commonScale right).toInt := by
  rw [aligned.right_eq, mul_div_cancel_right₀]
  exact zpow_ne_zero _ (by norm_num)

theorem isRemainder_rest (nonzero : right.value ≠ 0) (aligned : Aligned left right) :
    IsRemainder left.value right.value (left.rest right).value := by
  have whole : right.alignedTo (left.commonScale right) ≠ 0 :=
    alignedTo_ne_zero (mt value_eq_zero_iff.mpr nonzero) _
  rw [aligned.value_left_eq, aligned.value_right_eq]
  exact .of_units (zpow_pos (by norm_num) _) whole

/-! ### Order -/

/-- The comparison of two numbers is that of their values: it finds them equal exactly if they
are two forms of one number, which is if neither is less than the other. -/
structure OrderedAsValues (left right : Decimal) : Prop where
  compare : left.compare right = cmp left.value right.value
  equal : left.sameValue right = true ↔ left.value = right.value
  less : left < right ↔ left.value < right.value
  atMost : left ≤ right ↔ left.value ≤ right.value
  total : left ≤ right ∨ right ≤ left
  antisymm : left.sameValue right = true ↔ left ≤ right ∧ right ≤ left

theorem Comparable.orderedAsValues (comparable : Comparable left right) :
    OrderedAsValues left right := by
  refine ⟨compare_eq comparable, sameValue_iff comparable, lt_iff_value_lt comparable,
    le_iff_value_le comparable, ?_, ?_⟩
  · rw [le_iff_value_le comparable, le_iff_value_le comparable.symm]
    exact le_total left.value right.value
  · rw [sameValue_iff comparable, le_iff_value_le comparable, le_iff_value_le comparable.symm]
    exact le_antisymm_iff

theorem le_trans_of_comparable (first : Comparable left right) (second : Comparable right third)
    (both : Comparable left third) (below : left ≤ right) (above : right ≤ third) :
    left ≤ third := by
  rw [le_iff_value_le first] at below
  rw [le_iff_value_le second] at above
  rw [le_iff_value_le both]
  exact below.trans above

theorem exists_remainder (nonzero : right.value ≠ 0) (aligned : Aligned left right) :
    ∃ rest, left.remainder right = .ok rest ∧ IsRemainder left.value right.value rest.value := by
  refine ⟨left.rest right, ?_, isRemainder_rest nonzero aligned⟩
  rw [remainder, isZero_eq_false_iff.mpr nonzero]
  exact unlessOverflow_of aligned

/-! ### All operations -/

/-- Arithmetic is that of the rational numbers and the order is theirs, as long as the words
hold the distances of the scales and the scale of a product. -/
theorem operations_exact (left right : Decimal) :
    (Aligned left right → (left + right).value = left.value + right.value ∧
        (left - right).value = left.value - right.value) ∧
      (IsWord (left.scale.toInt + right.scale.toInt) →
        (left * right).value = left.value * right.value) ∧
      (-left).value = -left.value ∧ left.abs.value = |left.value| ∧
      (Comparable left right → OrderedAsValues left right) ∧
      (∀ third, Comparable left right → Comparable right third → Comparable left third →
        left ≤ right → right ≤ third → left ≤ third) ∧
      (right.value = 0 → left.remainder right = .error .divisionByZero) ∧
      (right.value ≠ 0 → Aligned left right →
        ∃ rest, left.remainder right = .ok rest ∧
          IsRemainder left.value right.value rest.value) := by
  refine ⟨fun aligned => ⟨value_add aligned, value_sub aligned⟩, value_mul, value_neg left,
    value_abs left, Comparable.orderedAsValues, fun _ => le_trans_of_comparable, ?_,
    exists_remainder⟩
  intro zero
  rw [remainder, isZero_iff.mpr zero]
  rfl

theorem operations_exact_mixed_scales :
    Aligned ⟨-75, -1⟩ ⟨35, 1⟩ ∧ IsWord ((-1 : Int64).toInt + (1 : Int64).toInt) ∧
      Comparable ⟨-75, -1⟩ ⟨35, 1⟩ ∧ (⟨35, 1⟩ : Decimal).value ≠ 0 ∧
      ((⟨-75, -1⟩ : Decimal) - ⟨35, 1⟩).value = -(1507 / 2) ∧
      ((⟨-75, -1⟩ : Decimal) * ⟨35, 1⟩).value = -2625 ∧
      OrderedAsValues ⟨-75, -1⟩ ⟨35, 1⟩ ∧ (⟨-75, -1⟩ : Decimal) ≤ ⟨350, 2⟩ ∧
      remainder ⟨-75, -1⟩ ⟨35, 1⟩ = .ok ⟨-10, 1⟩ ∧ IsRemainder (-750) (7 / 2) (-1) := by
  have first : (⟨-75, -1⟩ : Decimal).value = -750 := by
    change ((-75 : Int) : ℚ) / 10 ^ (-1 : Int) = _
    norm_num
  have second : (⟨35, 1⟩ : Decimal).value = 7 / 2 := by
    change ((35 : Int) : ℚ) / 10 ^ (1 : Int) = _
    norm_num
  have left : (⟨-10, 1⟩ : Decimal).value = -1 := by
    change ((-10 : Int) : ℚ) / 10 ^ (1 : Int) = _
    norm_num
  have nonzero : (⟨35, 1⟩ : Decimal).value ≠ 0 := by
    rw [second]
    norm_num
  have aligned : Aligned ⟨-75, -1⟩ ⟨35, 1⟩ := by decide
  have word : IsWord ((-1 : Int64).toInt + (1 : Int64).toInt) := by decide
  have comparable : Comparable ⟨-75, -1⟩ ⟨35, 1⟩ := fun _ => aligned
  have divided : remainder ⟨-75, -1⟩ ⟨35, 1⟩ = .ok ⟨-10, 1⟩ := by rfl
  obtain ⟨sums, products, -, -, order, transitive, -, rests⟩ := operations_exact ⟨-75, -1⟩ ⟨35, 1⟩
  have ordered := order comparable
  obtain ⟨rest, reached, isRemainder⟩ := rests nonzero aligned
  rw [divided, Except.ok.injEq] at reached
  rw [← reached, first, second, left] at isRemainder
  refine ⟨aligned, word, comparable, nonzero, ?_, ?_, ordered, ?_, divided, isRemainder⟩
  · rw [(sums aligned).2, first, second]
    norm_num
  · rw [products word, first, second]
    norm_num
  · refine transitive ⟨350, 2⟩ comparable (fun _ => by decide) (fun _ => by decide) ?_ (by rfl)
    rw [ordered.atMost, first, second]
    norm_num

end Decimal
end DecimalCalculator
