/-
Euclid's algorithm on decimals of different scales.

No step changes the finer of the two scales, and in units of this scale a step is one on
natural numbers.  So the result, in these units, is the greatest common divisor of two
natural numbers, and its scale is that of an operand.
-/

import Mathlib
import DecimalCalculator.Arithmetic.Divisor
import DecimalCalculator.Proofs.Decimal.Checked

namespace DecimalCalculator
namespace Decimal
namespace Magnitude

variable {left right : Magnitude}

/-! ### The end of the algorithm -/

theorem sign_of_isZero (zero : left.number.isZero = true) : left.number.sign = 0 := by
  rw [sign, beq_iff_eq.mp zero, Int.sign_zero]

theorem sign_of_not_isZero (nonzero : left.number.isZero = false) : left.number.sign = 1 := by
  have whole : left.number.unscaled ≠ 0 := beq_eq_false_iff_ne.mp nonzero
  exact Int.sign_eq_one_of_pos (lt_of_le_of_ne left.nonneg whole.symm)

theorem alignedTo_of_isZero (zero : left.number.isZero = true) (target : Int64) :
    left.number.alignedTo target = 0 := by
  have whole : left.number.unscaled = 0 := beq_iff_eq.mp zero
  rw [alignedTo, if_pos (Or.inr whole), whole]

theorem commonDivisor_of_left (zero : left.number.isZero = true) :
    left.commonDivisor right = right.number := by
  have order : ¬right.number < left.number := by
    change ¬Decimal.compare _ _ = .lt
    cases nothing : right.number.isZero with
    | true =>
        rw [Decimal.compare, sign_of_isZero zero, sign_of_isZero nothing,
          if_neg (not_not.mpr rfl), alignedTo_of_isZero zero, alignedTo_of_isZero nothing]
        decide
    | false =>
        rw [Decimal.compare, sign_of_isZero zero, sign_of_not_isZero nothing, if_pos one_ne_zero]
        decide
  rw [commonDivisor, dif_pos (Or.inl zero), larger, if_neg order]

theorem commonDivisor_of_right (nonzero : left.number.isZero = false)
    (zero : right.number.isZero = true) : left.commonDivisor right = left.number := by
  have order : right.number < left.number := by
    change Decimal.compare _ _ = .lt
    rw [Decimal.compare, sign_of_isZero zero, sign_of_not_isZero nonzero, if_pos zero_ne_one]
    decide
  rw [commonDivisor, dif_pos (Or.inr zero), larger, if_pos order]

theorem commonDivisor_of_ended (ended : left.number.isZero = true ∨ right.number.isZero = true) :
    left.commonDivisor right = right.number ∧ left.number.isZero = true ∨
      left.commonDivisor right = left.number ∧ right.number.isZero = true := by
  cases zero : left.number.isZero with
  | true => exact Or.inl ⟨commonDivisor_of_left zero, rfl⟩
  | false =>
      have nothing := ended.resolve_left (by rw [zero]; exact Bool.false_ne_true)
      exact Or.inr ⟨commonDivisor_of_right zero nothing, nothing⟩

/-! ### Runs of the algorithm -/

theorem nonneg_commonDivisor (left right : Magnitude) : 0 ≤ (left.commonDivisor right).unscaled := by
  induction left, right using commonDivisor.induct with
  | case1 left right ended =>
      rcases commonDivisor_of_ended ended with ⟨result, -⟩ | ⟨result, -⟩
      · rw [result]
        exact right.nonneg
      · rw [result]
        exact left.nonneg
  | case2 left right going above ih => rwa [commonDivisor, dif_neg going, dif_pos above]
  | case3 left right going other ih => rwa [commonDivisor, dif_neg going, dif_neg other]

theorem scale_commonDivisor (left right : Magnitude) :
    (left.commonDivisor right).scale = left.number.scale ∨
      (left.commonDivisor right).scale = right.number.scale := by
  have finer (left right : Magnitude) : left.number.commonScale right.number = left.number.scale ∨
      left.number.commonScale right.number = right.number.scale := by
    rw [← Int64.toInt_inj, ← Int64.toInt_inj, toInt_commonScale]
    exact max_choice _ _
  induction left, right using commonDivisor.induct with
  | case1 left right ended =>
      rcases commonDivisor_of_ended ended with ⟨result, -⟩ | ⟨result, -⟩
      · exact Or.inr (congrArg Decimal.scale result)
      · exact Or.inl (congrArg Decimal.scale result)
  | case2 left right going above ih =>
      rw [commonDivisor, dif_neg going, dif_pos above]
      rcases ih with rest | divisor
      · rw [scale_rest] at rest
        exact (finer left right).imp rest.trans rest.trans
      · exact Or.inr divisor
  | case3 left right going other ih =>
      rw [commonDivisor, dif_neg going, dif_neg other]
      rcases ih with divisor | rest
      · exact Or.inl divisor
      · rw [scale_rest] at rest
        exact (finer right left).symm.imp rest.trans rest.trans

theorem natAbs_alignedTo_commonDivisor (left right : Magnitude) :
    ((left.commonDivisor right).alignedTo (left.number.commonScale right.number)).natAbs =
      (left.unitsBeside right).gcd (right.unitsBeside left) := by
  induction left, right using commonDivisor.induct with
  | case1 left right ended =>
      rcases commonDivisor_of_ended ended with ⟨result, zero⟩ | ⟨result, zero⟩
      · rw [result, unitsBeside, alignedTo_of_isZero zero, Int.natAbs_zero, Nat.gcd_zero_left,
          unitsBeside, commonScale_comm]
      · rw [result, unitsBeside, unitsBeside, alignedTo_of_isZero zero, Int.natAbs_zero,
          Nat.gcd_zero_right]
  | case2 left right going above ih =>
      rw [commonScale_rest, unitsBeside_rest, unitsBeside_of_rest] at ih
      rw [commonDivisor, dif_neg going, dif_pos above, ih, ← Nat.gcd_rec, Nat.gcd_comm]
  | case3 left right going other ih =>
      rw [commonScale_comm, commonScale_rest, commonScale_comm, unitsBeside_rest,
        unitsBeside_of_rest] at ih
      rw [commonDivisor, dif_neg going, dif_neg other, ih, Nat.gcd_comm, ← Nat.gcd_rec]

/-! ### Runs within the words -/

theorem aligned_rest (aligned : Aligned left.number right.number) :
    Aligned (left.rest right).number right.number := by
  refine ⟨Or.inr ?_, ?_⟩
  · rw [commonScale_rest, scale_rest, sub_self]
    decide
  · rw [commonScale_rest]
    exact aligned.second

theorem checkedDivisor_of_aligned (aligned : Aligned left.number right.number) :
    left.checkedDivisor right = .ok (left.commonDivisor right) := by
  induction left, right using commonDivisor.induct with
  | case1 left right ended => rw [checkedDivisor, commonDivisor, dif_pos ended, dif_pos ended]
  | case2 left right going above ih =>
      rw [checkedDivisor, commonDivisor, dif_neg going, dif_neg going, if_neg (not_not.mpr aligned),
        dif_pos above, dif_pos above, ih (aligned_rest aligned)]
  | case3 left right going other ih =>
      rw [checkedDivisor, commonDivisor, dif_neg going, dif_neg going, if_neg (not_not.mpr aligned),
        dif_neg other, dif_neg other, ih (aligned_rest aligned.symm).symm]

theorem checkedDivisor_eq (left right : Magnitude) :
    left.checkedDivisor right =
      unlessOverflow (left.number.isZero = true ∨ right.number.isZero = true ∨
        Aligned left.number right.number) (left.commonDivisor right) := by
  by_cases ended : left.number.isZero = true ∨ right.number.isZero = true
  · rw [unlessOverflow_of (or_assoc.mp (Or.inl ended)), checkedDivisor, commonDivisor,
      dif_pos ended, dif_pos ended]
  · by_cases aligned : Aligned left.number right.number
    · rw [unlessOverflow_of (Or.inr (Or.inr aligned)), checkedDivisor_of_aligned aligned]
    · rw [unlessOverflow_of_not fun either => (or_assoc.mpr either).elim ended aligned,
        checkedDivisor, dif_neg ended, if_pos aligned]

end Magnitude

/-! ### Divisors of numbers of either sign -/

variable {left right : Decimal}

theorem natAbs_alignedTo_abs (number : Decimal) (target : Int64) :
    (number.abs.alignedTo target).natAbs = (number.alignedTo target).natAbs := by
  by_cases unmoved : target ≤ number.scale ∨ number.unscaled = 0
  · have unmoved' : target ≤ number.abs.scale ∨ number.abs.unscaled = 0 :=
      unmoved.imp_right fun zero => Int.natCast_eq_zero.mpr (Int.natAbs_eq_zero.mpr zero)
    rw [alignedTo, alignedTo, if_pos unmoved, if_pos unmoved']
    exact Int.natAbs_natCast _
  · have moved : ¬(target ≤ number.abs.scale ∨ number.abs.unscaled = 0) := by
      refine mt (Or.imp_right fun zero => ?_) unmoved
      exact Int.natAbs_eq_zero.mp (Int.natCast_eq_zero.mp zero)
    rw [alignedTo, alignedTo, if_neg unmoved, if_neg moved, Int.natAbs_mul, Int.natAbs_mul]
    rfl

theorem nonneg_gcd (left right : Decimal) : 0 ≤ (left.gcd right).unscaled :=
  Magnitude.nonneg_commonDivisor left.magnitude right.magnitude

theorem scale_gcd (left right : Decimal) :
    (left.gcd right).scale = left.scale ∨ (left.gcd right).scale = right.scale :=
  Magnitude.scale_commonDivisor left.magnitude right.magnitude

theorem natAbs_alignedTo_gcd (left right : Decimal) :
    ((left.gcd right).alignedTo (left.commonScale right)).natAbs =
      (left.alignedTo (left.commonScale right)).natAbs.gcd
        (right.alignedTo (left.commonScale right)).natAbs := by
  have units := Magnitude.natAbs_alignedTo_commonDivisor left.magnitude right.magnitude
  rw [Magnitude.unitsBeside, Magnitude.unitsBeside, commonScale_comm right.magnitude.number] at units
  rw [← natAbs_alignedTo_abs left, ← natAbs_alignedTo_abs right]
  exact units

end Decimal
end DecimalCalculator
