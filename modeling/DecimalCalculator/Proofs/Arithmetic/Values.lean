/-
Factorials, divisors and sums of values.
-/

import Mathlib
import DecimalCalculator.Arithmetic.Divisor
import DecimalCalculator.Arithmetic.Factorial
import DecimalCalculator.Proofs.Arithmetic.Euclid
import DecimalCalculator.Proofs.Decimal.Forms

namespace DecimalCalculator
namespace Decimal

variable {left right left' right' number number' : Decimal}

/-! ### Factorials -/

theorem toInt64?_concur (same : number.value = number'.value)
    (short : 0 < number.scale → number.IsShort) (short' : 0 < number'.scale → number'.IsShort) :
    Concur Eq (Checked.toInt64? number) (Checked.toInt64? number') := by
  refine .checked fun meets meets' => ?_
  by_cases integer : ∃ whole : Int, number.value = whole
  · have near := meets ((isInteger_iff short).mpr integer)
    have near' := meets' ((isInteger_iff short').mpr (same ▸ integer))
    exact toInt64?_congr same ⟨near.1, near.2, short⟩ ⟨near'.1, near'.2, short'⟩
  · have fraction := mt (isInteger_iff short).mp integer
    have fraction' := mt (isInteger_iff short').mp (same ▸ integer)
    rw [toInt64?, toInt64?, if_neg fraction, if_neg fraction']

theorem factorial_concur (step : Nat) (same : number.value = number'.value)
    (short : 0 < number.scale → number.IsShort) (short' : 0 < number'.scale → number'.IsShort) :
    Concur Eq (number.factorial step) (number'.factorial step) := by
  rw [factorial, factorial]
  refine (Checked.isLess_concur rfl same).bind_eq fun above _ _ => ?_
  cases above with
  | true => exact .error rfl
  | false =>
      refine (toInt64?_concur same short short').bind_eq fun found _ _ => ?_
      cases found with
      | none => exact .error rfl
      | some value =>
          by_cases negative : value < 0
          · simp only [negative, ↓reduceIte]
            exact .error rfl
          · simp only [negative, ↓reduceIte]
            exact .ok rfl

/-! ### Divisors -/

def GcdFits (left right : Decimal) : Prop :=
  left.value ≠ 0 → right.value ≠ 0 → Aligned left right

instance (left right : Decimal) : Decidable (GcdFits left right) :=
  decidable_of_iff (left.isZero = false → right.isZero = false → Aligned left right) (by
    rw [isZero_eq_false_iff, isZero_eq_false_iff]
    rfl)

theorem natAbs_alignedTo {target : Int64}
    (exact : (number.alignedTo target : ℚ) = number.value * 10 ^ target.toInt) :
    ((number.alignedTo target).natAbs : ℚ) = |number.value| * 10 ^ target.toInt := by
  rw [Nat.cast_natAbs, Int.cast_abs, exact, abs_mul,
    abs_of_pos (zpow_pos (by norm_num : (0 : ℚ) < 10) target.toInt)]

theorem value_gcd (first : left.value ≠ 0) (second : right.value ≠ 0)
    (aligned : Aligned left right) :
    (left.gcd right).value =
      ((left.alignedTo (left.commonScale right)).natAbs.gcd
        (right.alignedTo (left.commonScale right)).natAbs : Nat) /
          10 ^ (left.commonScale right).toInt := by
  have unit : (10 : ℚ) ^ (left.commonScale right).toInt ≠ 0 := zpow_ne_zero _ (by norm_num)
  have common := toInt_commonScale left right
  have exact : ((left.gcd right).alignedTo (left.commonScale right) : ℚ) =
      (left.gcd right).value * 10 ^ (left.commonScale right).toInt := by
    rcases scale_gcd left right with same | same
    · refine alignedTo_eq ?_ ?_
      · rw [same, Int64.le_iff_toInt_le, common]
        exact le_max_left _ _
      · have near := aligned.first.resolve_left (mt value_eq_zero_iff.mpr first)
        exact Or.inr (same ▸ near)
    · refine alignedTo_eq ?_ ?_
      · rw [same, Int64.le_iff_toInt_le, common]
        exact le_max_right _ _
      · have near := aligned.second.resolve_left (mt value_eq_zero_iff.mpr second)
        exact Or.inr (same ▸ near)
  have size := natAbs_alignedTo exact
  rw [natAbs_alignedTo_gcd, abs_of_nonneg (value_nonneg_iff.mpr (nonneg_gcd left right))] at size
  rw [size, mul_div_cancel_right₀ _ unit]

theorem isZero_abs (number : Decimal) : number.abs.isZero = number.isZero := by
  rw [Bool.eq_iff_iff, isZero_iff, isZero_iff, value_abs, abs_eq_zero]

theorem gcd_of_zero_left (zero : left.value = 0) : left.gcd right = right.abs := by
  refine Magnitude.commonDivisor_of_left ?_
  change left.abs.isZero = true
  rw [isZero_abs, isZero_iff.mpr zero]

theorem gcd_of_zero_right (first : left.value ≠ 0) (zero : right.value = 0) :
    left.gcd right = left.abs := by
  refine Magnitude.commonDivisor_of_right ?_ ?_
  · change left.abs.isZero = false
    rw [isZero_abs, isZero_eq_false_iff.mpr first]
  · change right.abs.isZero = true
    rw [isZero_abs, isZero_iff.mpr zero]

theorem Checked.gcd_eq (left right : Decimal) :
    Checked.gcd left right =
      unlessOverflow (left.isZero = true ∨ right.isZero = true ∨ Aligned left right)
        (left.gcd right) := by
  refine (Magnitude.checkedDivisor_eq left.magnitude right.magnitude).trans ?_
  refine unlessOverflow_congr ?_ fun _ => rfl
  change left.abs.isZero = true ∨ right.abs.isZero = true ∨ Aligned left.abs right.abs ↔ _
  rw [isZero_abs, isZero_abs, aligned_abs_iff]

theorem Checked.gcd_eq_of_fits (left right : Decimal) :
    Checked.gcd left right = unlessOverflow (GcdFits left right) (left.gcd right) := by
  refine (Checked.gcd_eq left right).trans (unlessOverflow_congr ?_ fun _ => rfl)
  rw [isZero_iff, isZero_iff, GcdFits, or_iff_not_imp_left, or_iff_not_imp_left]

theorem Checked.gcd_of_fits (fits : GcdFits left right) :
    Checked.gcd left right = .ok (left.gcd right) := by
  rw [Checked.gcd_eq_of_fits, unlessOverflow_of fits]

theorem value_gcd_congr (lefts : left.value = left'.value) (rights : right.value = right'.value)
    (fits : GcdFits left right) (fits' : GcdFits left' right') :
    (left.gcd right).value = (left'.gcd right').value := by
  by_cases first : left.value = 0
  · rw [gcd_of_zero_left first, gcd_of_zero_left (lefts ▸ first), value_abs, value_abs, rights]
  · by_cases second : right.value = 0
    · rw [gcd_of_zero_right first second, gcd_of_zero_right (lefts ▸ first) (rights ▸ second),
        value_abs, value_abs, lefts]
    · have aligned := fits first second
      have aligned' := fits' (lefts ▸ first) (rights ▸ second)
      wlog order : (left.commonScale right).toInt ≤ (left'.commonScale right').toInt
        generalizing left right left' right'
      · exact (this lefts.symm rights.symm fits' fits (lefts ▸ first) (rights ▸ second) aligned'
          aligned (Int.le_of_not_le order)).symm
      · obtain ⟨zeros, distance⟩ := Int.le.dest order
        have leftUnits := natAbs_alignedTo aligned'.left_eq
        have rightUnits := natAbs_alignedTo aligned'.right_eq
        rw [← distance, zpow_add₀ (by norm_num), zpow_natCast, ← mul_assoc, ← lefts,
          ← natAbs_alignedTo aligned.left_eq] at leftUnits
        rw [← distance, zpow_add₀ (by norm_num), zpow_natCast, ← mul_assoc, ← rights,
          ← natAbs_alignedTo aligned.right_eq] at rightUnits
        have leftSize : (left'.alignedTo (left'.commonScale right')).natAbs =
            (left.alignedTo (left.commonScale right)).natAbs * 10 ^ zeros := by
          exact_mod_cast leftUnits
        have rightSize : (right'.alignedTo (left'.commonScale right')).natAbs =
            (right.alignedTo (left.commonScale right)).natAbs * 10 ^ zeros := by
          exact_mod_cast rightUnits
        rw [value_gcd first second aligned,
          value_gcd (lefts ▸ first) (rights ▸ second) aligned', leftSize, rightSize,
          Nat.gcd_mul_right, ← distance, zpow_add₀ (by norm_num), zpow_natCast]
        push_cast
        rw [mul_div_mul_right _ _ (pow_ne_zero _ (by norm_num))]

theorem gcd_concur (lefts : left.value = left'.value) (rights : right.value = right'.value) :
    Concur EqualValues (Checked.gcd left right) (Checked.gcd left' right') := by
  rw [Checked.gcd_eq_of_fits, Checked.gcd_eq_of_fits]
  exact .checked (value_gcd_congr lefts rights)

theorem lcm_concur (lefts : left.value = left'.value) (rights : right.value = right'.value) :
    Concur EqualValues (left.lcm right) (left'.lcm right') := by
  have sizes : left.abs.value = left'.abs.value := by
    rw [value_abs, value_abs, lefts]
  refine (gcd_concur lefts rights).bind fun divisor divisor' divisors _ _ => ?_
  refine (divideAtScale_concur .down 0 sizes divisors).bind_eq fun quotient _ _ => ?_
  exact Checked.mul_concur rfl (by rw [value_abs, value_abs, rights])

/-! ### Lists of numbers -/

variable {numbers numbers' : List Decimal} {result result' : Decimal}

theorem foldlM_concur {operation : Decimal → Decimal → Outcome Decimal}
    (step : ∀ {left left' right right' : Decimal}, left.value = left'.value →
      right.value = right'.value →
        Concur EqualValues (operation left right) (operation left' right'))
    (same : result.value = result'.value) (items : List.Forall₂ EqualValues numbers numbers') :
    Concur EqualValues (numbers.foldlM operation result) (numbers'.foldlM operation result') := by
  induction items generalizing result result' with
  | nil => exact .ok same
  | cons equal _ ih =>
      rw [List.foldlM_cons, List.foldlM_cons]
      exact (step same equal).bind fun next next' values _ _ => ih values

theorem gcdOfList_concur (same : List.Forall₂ EqualValues numbers numbers') :
    Concur EqualValues (gcdOfList numbers) (gcdOfList numbers') := by
  cases same with
  | nil => exact .error rfl
  | cons first others =>
      cases others with
      | nil => exact .error rfl
      | cons second rest =>
          have folded := foldlM_concur gcd_concur first (.cons second rest)
          rwa [List.foldlM_cons, List.foldlM_cons] at folded

theorem lcmOfList_concur (same : List.Forall₂ EqualValues numbers numbers') :
    Concur EqualValues (lcmOfList numbers) (lcmOfList numbers') := by
  cases same with
  | nil => exact .error rfl
  | cons first others =>
      cases others with
      | nil => exact .error rfl
      | cons second rest =>
          have folded := foldlM_concur lcm_concur first (.cons second rest)
          rwa [List.foldlM_cons, List.foldlM_cons] at folded

end Decimal
end DecimalCalculator
