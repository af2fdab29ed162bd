/-
Odd and even functions.

Every step from an angle to its sine treats the signs alike: the reduction by whole turns, the
rounded terms of the series and the last rounding.  The outcomes for opposite arguments have
opposite or equal results then, without any difference of rounding, or errors of one kind.
-/

import Mathlib
import DecimalCalculator.Proofs.Decimal.Opposite
import DecimalCalculator.Proofs.Elementary.Angle

namespace DecimalCalculator

open Decimal

/-! ### Sums of series -/

namespace Series

variable {next : Nat → Decimal → Outcome Decimal}

theorem sumAfter_neg
    (odd : ∀ index term, EndAlike IsOpposite (next index term) (next index (-term)))
    (index : Nat) (term sum : Decimal) :
    EndAlike IsOpposite (sumAfter next index term sum) (sumAfter next index (-term) (-sum)) := by
  induction size : term.unscaled.natAbs using Nat.strong_induction_on
    generalizing index term sum with
  | _ size ih =>
      rw [sumAfter, sumAfter]
      refine (odd index term).bind fun following opposite same => ?_
      subst same
      simp only [isZero_neg, unscaled_neg, Int.natAbs_neg, Decimal.neg_add_neg]
      cases following.isZero with
      | true => exact .ok rfl
      | false =>
          by_cases shrinks : following.unscaled.natAbs < term.unscaled.natAbs
          · simp only [Bool.false_eq_true, ↓reduceIte, ↓reduceDIte, shrinks]
            exact ih _ (size ▸ shrinks) _ _ _ rfl
          · simp only [Bool.false_eq_true, ↓reduceIte, ↓reduceDIte, shrinks]
            exact .ok rfl

theorem sumFrom_neg
    (odd : ∀ index term, EndAlike IsOpposite (next index term) (next index (-term)))
    (first : Decimal) :
    EndAlike IsOpposite (sumFrom next first) (sumFrom next (-first)) := by
  rw [sumFrom, sumFrom]
  refine (odd 0 first).bind fun second opposite same => ?_
  subst same
  simp only [isZero_neg, Decimal.neg_add_neg]
  cases second.isZero with
  | true => exact .ok rfl
  | false => exact sumAfter_neg odd 1 second (first + second)

end Series

namespace Elementary

variable {scale : Int64} {precision : Precision}

/-! ### Sine and cosine -/

theorem reducedAngle_neg (angle : Decimal) (scale : Int64) :
    EndAlike IsOpposite (reducedAngle angle scale) (reducedAngle (-angle) scale) := by
  unfold reducedAngle
  rw [abs_opposite, Checked.leadingExponent_neg]
  refine .requireWords Iff.rfl fun _ => ?_
  by_cases near : angle.abs ≤ 3
  · simp only [near, ↓reduceIte]
    exact Checked.setScale_neg RoundingMode.isSymmetric_halfEven angle scale
  · simp only [near, ↓reduceIte]
    refine .bind_same _ fun leading => .bind_same _ fun inner => .bind_same _ fun half => ?_
    refine (divideAtScale_neg_left RoundingMode.isSymmetric_halfEven angle (2 * half) 0).bind
      fun turns opposite same => ?_
    subst same
    rw [Decimal.neg_mul]
    refine (Checked.sub_neg angle (turns * (2 * half))).bind fun rest opposite same => ?_
    subst same
    exact Checked.setScale_neg RoundingMode.isSymmetric_halfEven rest scale

theorem circularSeries_neg (angle first : Decimal) (offset : Nat) (scale : Int64) :
    circularSeries (-angle) first offset scale = circularSeries angle first offset scale := by
  unfold circularSeries
  rw [Decimal.neg_mul_neg]

theorem circularSeries_neg_first (angle first : Decimal) (offset : Nat) (scale : Int64) :
    EndAlike IsOpposite (circularSeries angle first offset scale)
      (circularSeries angle (-first) offset scale) := by
  unfold circularSeries
  apply Series.sumFrom_neg
  intro index term
  rw [Decimal.neg_mul]
  refine (divideAtScale_neg_left RoundingMode.isSymmetric_halfEven _ _ scale).bind
    fun quotient opposite same => .ok ?_
  rw [IsOpposite, same]

theorem sinAtScale_neg (angle : Decimal) (scale : Int64) :
    EndAlike IsOpposite (sinAtScale angle scale) (sinAtScale (-angle) scale) := by
  refine (reducedAngle_neg angle scale).bind fun reduced opposite same => ?_
  rw [same, circularSeries_neg]
  exact circularSeries_neg_first reduced reduced 2 scale

theorem cosAtScale_neg (angle : Decimal) (scale : Int64) :
    EndAlike Eq (cosAtScale angle scale) (cosAtScale (-angle) scale) := by
  refine (reducedAngle_neg angle scale).bind fun reduced opposite same => ?_
  rw [same, circularSeries_neg]
  exact .refl _

theorem vanishes_neg (denominator : Decimal) (precision : Precision) :
    vanishes (-denominator) precision = vanishes denominator precision := by
  rw [vanishes, vanishes, setScale_neg RoundingMode.isSymmetric_halfUp, isZero_neg]

/-! ### The inverse functions -/

theorem isNegative_neg {number : Decimal} (nonzero : number.value ≠ 0) :
    (-number).isNegative = !number.isNegative := by
  rw [Bool.eq_not_iff, ne_eq, Bool.eq_iff_iff, isNegative_iff, isNegative_iff, value_neg]
  intro same
  rcases nonzero.lt_or_gt with negative | positive
  · linarith [same.mpr negative]
  · linarith [same.mp (neg_neg_of_pos positive)]

theorem neg_eq_self {number : Decimal} (zero : number.value = 0) : -number = number := by
  have nothing := value_eq_zero_iff.mp zero
  cases number with
  | mk unscaled scale =>
      subst nothing
      rfl

theorem withSignOf_neg {argument : Decimal} (nonzero : argument.value ≠ 0) (result : Decimal) :
    IsOpposite (withSignOf argument result) (withSignOf (-argument) result) := by
  rw [IsOpposite, withSignOf, withSignOf, isNegative_neg nonzero]
  cases argument.isNegative with
  | true => exact (Decimal.neg_neg result).symm
  | false => rfl

theorem atanAtScale_neg (tangent : Decimal) (scale : Int64) :
    EndAlike IsOpposite (atanAtScale tangent scale) (atanAtScale (-tangent) scale) := by
  unfold atanAtScale
  rw [isZero_neg, abs_opposite]
  cases zero : tangent.isZero with
  | true => exact .ok rfl
  | false =>
      have turns := withSignOf_neg (isZero_eq_false_iff.mp zero)
      refine .requireWords Iff.rfl fun _ => ?_
      by_cases above : 1 < tangent.abs
      · simp only [above, ↓reduceIte]
        apply EndAlike.bind_same
        intro reciprocal
        apply EndAlike.bind_same
        intro quarter
        apply EndAlike.bind_same
        intro complement
        exact .ok (turns _)
      · simp only [above, ↓reduceIte]
        apply EndAlike.bind_same
        intro result
        exact .ok (turns result)

section InverseSine

variable {sine : Decimal}

theorem asinAtScale_neg (sine : Decimal) (nonneg : 0 ≤ scale.toInt) :
    EndAlike IsOpposite (asinAtScale sine scale) (asinAtScale (-sine) scale) := by
  by_cases zero : sine.value = 0
  · rw [neg_eq_self zero]
    apply EndAlike.of_forall_ok
    intro result found
    rw [(ends_asinAtScale_of_zero zero nonneg).of_eq_ok found]
    rfl
  · have turns := withSignOf_neg zero
    unfold asinAtScale
    rw [abs_opposite]
    refine .requireWords Iff.rfl fun _ => ?_
    by_cases above : 1 < sine.abs
    · simp only [above, ↓reduceIte]
      exact .error rfl
    · simp only [above, ↓reduceIte]
      cases sine.abs.sameValue 1 with
      | true =>
          apply EndAlike.bind_same
          intro quarter
          exact .ok (turns quarter)
      | false =>
          refine .bind_same _ fun square => .bind_same _ fun radicand => ?_
          apply EndAlike.bind_same
          intro cosine
          apply EndAlike.bind_same
          intro tangent
          apply EndAlike.bind_same
          intro result
          exact .ok (turns result)

end InverseSine

/-! ### Parity -/

/-- For the opposite argument an odd function gives the opposite result, in the same form, or
fails in the same way. -/
def IsOdd (function : Decimal → Precision → Outcome Decimal) : Prop :=
  ∀ argument precision,
    EndAlike IsOpposite (function argument precision) (function (-argument) precision)

/-- For the opposite argument an even function gives the same result, in the same form, or fails
in the same way. -/
def IsEven (function : Decimal → Precision → Outcome Decimal) : Prop :=
  ∀ argument precision,
    EndAlike Eq (function argument precision) (function (-argument) precision)

theorem isOdd_sin : IsOdd sin := fun angle precision =>
  .requireWords Iff.rfl fun _ => (sinAtScale_neg angle precision.seriesScale).bind
    fun _ _ same => .ok (same.roundToPrecision precision)

theorem isEven_cos : IsEven cos := fun angle precision =>
  .requireWords Iff.rfl fun _ => (cosAtScale_neg angle precision.seriesScale).bind
    fun _ _ same => .ok (congrArg (·.roundToPrecision precision) same)

theorem isOdd_tan : IsOdd tan := by
  intro angle precision
  refine .requireWords Iff.rfl fun _ => ?_
  apply (cosAtScale_neg angle precision.seriesScale).bind
  intro cosine other same
  subst same
  cases vanishes cosine precision with
  | true => exact .error rfl
  | false =>
      apply (sinAtScale_neg angle precision.seriesScale).bind
      intro sine opposite turned
      rw [turned]
      exact divideToPrecision_neg_left sine cosine precision

theorem isOdd_cot : IsOdd cot := by
  intro angle precision
  refine .requireWords Iff.rfl fun _ => ?_
  apply (sinAtScale_neg angle precision.seriesScale).bind
  intro sine opposite turned
  rw [turned, vanishes_neg]
  cases vanishes sine precision with
  | true => exact .error rfl
  | false =>
      apply (cosAtScale_neg angle precision.seriesScale).bind
      intro cosine other same
      subst same
      exact divideToPrecision_neg_right cosine sine precision

theorem isEven_sec : IsEven sec := by
  intro angle precision
  refine .requireWords Iff.rfl fun _ => ?_
  apply (cosAtScale_neg angle precision.seriesScale).bind
  intro cosine other same
  subst same
  cases vanishes cosine precision with
  | true => exact .error rfl
  | false => exact .refl _

theorem isOdd_csc : IsOdd csc := by
  intro angle precision
  refine .requireWords Iff.rfl fun _ => ?_
  apply (sinAtScale_neg angle precision.seriesScale).bind
  intro sine opposite turned
  rw [turned, vanishes_neg]
  cases vanishes sine precision with
  | true => exact .error rfl
  | false => exact divideToPrecision_neg_right 1 sine precision

theorem scaleNear_neg (argument : Decimal) (precision : Precision) :
    precision.scaleNear (-argument) = precision.scaleNear argument := by
  rw [Precision.scaleNear, Checked.leadingExponent_neg]
  rfl

theorem isOdd_atan : IsOdd atan := by
  intro tangent precision
  rw [atan, atan, scaleNear_neg]
  refine .bind_same _ fun scale => ?_
  exact (atanAtScale_neg tangent scale).bind fun _ _ same => .ok (same.roundToPrecision precision)

theorem isOdd_asin : IsOdd asin := by
  intro sine precision
  rw [asin, asin, scaleNear_neg]
  have scales : EndAlike (fun scale other => other = scale ∧ 0 ≤ scale.toInt)
      (precision.scaleNear sine) (precision.scaleNear sine) :=
    .of_forall_ok fun scale found => ⟨rfl, (ends_scaleNear sine precision).of_eq_ok found⟩
  refine scales.bind fun scale other same => ?_
  rw [same.1]
  exact (asinAtScale_neg sine same.2).bind fun _ _ same => .ok (same.roundToPrecision precision)

/-- Sine, tangent, cotangent, cosecant and the inverses of sine and tangent are odd, cosine and
secant are even: at every precision and for every argument, down to the last digit. -/
theorem circular_functions_parity :
    IsOdd sin ∧ IsOdd tan ∧ IsOdd cot ∧ IsOdd csc ∧ IsOdd atan ∧ IsOdd asin ∧
      IsEven cos ∧ IsEven sec :=
  ⟨isOdd_sin, isOdd_tan, isOdd_cot, isOdd_csc, isOdd_atan, isOdd_asin, isEven_cos, isEven_sec⟩

end Elementary
end DecimalCalculator
