/-
Computations that are refused for the size of a number alone.

A quotient by a number other than zero has no other refusal, so neither has a series whose
divisors are integers, nor the logarithm of a positive number: whatever halving leaves of it
is positive, and so is the divisor of its ratio.
-/

import Mathlib
import DecimalCalculator.Proofs.Outcome
import DecimalCalculator.Proofs.Elementary.Power

namespace DecimalCalculator

/-- A power of ten has too many zeros to be written, or a scale is no word. -/
inductive IsTooLarge : EvaluationError → Prop where
  | intro (exponent : Int) : IsTooLarge (.exponentTooLarge exponent)
  | overflow : IsTooLarge .overflow

/-- The computation has a result, or a number in it would be too large. -/
def SucceedsUnlessTooLarge {α : Type} (outcome : Outcome α) : Prop :=
  Ends (fun _ => True) IsTooLarge outcome

theorem Ends.concur {α β : Type} {results : α → Prop} {results' : β → Prop} {related : α → β → Prop}
    {outcome : Outcome α} {other : Outcome β} (first : Ends results IsTooLarge outcome)
    (second : Ends results' IsTooLarge other)
    (agree : ∀ result result', results result → results' result' → related result result') :
    Concur related outcome other := by
  cases first with
  | error large =>
      cases large with
      | intro exponent => exact .leftTooLarge exponent _
      | overflow => exact .leftOverflow _
  | ok holds =>
      cases second with
      | error large =>
          cases large with
          | intro exponent => exact .rightTooLarge _ exponent
          | overflow => exact .rightOverflow _
      | ok holds' => exact .ok (agree _ _ holds holds')

theorem ends_unlessOverflow {α : Type} {fits : Prop} [Decidable fits] {results : α → Prop}
    {result : α} (holds : fits → results result) :
    Ends results IsTooLarge (unlessOverflow fits result) := by
  by_cases fit : fits
  · rw [unlessOverflow_of fit]
    exact .ok (holds fit)
  · rw [unlessOverflow_of_not fit]
    exact .error .overflow

theorem succeeds_unlessOverflow {α : Type} (fits : Prop) [Decidable fits] (result : α) :
    SucceedsUnlessTooLarge (unlessOverflow fits result) :=
  ends_unlessOverflow fun _ => trivial

namespace Decimal

theorem Checked.ends_word (size : Int) :
    Ends (fun word => word.toInt = size) IsTooLarge (Checked.word size) :=
  ends_unlessOverflow fun word => Int64.toInt_ofInt_of_le word.1 word.2

theorem Checked.ends_setScale (number : Decimal) (target : Int64) (mode : RoundingMode) :
    Ends (fun rounded => rounded = number.setScale target mode) IsTooLarge
      (Checked.setScale number target mode) :=
  ends_unlessOverflow fun _ => rfl

theorem Checked.succeeds_roundToPrecision (number : Decimal) (precision : UInt32) :
    SucceedsUnlessTooLarge (Checked.roundToPrecision number precision) := by
  unfold Checked.roundToPrecision
  dsimp only
  split
  · exact .ok trivial
  · exact (Checked.ends_word _).bind fun target _ => succeeds_unlessOverflow _ _

/-! ### Quotients -/

variable {dividend divisor : Decimal}

theorem divideAtScale_endsAtScale (nonzero : divisor.value ≠ 0) (scale : Int64)
    (mode : RoundingMode) :
    Ends (fun quotient => quotient.scale = scale) IsTooLarge
      (dividend.divideAtScale divisor scale mode) := by
  rcases divideAtScale_cases dividend scale mode nonzero with
    ⟨-, broken⟩ | ⟨-, -, refused⟩ | ⟨-, -, reached⟩
  · rw [broken]
    exact .error .overflow
  · rw [refused]
    exact .error (.intro _)
  · rw [reached]
    exact .ok rfl

theorem succeeds_divideAtScale (nonzero : divisor.value ≠ 0) (scale : Int64) (mode : RoundingMode) :
    SucceedsUnlessTooLarge (dividend.divideAtScale divisor scale mode) :=
  (divideAtScale_endsAtScale nonzero scale mode).mono fun _ _ => trivial

theorem succeeds_divideToPrecision (nonzero : divisor.value ≠ 0) (precision : UInt32) :
    SucceedsUnlessTooLarge (dividend.divideToPrecision divisor precision) := by
  unfold divideToPrecision
  rw [isZero_eq_false_iff.mpr nonzero]
  cases dividend.isZero with
  | true => exact .ok trivial
  | false =>
      refine (Checked.ends_word _).bind fun first _ => (Checked.ends_word _).bind fun second _ => ?_
      refine (Checked.ends_word _).bind fun exponent _ => (Checked.ends_word _).bind fun scale _ => ?_
      exact (succeeds_divideAtScale nonzero _ _).bind fun finer _ =>
        Checked.succeeds_roundToPrecision finer precision

theorem value_ofInt_ne_zero {integer : Int} (nonzero : integer ≠ 0) : (ofInt integer).value ≠ 0 := by
  rw [value_ofInt]
  exact Int.cast_ne_zero.mpr nonzero

theorem value_add_one_pos {number : Decimal} (positive : 0 < number.value) :
    0 < (number + 1).value := by
  rw [value_pos_iff] at positive ⊢
  change 0 < number.alignedTo _ + (1 : Decimal).alignedTo _
  exact Int.add_pos (alignedTo_pos positive _) (alignedTo_pos (by decide) _)

end Decimal

open Decimal

/-! ### Series -/

namespace Series

theorem succeeds_productAt (left right : Decimal) (scale : Int64) :
    SucceedsUnlessTooLarge (productAt left right scale) :=
  (succeeds_unlessOverflow _ _).bind fun _ _ => succeeds_unlessOverflow _ _

theorem succeeds_oddPowersAfter (signs : Signs) (scale : Int64) (square : Decimal) (index : Nat)
    (power sum : Decimal) :
    SucceedsUnlessTooLarge (oddPowersAfter signs scale square index power sum) := by
  fun_induction oddPowersAfter signs scale square index power sum with
  | case1 index power sum later =>
      refine (succeeds_productAt power square scale).bind fun higher _ => ?_
      split
      · exact .ok trivial
      · refine (succeeds_divideAtScale (value_ofInt_ne_zero (by omega)) _ _).bind fun term _ => ?_
        split
        · exact .ok trivial
        · split
          · exact later higher term (by assumption)
          · exact .ok trivial

theorem succeeds_oddPowers (signs : Signs) (argument : Decimal) (scale : Int64) :
    SucceedsUnlessTooLarge (oddPowers signs argument scale) :=
  (succeeds_productAt argument argument scale).bind fun square _ =>
    (succeeds_unlessOverflow _ _).bind fun first _ =>
      succeeds_oddPowersAfter signs scale square 1 first first

section Sums

variable {next : Nat → Decimal → Outcome Decimal} {index : Nat} {term sum : Decimal}

theorem ends_sumAfter (holds : Nat → Decimal → Decimal → Prop) {errors : EvaluationError → Prop}
    (terms : ∀ index term sum, holds index term sum →
      Ends (fun following => holds (index + 1) following (sum + following)) errors (next index term))
    (given : holds index term sum) :
    Ends (fun total => ∃ index term, holds index term total) errors
      (sumAfter next index term sum) := by
  fun_induction sumAfter next index term sum with
  | case1 index term sum later =>
      refine (terms index term sum given).bind fun following extended => ?_
      split
      · exact .ok ⟨index, term, given⟩
      · split
        · exact later following (by assumption) extended
        · exact .ok ⟨index + 1, following, extended⟩

theorem succeeds_sumFrom (terms : ∀ index term, SucceedsUnlessTooLarge (next index term))
    (first : Decimal) : SucceedsUnlessTooLarge (sumFrom next first) := by
  unfold sumFrom
  refine (terms 0 first).bind fun second _ => ?_
  cases second.isZero with
  | true => exact .ok trivial
  | false =>
      exact (ends_sumAfter (fun _ _ _ => True) (fun index term _ _ => terms index term) trivial).mono
        fun _ _ => trivial

end Sums

theorem halveWithin_pos {limit number : Decimal} (positive : 0 < number.value) (most : Nat) :
    0 < (halveWithin limit most number).1.value := by
  induction most generalizing number with
  | zero => exact positive
  | succ most ih =>
      rw [halveWithin]
      split
      · refine ih (value_pos_iff.mpr ?_)
        change 0 < number.unscaled * 5
        exact Int.mul_pos (value_pos_iff.mp positive) (by decide)
      · exact positive

end Series

namespace Elementary

/-! ### Exponentials -/

theorem succeeds_expSeries (argument : Decimal) (scale : Int64) :
    SucceedsUnlessTooLarge (expSeries argument scale) :=
  Series.succeeds_sumFrom
    (fun _ _ => succeeds_divideAtScale (value_ofInt_ne_zero (by omega)) scale .halfEven) 1

theorem succeeds_expOfPositive (argument : Decimal) (precision : Precision) :
    SucceedsUnlessTooLarge (expOfPositive argument precision) := by
  by_cases words : ExpWords argument precision
  · rw [expOfPositive_eq_expOfHalved words]
    refine (succeeds_unlessOverflow _ _).bind fun reduced _ => ?_
    exact (succeeds_expSeries _ _).bind fun sum _ => .ok trivial
  · rw [expOfPositive_of_not_words words]
    exact .error .overflow

/-! ### Roots -/

theorem succeeds_rootAtScale (radicand : Decimal) (degree : Nat) (scale : Int64) :
    SucceedsUnlessTooLarge (rootAtScale radicand degree scale) := by
  rcases rootAtScale_cases radicand degree scale with ⟨-, broken⟩ | ⟨-, refused⟩ | ⟨-, -, reached⟩
  · rw [broken]
    exact .error .overflow
  · rw [refused]
    exact .error (.intro _)
  · rw [reached]
    exact .ok trivial

/-! ### Logarithms -/

variable {argument integer factor : Decimal} {scale : Int64} {precision : Precision}

theorem succeeds_doubledArtanhOfReciprocal (nonzero : integer.value ≠ 0) (scale : Int64) :
    SucceedsUnlessTooLarge (doubledArtanhOfReciprocal integer scale) := by
  unfold doubledArtanhOfReciprocal
  apply (succeeds_divideAtScale nonzero _ _).bind
  intro reciprocal _
  apply (Series.succeeds_oddPowers _ _ _).bind
  intro sum _
  exact .ok trivial

theorem succeeds_lnOfTwo (scale : Int64) : SucceedsUnlessTooLarge (lnOfTwo scale) :=
  succeeds_doubledArtanhOfReciprocal (value_ofInt_ne_zero (by decide)) scale

theorem succeeds_lnOfTen (scale : Int64) : SucceedsUnlessTooLarge (lnOfTen scale) := by
  unfold lnOfTen
  apply (succeeds_lnOfTwo scale).bind
  intro first _
  apply (succeeds_doubledArtanhOfReciprocal (value_ofInt_ne_zero (by decide)) scale).bind
  intro second _
  exact .ok trivial

theorem succeeds_lnOfParts (positive : 0 < factor.value) (halvings : Nat) (decade scale : Int64)
    (precision : Precision) :
    SucceedsUnlessTooLarge (lnOfParts factor halvings decade scale precision) := by
  unfold lnOfParts
  apply (succeeds_divideAtScale (value_add_one_pos positive).ne' _ _).bind
  intro ratio _
  apply (Series.succeeds_oddPowers _ _ _).bind
  intro sum _
  by_cases halved : halvings = 0
  · by_cases near : decade = 0
    · simp only [halved, near, ne_eq, not_true_eq_false, ↓reduceIte]
      exact .ok trivial
    · simp only [halved, near, ne_eq, not_true_eq_false, not_false_eq_true, ↓reduceIte]
      exact (succeeds_lnOfTen scale).bind fun ten _ => .ok trivial
  · by_cases near : decade = 0
    · simp only [halved, near, ne_eq, not_true_eq_false, not_false_eq_true, ↓reduceIte]
      exact (succeeds_lnOfTwo scale).bind fun two _ => .ok trivial
    · simp only [halved, near, ne_eq, not_false_eq_true, ↓reduceIte]
      apply (succeeds_lnOfTwo scale).bind
      intro two _
      exact (succeeds_lnOfTen scale).bind fun ten _ => .ok trivial

theorem ends_scaleNear (number : Decimal) (precision : Precision) :
    Ends (fun scale => 0 ≤ scale.toInt) IsTooLarge (precision.scaleNear number) := by
  refine .requireWords .overflow fun guards => ?_
  refine (Checked.ends_word _).bind fun leading _ => (Checked.ends_word _).bind fun zeros _ => ?_
  refine (Checked.ends_word _).mono fun scale known => ?_
  rw [known, toInt_seriesScale guards]
  omega

theorem succeeds_ln (positive : 0 < argument.value) (precision : Precision) :
    SucceedsUnlessTooLarge (ln argument precision) := by
  by_cases comparable : Comparable argument 1
  · by_cases one : argument.value = 1
    · rw [ln_of_one one comparable]
      exact .ok trivial
    · rw [ln_eq_lnOfParts positive one comparable]
      refine .requireWords .overflow fun _ => (ends_scaleNear _ _).bind fun scale _ => ?_
      refine .requireWords .overflow fun _ => ?_
      exact succeeds_lnOfParts (Series.halveWithin_pos (mantissa_pos positive) _) _ _ _ _
  · rw [ln_of_not_comparable positive comparable]
    exact .error .overflow

end Elementary
end DecimalCalculator
