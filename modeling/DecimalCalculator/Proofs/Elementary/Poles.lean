/-
Where tangent, cotangent, secant and cosecant are refused.

Their denominator is a sine or cosine at the scale of a series, and it is refused if nothing is left
of it at two digits less behind the point than the precision counts.  A precision of three
leaves one digit there, so whatever is refused is smaller than one half, also after it has been
rounded as a result.  Below three no digit is left, and sines and cosines of one half or even
of one are refused.
-/

import Mathlib
import DecimalCalculator.Elementary.Trigonometry
import DecimalCalculator.Proofs.Decimal.Modes
import DecimalCalculator.Proofs.Elementary.Approximation
import DecimalCalculator.Proofs.Elementary.OddPowers
import DecimalCalculator.Proofs.Elementary.TooLarge

namespace DecimalCalculator

theorem RoundingMode.halfUp_round_eq_zero_iff {value : ℚ} :
    halfUp.round value = 0 ↔ |value| < 1 / 2 := by
  rw [round_eq_iff_prescribes]
  constructor
  · intro nearest
    have near := nearest.abs_sub_le
    rw [Int.cast_zero, sub_zero] at near
    refine near.lt_of_ne fun half => ?_
    obtain ⟨side, different, tie⟩ : ∃ side : Int, side ≠ 0 ∧ |value - side| = |value - (0 : Int)| := by
      rcases (abs_eq (by norm_num)).mp half with above | below
      · refine ⟨1, one_ne_zero, ?_⟩
        rw [above]
        norm_num
      · refine ⟨-1, by decide, ?_⟩
        rw [below]
        norm_num [abs_of_pos]
    have farther := nearest.tie side different tie
    rw [abs_zero] at farther
    exact absurd farther (not_lt.mpr (abs_nonneg side))
  · intro small
    apply IsNearest.of_lt_half
    rwa [Int.cast_zero, sub_zero]

namespace Decimal

/-! ### Quotients and their refusals -/

/-- The errors of quotients: the divisor is zero, or a number would be too large. -/
inductive IsQuotientFault : EvaluationError → Prop where
  | divisionByZero : IsQuotientFault .divisionByZero
  | exponentTooLarge (exponent : Int) : IsQuotientFault (.exponentTooLarge exponent)
  | overflow : IsQuotientFault .overflow

theorem isQuotientFault_of_isTooLarge (fault : EvaluationError) (tooLarge : IsTooLarge fault) :
    IsQuotientFault fault := by
  cases tooLarge with
  | intro exponent => exact .exponentTooLarge exponent
  | overflow => exact .overflow

theorem ends_divideAtScale (dividend divisor : Decimal) (scale : Int64) (mode : RoundingMode) :
    Ends (fun quotient => quotient.scale = scale) IsQuotientFault
      (dividend.divideAtScale divisor scale mode) := by
  by_cases zero : divisor.value = 0
  · rw [divideAtScale, isZero_iff.mpr zero]
    exact .error .divisionByZero
  · exact (divideAtScale_endsAtScale zero scale mode).widen isQuotientFault_of_isTooLarge

theorem ends_divideToPrecision (dividend divisor : Decimal) (precision : UInt32) :
    Ends (fun _ => True) IsQuotientFault (dividend.divideToPrecision divisor precision) := by
  by_cases zero : divisor.value = 0
  · rw [divideToPrecision, isZero_iff.mpr zero]
    exact .error .divisionByZero
  · exact (succeeds_divideToPrecision zero precision).widen isQuotientFault_of_isTooLarge

end Decimal

open Decimal

/-! ### Sums of series -/

namespace Series

variable {next : Nat → Decimal → Outcome Decimal} {scale : Int64} {first : Decimal}

theorem ends_sumFrom
    (terms : ∀ index term,
      Ends (fun following => following.scale = scale) IsQuotientFault (next index term))
    (isWithin : IsWithin scale first) :
    Ends (IsWithin scale) IsQuotientFault (sumFrom next first) := by
  unfold sumFrom
  refine (terms 0 first).bind fun second written => ?_
  cases second.isZero with
  | true => exact .ok isWithin
  | false =>
      refine (ends_sumAfter (fun _ _ sum => IsWithin scale sum) ?_ (isWithin.add written)).mono ?_
      · intro index term sum within
        exact (terms index term).mono fun following written' => within.add written'
      · rintro total ⟨_, _, within⟩
        exact within

theorem ends_oddPowers (signs : Signs) (argument : Decimal) (scale : Int64) :
    Ends (fun _ => True) IsQuotientFault (oddPowers signs argument scale) :=
  (succeeds_oddPowers signs argument scale).widen isQuotientFault_of_isTooLarge

end Series

namespace Elementary

/-! ### Sine and cosine at a scale -/

theorem ends_piAtScale (scale : Int64) :
    Ends (fun _ => True) IsQuotientFault (piAtScale scale) := by
  unfold piAtScale
  refine .requireWords .overflow fun _ => ?_
  apply (ends_divideAtScale _ _ _ _).bind
  intro fifth _
  apply (ends_divideAtScale _ _ _ _).bind
  intro small _
  apply (Series.ends_oddPowers _ _ _).bind
  intro first _
  apply (Series.ends_oddPowers _ _ _).bind
  intro second _
  exact .ok trivial

theorem ends_reducedAngle (angle : Decimal) (scale : Int64) :
    Ends (fun reduced => reduced.scale = scale) IsQuotientFault (reducedAngle angle scale) := by
  have atScale (number : Decimal) : Ends (fun reduced => reduced.scale = scale) IsQuotientFault
      (Checked.setScale number scale .halfEven) := by
    refine Ends.widen ?_ isQuotientFault_of_isTooLarge
    exact ends_unlessOverflow fun _ => scale_setScale _ _ _
  unfold reducedAngle
  refine .requireWords .overflow fun _ => ?_
  by_cases near : angle.abs ≤ 3
  · simp only [near, ↓reduceIte]
    exact atScale angle
  · simp only [near, ↓reduceIte]
    apply ((Checked.ends_word _).widen isQuotientFault_of_isTooLarge).bind
    intro leading _
    apply ((Checked.ends_word _).widen isQuotientFault_of_isTooLarge).bind
    intro inner _
    apply (ends_piAtScale _).bind
    intro half _
    apply (ends_divideAtScale _ _ _ _).bind
    intro turns _
    apply ((succeeds_unlessOverflow _ _).widen isQuotientFault_of_isTooLarge).bind
    intro rest _
    exact atScale rest

variable {scale : Int64} {precision : Precision}

theorem ends_circularSeries {first : Decimal} (isWithin : IsWithin scale first) (angle : Decimal)
    (offset : Nat) :
    Ends (IsWithin scale) IsQuotientFault (circularSeries angle first offset scale) := by
  unfold circularSeries
  apply Series.ends_sumFrom ?_ isWithin
  intro index term
  exact (ends_divideAtScale _ _ _ _).bind fun quotient written => .ok written

theorem ends_sinAtScale (nonneg : 0 ≤ scale.toInt) (angle : Decimal) :
    Ends (IsWithin scale) IsQuotientFault (sinAtScale angle scale) := by
  apply (ends_reducedAngle angle scale).bind
  intro reduced written
  apply ends_circularSeries
  rw [← written] at nonneg ⊢
  exact ⟨nonneg, le_rfl⟩

theorem ends_cosAtScale (nonneg : 0 ≤ scale.toInt) (angle : Decimal) :
    Ends (IsWithin scale) IsQuotientFault (cosAtScale angle scale) := by
  apply (ends_reducedAngle angle scale).bind
  intro reduced _
  have one : IsWithin scale 1 := ⟨le_refl 0, nonneg⟩
  exact ends_circularSeries one reduced 1

/-! ### The check of the denominator -/

variable {denominator result : Decimal}

/-- A denominator vanishes if it is smaller than half a unit two digits in front of the last one
that the precision counts behind the point. -/
theorem vanishes_iff (nonneg : 0 ≤ denominator.scale.toInt)
    (few : denominator.scale.toInt + 2 ≤ precision.toNat + largestExponent) :
    vanishes denominator precision = true ↔
      |denominator.value| < 10 ^ (2 - precision.toNat : Int) / 2 := by
  have bound := precision.toNat_lt
  have target : (Int64.ofNat precision.toNat - 2).toInt = precision.toNat - 2 := by
    have two : (2 : Int64).toInt = 2 := by decide
    rw [Int64.toInt_sub, Int64.toInt_ofNat_of_lt (by omega), two]
    exact Int.bmod_eq_of_le (by omega) (by omega)
  have reaches : denominator.Reaches (Int64.ofNat precision.toNat - 2) := Or.inr (by omega)
  have rounded := setScale_eq .halfUp reaches (by omega)
  have power : (0 : ℚ) < 10 ^ (precision.toNat - 2 : Int) := zpow_pos (by norm_num) _
  have inverse : (10 : ℚ) ^ (2 - precision.toNat : Int) = (10 ^ (precision.toNat - 2 : Int))⁻¹ := by
    rw [← zpow_neg, neg_sub]
  rw [vanishes, rounded, isZero_iff, value_eq_zero_iff]
  change RoundingMode.halfUp.round _ = 0 ↔ _
  rw [RoundingMode.halfUp_round_eq_zero_iff, target, abs_mul, abs_of_pos power, inverse,
    ← lt_div_iff₀ power, div_right_comm, one_div]

theorem abs_roundToPrecision_lt_half (least : 3 ≤ precision.toNat)
    (isWithin : IsWithin precision.seriesScale denominator)
    (gone : vanishes denominator precision = true) :
    |(denominator.roundToPrecision precision).value| < 1 / 2 := by
  have room : largestExponent = 2 ^ 32 - 1 := rfl
  have scale := toInt_seriesScale_eq precision
  have bound := precision.guarded.toNat_lt
  obtain ⟨nonneg, within⟩ := isWithin
  have small := (vanishes_iff nonneg (by omega)).mp gone
  by_cases zero : denominator.value = 0
  · rw [roundToPrecision_of_zero zero, zero]
    norm_num
  have unit : (10 : ℚ) ^ (2 - precision.toNat : Int) ≤ 10 ^ (-1 : Int) :=
    zpow_le_zpow_right₀ (by norm_num) (by omega)
  have tenth : |denominator.value| < 10 ^ (-1 : Int) := by
    linarith [abs_nonneg denominator.value]
  have first := firstPlace_lt_of_abs_lt zero tenth
  have digits := firstPlace_value zero
  have last : lastPlace precision.toNat denominator.value =
      firstPlace denominator.value + 1 - precision.toNat := rfl
  have carried := (abs_roundedAt_between zero
    (show lastPlace precision.toNat denominator.value ≤ _ by omega)).2
  have place : (10 : ℚ) ^ (firstPlace denominator.value + 1) ≤ 10 ^ (-1 : Int) :=
    zpow_le_zpow_right₀ (by norm_num) (by omega)
  rw [value_roundToPrecision (by omega) zero (by omega) (by omega), roundedToDigits]
  calc
    |roundedAt (lastPlace precision.toNat denominator.value) denominator.value| ≤
        10 ^ (-1 : Int) := carried.trans place
    _ < 1 / 2 := by norm_num

/-- A quotient that is refused where its denominator vanishes. -/
def refusingPoles (precision : Precision) (pole : EvaluationError) (denominator : Outcome Decimal)
    (quotient : Decimal → Outcome Decimal) : Outcome Decimal := do
  requireWords precision.Guards
  let divisor ← denominator
  if vanishes divisor precision then
    throw pole
  quotient divisor

theorem tan_eq_refusingPoles (angle : Decimal) (precision : Precision) :
    tan angle precision =
      refusingPoles precision (.tangentPole angle) (cosAtScale angle precision.seriesScale)
        fun cosine => sinAtScale angle precision.seriesScale >>= fun sine =>
          sine.divideToPrecision cosine precision :=
  rfl

theorem cot_eq_refusingPoles (angle : Decimal) (precision : Precision) :
    cot angle precision =
      refusingPoles precision (.cotangentPole angle) (sinAtScale angle precision.seriesScale)
        fun sine => cosAtScale angle precision.seriesScale >>= fun cosine =>
          cosine.divideToPrecision sine precision :=
  rfl

theorem sec_eq_refusingPoles (angle : Decimal) (precision : Precision) :
    sec angle precision =
      refusingPoles precision (.secantPole angle) (cosAtScale angle precision.seriesScale)
        fun cosine => divideToPrecision 1 cosine precision :=
  rfl

theorem csc_eq_refusingPoles (angle : Decimal) (precision : Precision) :
    csc angle precision =
      refusingPoles precision (.cosecantPole angle) (sinAtScale angle precision.seriesScale)
        fun sine => divideToPrecision 1 sine precision :=
  rfl

section Refusals

variable {pole fault : EvaluationError} {outcome : Outcome Decimal}
  {quotient : Decimal → Outcome Decimal}

theorem refusingPoles_of_accepted {divisor : Decimal} (guards : precision.Guards)
    (accepted : vanishes divisor precision = false) :
    refusingPoles precision pole (.ok divisor) quotient = quotient divisor := by
  rw [refusingPoles, requireWords_bind_of guards]
  change (if vanishes divisor precision = true then _ else _) = _
  simp only [accepted, Bool.false_eq_true, ↓reduceIte]

theorem refusingPoles_of_vanishing {divisor : Decimal} (guards : precision.Guards)
    (gone : vanishes divisor precision = true) :
    refusingPoles precision pole (.ok divisor) quotient = .error pole := by
  rw [refusingPoles, requireWords_bind_of guards]
  change (if vanishes divisor precision = true then _ else _) = _
  simp only [gone, ↓reduceIte]
  rfl

theorem exists_denominator (reached : refusingPoles precision pole outcome quotient = .ok result) :
    ∃ divisor, outcome = .ok divisor ∧ vanishes divisor precision = false ∧
      quotient divisor = .ok result := by
  obtain ⟨guards, later⟩ := requireWords_bind_eq_ok_iff.mp reached
  obtain ⟨divisor, rfl, -⟩ := bind_eq_ok_iff.mp later
  refine ⟨divisor, rfl, ?_⟩
  cases gone : vanishes divisor precision with
  | true =>
      rw [refusingPoles_of_vanishing guards gone] at reached
      cases reached
  | false =>
      rw [refusingPoles_of_accepted guards gone] at reached
      exact ⟨rfl, reached⟩

theorem exists_vanishing (ends : Ends (IsWithin precision.seriesScale) IsQuotientFault outcome)
    (divides : ∀ divisor, Ends (fun _ => True) IsQuotientFault (quotient divisor))
    (isPole : ¬IsQuotientFault fault)
    (refused : refusingPoles precision pole outcome quotient = .error fault) :
    ∃ divisor, outcome = .ok divisor ∧ IsWithin precision.seriesScale divisor ∧
      vanishes divisor precision = true := by
  have guards : precision.Guards := by
    by_contra breaks
    rw [refusingPoles, requireWords_bind_of_not breaks] at refused
    cases refused
    exact isPole .overflow
  rcases bind_eq_error_iff.mp ((requireWords_bind_of guards).symm.trans refused) with
    failed | ⟨divisor, rfl, -⟩
  · exact absurd (ends.of_eq_error failed) isPole
  · refine ⟨divisor, rfl, ends.of_eq_ok rfl, ?_⟩
    cases gone : vanishes divisor precision with
    | true => rfl
    | false =>
        rw [refusingPoles_of_accepted guards gone] at refused
        exact absurd ((divides divisor).of_eq_error refused) isPole

theorem refusingPoles_ne_error (least : 3 ≤ precision.toNat)
    (ends : Ends (IsWithin precision.seriesScale) IsQuotientFault outcome)
    (divides : ∀ divisor, Ends (fun _ => True) IsQuotientFault (quotient divisor))
    (isPole : ¬IsQuotientFault fault)
    (rounded : (requireWords precision.Guards >>= fun _ => outcome >>= fun divisor =>
      pure (divisor.roundToPrecision precision)) = .ok result)
    (large : 1 / 2 ≤ |result.value|) :
    refusingPoles precision pole outcome quotient ≠ .error fault := by
  intro refused
  obtain ⟨divisor, computed, isWithin, gone⟩ := exists_vanishing ends divides isPole refused
  obtain ⟨-, rounded⟩ := requireWords_bind_eq_ok_iff.mp rounded
  rw [computed] at rounded
  have same : divisor.roundToPrecision precision = result := Except.ok.inj rounded
  have small := abs_roundToPrecision_lt_half least isWithin gone
  rw [same] at small
  exact absurd large (not_le.mpr small)

end Refusals

/-! ### Poles only -/

/-- At a precision only poles are refused as such: where the companion function is one half or
more, the denominator does not vanish. -/
structure RejectsOnlyPoles (precision : Precision) : Prop where
  cosine : ∀ angle result, cos angle precision = .ok result → 1 / 2 ≤ |result.value| →
    ∀ reported, tan angle precision ≠ .error (.tangentPole reported) ∧
      sec angle precision ≠ .error (.secantPole reported)
  sine : ∀ angle result, sin angle precision = .ok result → 1 / 2 ≤ |result.value| →
    ∀ reported, cot angle precision ≠ .error (.cotangentPole reported) ∧
      csc angle precision ≠ .error (.cosecantPole reported)

theorem rejectsOnlyPoles_of_three_le (least : 3 ≤ precision.toNat) :
    RejectsOnlyPoles precision := by
  have nonneg : 0 ≤ precision.seriesScale.toInt := by
    rw [toInt_seriesScale_eq]
    exact Int.natCast_nonneg _
  have sines := fun angle => ends_sinAtScale nonneg angle
  have cosines := fun angle => ends_cosAtScale nonneg angle
  constructor
  · intro angle result rounded large reported
    constructor
    · rw [tan_eq_refusingPoles]
      refine refusingPoles_ne_error least (cosines angle) ?_ nofun rounded large
      intro cosine
      exact (sines angle).bind fun sine _ => ends_divideToPrecision sine cosine precision
    · rw [sec_eq_refusingPoles]
      exact refusingPoles_ne_error least (cosines angle)
        (fun cosine => ends_divideToPrecision 1 cosine precision) nofun rounded large
  · intro angle result rounded large reported
    constructor
    · rw [cot_eq_refusingPoles]
      refine refusingPoles_ne_error least (sines angle) ?_ nofun rounded large
      intro sine
      exact (cosines angle).bind fun cosine _ => ends_divideToPrecision cosine sine precision
    · rw [csc_eq_refusingPoles]
      exact refusingPoles_ne_error least (sines angle)
        (fun sine => ends_divideToPrecision 1 sine precision) nofun rounded large

/-- At a precision of two, a cosine that is rounded up to one half is refused, and below two any
cosine is. -/
theorem not_rejectsOnlyPoles_of_lt_three (less : precision.toNat < 3) :
    ¬RejectsOnlyPoles precision := by
  intro rejects
  have values : precision = 0 ∨ precision = 1 ∨ precision = 2 := by
    rw [← UInt32.toNat_inj, ← UInt32.toNat_inj, ← UInt32.toNat_inj]
    change precision.toNat = 0 ∨ precision.toNat = 1 ∨ precision.toNat = 2
    omega
  have half : (1 / 2 : ℚ) ≤ |(⟨50, 2⟩ : Decimal).value| := by
    change (1 / 2 : ℚ) ≤ |((50 : Int) : ℚ) / 10 ^ (2 : Int)|
    norm_num [abs_of_pos]
  have one : (1 / 2 : ℚ) ≤ |(1 : Decimal).value| := by
    rw [value_one]
    norm_num
  rcases values with rfl | rfl | rfl
  · exact (rejects.cosine 0 1 rfl one 0).1 rfl
  · exact (rejects.cosine 0 1 rfl one 0).1 rfl
  · exact (rejects.cosine ⟨105, 2⟩ ⟨50, 2⟩ (by decide +kernel) half ⟨105, 2⟩).1 (by decide +kernel)

/-- Only poles are refused exactly at the precisions that leave a digit behind the point when two
digits are taken for noise. -/
theorem rejectsOnlyPoles_iff : RejectsOnlyPoles precision ↔ 3 ≤ precision.toNat := by
  constructor
  · intro rejects
    by_contra less
    exact not_rejectsOnlyPoles_of_lt_three (not_le.mp less) rejects
  · exact rejectsOnlyPoles_of_three_le

/-- At a precision of one the tangent of zero is refused, although the cosine is one. -/
theorem tan_zero_refused :
    cos 0 1 = .ok 1 ∧ tan 0 1 = .error (.tangentPole 0) :=
  ⟨rfl, rfl⟩

end Elementary
end DecimalCalculator
