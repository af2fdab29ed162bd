/-
Trigonometric functions of a value and their inverses.

An angle is reduced to a scale that does not depend on its form, if its digits are few enough.
An inverse function reads the form of its argument only until the first root or quotient at a
scale; the scale near zero depends on the form of zero alone, and there the result is zero.
-/

import Mathlib
import DecimalCalculator.Elementary.InverseTrigonometry
import DecimalCalculator.Elementary.AngleUnit
import DecimalCalculator.Proofs.Elementary.TooLarge

namespace DecimalCalculator
namespace Elementary

open Decimal

variable {angle angle' : Decimal} {scale : Int64} {precision : Precision}

/-! ### Angles -/

/-- What is brought to the scale of a series has few enough digits: a small angle itself, and what
whole turns leave of any other. -/
structure AngleFits (angle : Decimal) (scale : Int64) : Prop where
  near : angle.abs ≤ 3 → angle.IsShort
  far : ¬angle.abs ≤ 3 → ∀ inner half, piAtScale inner = .ok half →
    ∀ turns, angle.divideAtScale (2 * half) 0 .halfEven = .ok turns →
      (angle - turns * (2 * half)).IsShort

theorem reducedAngle_concur (same : angle.value = angle'.value) (left : AngleFits angle scale)
    (right : AngleFits angle' scale) :
    Concur Eq (reducedAngle angle scale) (reducedAngle angle' scale) := by
  unfold reducedAngle
  refine .requireWords fun comparable comparable' => ?_
  have small : angle.abs ≤ 3 ↔ angle'.abs ≤ 3 := by
    rw [le_iff_value_le comparable, le_iff_value_le comparable', value_abs, value_abs, same]
  by_cases near : angle.abs ≤ 3
  · have near' := small.mp near
    simp only [near, near', ↓reduceIte]
    exact Checked.setScale_concur .halfEven same (fun _ => left.near near)
      fun _ => right.near near'
  · have nonzero : angle.value ≠ 0 := by
      intro zero
      refine near ((le_iff_value_le comparable).mpr ?_)
      rw [value_abs, zero, abs_zero]
      exact value_nonneg_iff.mpr (by decide)
    simp only [near, mt small.mpr near, ↓reduceIte]
    refine (Checked.leadingExponent_concur nonzero same).bind_eq fun leading _ _ => ?_
    refine Concur.bind_eq (.of_eq rfl) fun inner _ _ => ?_
    refine Concur.bind_eq (.of_eq rfl) fun half found _ => ?_
    refine (divideAtScale_concur .halfEven 0 same rfl).bind_eq fun turns reached reached' => ?_
    refine (Checked.sub_concur same rfl).bind fun rest rest' values subtracted subtracted' => ?_
    obtain ⟨-, rfl⟩ := unlessOverflow_eq_ok_iff.mp subtracted
    obtain ⟨-, rfl⟩ := unlessOverflow_eq_ok_iff.mp subtracted'
    exact Checked.setScale_concur .halfEven values (fun _ => left.far near _ _ found _ reached)
      fun _ => right.far (mt small.mpr near) _ _ found _ reached'

theorem sinAtScale_concur (same : angle.value = angle'.value) (left : AngleFits angle scale)
    (right : AngleFits angle' scale) :
    Concur Eq (sinAtScale angle scale) (sinAtScale angle' scale) :=
  (reducedAngle_concur same left right).bind_eq fun _ _ _ => .of_eq rfl

theorem cosAtScale_concur (same : angle.value = angle'.value) (left : AngleFits angle scale)
    (right : AngleFits angle' scale) :
    Concur Eq (cosAtScale angle scale) (cosAtScale angle' scale) :=
  (reducedAngle_concur same left right).bind_eq fun _ _ _ => .of_eq rfl

section Functions

variable (same : angle.value = angle'.value) (left : AngleFits angle precision.seriesScale)
  (right : AngleFits angle' precision.seriesScale)
include same left right

theorem sin_concur : Concur Eq (sin angle precision) (sin angle' precision) :=
  .requireWords fun _ _ => (sinAtScale_concur same left right).bind_eq fun _ _ _ => .of_eq rfl

theorem cos_concur : Concur Eq (cos angle precision) (cos angle' precision) :=
  .requireWords fun _ _ => (cosAtScale_concur same left right).bind_eq fun _ _ _ => .of_eq rfl

theorem tan_concur : Concur Eq (tan angle precision) (tan angle' precision) := by
  refine .requireWords fun _ _ => ?_
  refine (cosAtScale_concur same left right).bind_eq fun cosine _ _ => ?_
  cases vanishes cosine precision with
  | true => exact .error rfl
  | false => exact (sinAtScale_concur same left right).bind_eq fun _ _ _ => .of_eq rfl

theorem cot_concur : Concur Eq (cot angle precision) (cot angle' precision) := by
  refine .requireWords fun _ _ => ?_
  refine (sinAtScale_concur same left right).bind_eq fun sine _ _ => ?_
  cases vanishes sine precision with
  | true => exact .error rfl
  | false => exact (cosAtScale_concur same left right).bind_eq fun _ _ _ => .of_eq rfl

theorem sec_concur : Concur Eq (sec angle precision) (sec angle' precision) := by
  refine .requireWords fun _ _ => ?_
  refine (cosAtScale_concur same left right).bind_eq fun cosine _ _ => ?_
  cases vanishes cosine precision with
  | true => exact .error rfl
  | false => exact .of_eq rfl

theorem csc_concur : Concur Eq (csc angle precision) (csc angle' precision) := by
  refine .requireWords fun _ _ => ?_
  refine (sinAtScale_concur same left right).bind_eq fun sine _ _ => ?_
  cases vanishes sine precision with
  | true => exact .error rfl
  | false => exact .of_eq rfl

end Functions

/-! ### The inverse tangent -/

variable {tangent tangent' : Decimal}

theorem halfAngleTangent_concur (same : tangent.value = tangent'.value) :
    Concur Eq (halfAngleTangent tangent scale) (halfAngleTangent tangent' scale) := by
  refine (Checked.mul_concur same same).bind fun square square' squares found _ => ?_
  refine (Checked.add_concur rfl squares).bind fun radicand radicand' sums summed _ => ?_
  have nonneg : 0 ≤ radicand.value := by
    obtain ⟨word, rfl⟩ := unlessOverflow_eq_ok_iff.mp found
    obtain ⟨aligned, rfl⟩ := unlessOverflow_eq_ok_iff.mp summed
    rw [value_add aligned, value_mul word, value_one]
    nlinarith [mul_self_nonneg tangent.value]
  refine (rootAtScale_concur nonneg sums).bind_eq fun hypotenuse _ _ => ?_
  exact divideAtScale_concur .halfEven scale same rfl

theorem atanOfUnit_concur (same : tangent.value = tangent'.value) :
    Concur Eq (atanOfUnit tangent scale) (atanOfUnit tangent' scale) :=
  (halfAngleTangent_concur same).bind_eq fun _ _ _ => .of_eq rfl

theorem withSignOf_congr (same : tangent.value = tangent'.value) (result : Decimal) :
    withSignOf tangent result = withSignOf tangent' result := by
  rw [withSignOf, withSignOf, isNegative_congr same]

theorem atanAtScale_of_zero (zero : tangent.value = 0) : atanAtScale tangent scale = .ok 0 := by
  rw [atanAtScale, isZero_iff.mpr zero]
  rfl

theorem atanAtScale_of_ne_zero (nonzero : tangent.value ≠ 0) :
    atanAtScale tangent scale = (do
      requireWords (Comparable 1 tangent.abs)
      if 1 < tangent.abs then
        let reciprocal ← divideAtScale 1 tangent.abs scale .halfEven
        return withSignOf tangent ((← rightAngle scale) - (← atanOfUnit reciprocal scale))
      else
        return withSignOf tangent (← atanOfUnit tangent.abs scale)) := by
  rw [atanAtScale, isZero_eq_false_iff.mpr nonzero]
  rfl

theorem atanAtScale_concur (same : tangent.value = tangent'.value) :
    Concur Eq (atanAtScale tangent scale) (atanAtScale tangent' scale) := by
  by_cases zero : tangent.value = 0
  · rw [atanAtScale_of_zero zero, atanAtScale_of_zero (same ▸ zero)]
    exact .ok rfl
  · have sizes : tangent.abs.value = tangent'.abs.value := by
      rw [value_abs, value_abs, same]
    rw [atanAtScale_of_ne_zero zero, atanAtScale_of_ne_zero (same ▸ zero)]
    simp only [withSignOf_congr same]
    refine .requireWords fun comparable comparable' => ?_
    have exceeds : 1 < tangent.abs ↔ 1 < tangent'.abs := by
      rw [lt_iff_value_lt comparable, lt_iff_value_lt comparable', sizes]
    by_cases above : 1 < tangent.abs
    · simp only [above, exceeds.mp above, ↓reduceIte]
      refine (divideAtScale_concur .halfEven scale rfl sizes).bind_eq fun reciprocal _ _ => ?_
      exact .of_eq rfl
    · simp only [above, mt exceeds.mpr above, ↓reduceIte]
      exact (atanOfUnit_concur sizes).bind_eq fun result _ _ => .of_eq rfl

theorem atan_concur (same : tangent.value = tangent'.value) :
    Concur Eq (atan tangent precision) (atan tangent' precision) := by
  unfold atan
  by_cases zero : tangent.value = 0
  · have ends {number : Decimal} (none : number.value = 0) :
        Ends (fun result => result = Decimal.roundToPrecision 0 precision) IsTooLarge
          (precision.scaleNear number >>= fun scale => atanAtScale number scale >>= fun result =>
            pure (result.roundToPrecision precision)) := by
      refine (ends_scaleNear _ _).bind fun scale _ => ?_
      rw [atanAtScale_of_zero none]
      exact .ok rfl
    exact (ends zero).concur (ends (same ▸ zero)) fun _ _ first second => first.trans second.symm
  · refine (Precision.scaleNear_concur zero same).bind_eq fun scale _ _ => ?_
    exact (atanAtScale_concur same).bind_eq fun _ _ _ => .of_eq rfl

theorem acot_concur (same : tangent.value = tangent'.value) :
    Concur Eq (acot tangent precision) (acot tangent' precision) := by
  refine .requireWords fun _ _ => ?_
  refine Concur.bind_eq (.of_eq rfl) fun right' _ _ => ?_
  exact (atanAtScale_concur same).bind_eq fun _ _ _ => .of_eq rfl

/-! ### The inverse sine -/

variable {sine sine' : Decimal}

theorem value_cosine {size square radicand : Decimal} (squared : Checked.mul size size = .ok square)
    (subtracted : Checked.sub 1 square = .ok radicand) :
    radicand.value = 1 - size.value * size.value := by
  obtain ⟨word, rfl⟩ := unlessOverflow_eq_ok_iff.mp squared
  obtain ⟨aligned, rfl⟩ := unlessOverflow_eq_ok_iff.mp subtracted
  rw [value_sub aligned, value_mul word, value_one]

theorem asinAtScale_concur (same : sine.value = sine'.value) :
    Concur Eq (asinAtScale sine scale) (asinAtScale sine' scale) := by
  have sizes : sine.abs.value = sine'.abs.value := by
    rw [value_abs, value_abs, same]
  unfold asinAtScale
  simp only [withSignOf_congr same]
  refine .requireWords fun comparable comparable' => ?_
  have exceeds : 1 < sine.abs ↔ 1 < sine'.abs := by
    rw [lt_iff_value_lt comparable, lt_iff_value_lt comparable', sizes]
  have units : sine.abs.sameValue 1 = sine'.abs.sameValue 1 := by
    rw [Bool.eq_iff_iff, sameValue_iff comparable.symm, sameValue_iff comparable'.symm, sizes]
  simp only [← units]
  by_cases above : 1 < sine.abs
  · simp only [above, exceeds.mp above, ↓reduceIte]
    exact .error rfl
  · simp only [above, mt exceeds.mpr above, ↓reduceIte]
    cases sine.abs.sameValue 1 with
    | true =>
        simp only [↓reduceIte]
        exact .of_eq rfl
    | false =>
        simp only [Bool.false_eq_true, ↓reduceIte]
        refine (Checked.mul_concur sizes sizes).bind fun square square' squares found _ => ?_
        refine (Checked.sub_concur rfl squares).bind fun radicand radicand' rests subtracted _ => ?_
        have nonneg : 0 ≤ radicand.value := by
          have limit := not_lt.mp (mt (lt_iff_value_lt comparable).mpr above)
          have size : 0 ≤ sine.abs.value := by
            rw [value_abs]
            exact abs_nonneg _
          rw [value_one] at limit
          rw [value_cosine found subtracted]
          nlinarith
        refine (rootAtScale_concur nonneg rests).bind_eq fun cosine _ _ => ?_
        refine (divideAtScale_concur .halfEven scale sizes rfl).bind_eq fun tangent _ _ => ?_
        exact .of_eq rfl

theorem ends_asinAtScale_of_zero (zero : sine.value = 0) (nonneg : 0 ≤ scale.toInt) :
    Ends (fun result => result = 0) IsTooLarge (asinAtScale sine scale) := by
  have size : sine.abs.value = 0 := by
    rw [value_abs, zero, abs_zero]
  have front : sine.isNegative = false := isNegative_eq_false_iff.mpr zero.ge
  unfold asinAtScale
  refine .requireWords .overflow fun comparable => ?_
  have within : ¬1 < sine.abs := by
    rw [lt_iff_value_lt comparable, size, value_one]
    norm_num
  have other : sine.abs.sameValue 1 = false := by
    rw [← Bool.not_eq_true, sameValue_iff comparable.symm, size, value_one]
    norm_num
  simp only [within, other, withSignOf, front, Bool.false_eq_true, ↓reduceIte, bind_pure]
  refine (succeeds_unlessOverflow _ _).bind_eq fun square squared => ?_
  refine (succeeds_unlessOverflow _ _).bind_eq fun radicand subtracted => ?_
  have one : radicand.value = 1 := by
    rw [value_cosine squared subtracted, size, mul_zero, sub_zero]
  refine (succeeds_rootAtScale radicand 2 scale).bind_eq fun cosine found => ?_
  have some : cosine.value ≠ 0 := by
    have units : 1 ≤ ⌊radicand.value * 10 ^ ((2 : Nat) * scale.toInt)⌋₊ := by
      rw [one, one_mul]
      exact Nat.floor_pos.mpr (one_le_zpow₀ (by norm_num) (by positivity))
    obtain ⟨-, -, rfl⟩ := units_of_rootAtScale found
    rw [units_mul_zpow (one ▸ zero_le_one)]
    refine mt value_eq_zero_iff.mp (Int.natCast_ne_zero.mpr fun none => ?_)
    have nothing := (IntegerRoot.floorRoot_eq_zero_iff two_ne_zero _).mp none
    omega
  refine (succeeds_divideAtScale some scale .halfEven).bind_eq fun tangent divided => ?_
  refine (atanAtScale_of_zero ?_).symm ▸ .ok rfl
  obtain ⟨-, -, -, rfl⟩ := divideAtScale_eq_ok_iff.mp divided
  rw [size, zero_div, zero_mul]
  exact value_eq_zero_iff.mpr (by exact_mod_cast RoundingMode.round_intCast .halfEven 0)

theorem asin_concur (same : sine.value = sine'.value) :
    Concur Eq (asin sine precision) (asin sine' precision) := by
  unfold asin
  by_cases zero : sine.value = 0
  · have ends {number : Decimal} (none : number.value = 0) :
        Ends (fun result => result = Decimal.roundToPrecision 0 precision) IsTooLarge
          (precision.scaleNear number >>= fun scale => asinAtScale number scale >>= fun result =>
            pure (result.roundToPrecision precision)) := by
      refine (ends_scaleNear _ _).bind fun scale nonneg => ?_
      refine (ends_asinAtScale_of_zero none nonneg).bind fun result known => ?_
      exact .ok (congrArg (fun number => Decimal.roundToPrecision number precision) known)
    exact (ends zero).concur (ends (same ▸ zero)) fun _ _ first second => first.trans second.symm
  · refine (Precision.scaleNear_concur zero same).bind_eq fun scale _ _ => ?_
    exact (asinAtScale_concur same).bind_eq fun _ _ _ => .of_eq rfl

theorem acos_concur (same : sine.value = sine'.value) :
    Concur Eq (acos sine precision) (acos sine' precision) := by
  refine .requireWords fun _ _ => ?_
  refine Concur.bind_eq (.of_eq rfl) fun quarter _ _ => ?_
  exact (asinAtScale_concur same).bind_eq fun _ _ _ => .of_eq rfl

/-! ### Inverse secant and cosecant -/

variable {secant secant' : Decimal}

theorem reciprocalOfSecant_concur (same : secant.value = secant'.value) :
    Concur Eq (reciprocalOfSecant secant precision) (reciprocalOfSecant secant' precision) := by
  refine .requireWords fun comparable comparable' => ?_
  have small : secant.abs < 1 ↔ secant'.abs < 1 := by
    rw [lt_iff_value_lt comparable, lt_iff_value_lt comparable', value_abs, value_abs, same]
  by_cases below : secant.abs < 1
  · simp only [below, small.mp below, ↓reduceIte]
    exact .error rfl
  · simp only [below, mt small.mpr below, ↓reduceIte]
    exact .requireWords fun _ _ => divideToPrecision_concur _ rfl same

theorem asec_concur (same : secant.value = secant'.value) :
    Concur Eq (asec secant precision) (asec secant' precision) :=
  (reciprocalOfSecant_concur same).bind_eq fun _ _ _ => .of_eq rfl

theorem acsc_concur (same : secant.value = secant'.value) :
    Concur Eq (acsc secant precision) (acsc secant' precision) :=
  (reciprocalOfSecant_concur same).bind_eq fun _ _ _ => .of_eq rfl

end Elementary
end DecimalCalculator
