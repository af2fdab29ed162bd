/-
Quotients of the operator of division.

The operator takes the precision for a number of digits after the point, so its error has
a bound that does not depend on the size of the quotient, and a quotient below half of the
last place is lost.  The precision that goes with a display scale is computed in a word; a
display scale whose triple is no word is refused, and for all others a quotient is shown to
the digits asked for.
-/

import Mathlib
import DecimalCalculator.Calculator
import DecimalCalculator.Proofs.Decimal.Quotient
import DecimalCalculator.Proofs.Evaluation.Broadcast
import DecimalCalculator.Proofs.Value.Final

namespace DecimalCalculator

open Decimal

variable {context : Context} {left right quotient : Decimal} {displayScale : UInt32}

/-! ### The operator -/

/-- What the operator of division makes of two numbers: their quotient with so many digits
after the point.  The error is small beside the quotient if this is not too small itself. -/
structure Decimal.IsQuotientTo (places : Nat) (left right quotient : Decimal) : Prop where
  scale : quotient.scale.toInt = places
  rounded : quotient.value = roundedTo places (left.value / right.value)
  near : |left.value / right.value - quotient.value| ≤ 10 ^ (-places : Int) / 2
  vanishes : quotient.value = 0 ↔ |left.value / right.value| ≤ 10 ^ (-places : Int) / 2
  relative : 1 / 20 ≤ |left.value / right.value| →
    |left.value / right.value - quotient.value| ≤
      10 ^ (1 - places : Int) * |left.value / right.value|
  product : 1 / 20 ≤ |left.value / right.value| →
    |left.value - (quotient * right).value| ≤ 10 ^ (1 - places : Int) * |left.value|

theorem Decimal.IsQuotientTo.fractional {places : Nat}
    (exact : IsQuotientTo places left right quotient) : 0 ≤ quotient.scale := by
  rw [Int64.le_iff_toInt_le, Int64.toInt_zero, exact.scale]
  exact Int.natCast_nonneg _

theorem toInt_precisionScale (context : Context) :
    context.precisionScale.toInt = context.precision.toNat :=
  toInt_displayScale context.precision

theorem dividesAt_precisionScale (context : Context) (first : left.HasNarrowScale)
    (second : right.HasNarrowScale) : DividesAt left right context.precisionScale := by
  have bound := context.precision.toNat_lt
  have places := toInt_precisionScale context
  obtain ⟨lower, upper⟩ := first
  obtain ⟨lower', upper'⟩ := second
  have exponent : quotientExponent left right context.precisionScale =
      context.precision.toNat + right.scale.toInt - left.scale.toInt := by
    rw [quotientExponent, places]
  exact ⟨⟨by omega, by omega⟩, ⟨by omega, by omega⟩, ⟨by omega, by omega⟩⟩

theorem isQuotientTo_of_divideAtScale (nonzero : right.value ≠ 0)
    (second : right.HasNarrowScale)
    (divided : left.divideAtScale right context.precisionScale .halfEven = .ok quotient) :
    IsQuotientTo context.precision.toNat left right quotient := by
  have places := toInt_precisionScale context
  have scale : quotient.scale.toInt = context.precision.toNat := by
    rw [scale_of_divideAtScale divided, places]
  have rounded : quotient.value = roundedTo context.precision.toNat (left.value / right.value) := by
    obtain ⟨-, -, -, reached⟩ := divideAtScale_eq_ok_iff.mp divided
    rw [reached, value]
    simp only [places]
    rw [zpow_natCast]
    rfl
  have near : |left.value / right.value - quotient.value| ≤
      10 ^ (-context.precision.toNat : Int) / 2 := by
    rw [rounded, roundedTo_eq_roundedAt]
    exact abs_sub_roundedAt_le _ _
  have relative : 1 / 20 ≤ |left.value / right.value| →
      |left.value / right.value - quotient.value| ≤
        10 ^ (1 - context.precision.toNat : Int) * |left.value / right.value| := by
    intro large
    have unit : (0 : ℚ) < 10 ^ (-context.precision.toNat : Int) := zpow_pos (by norm_num) _
    have tenfold : (10 : ℚ) ^ (1 - context.precision.toNat : Int) =
        10 * 10 ^ (-context.precision.toNat : Int) := by
      rw [sub_eq_add_neg, zpow_add₀ (by norm_num), zpow_one]
    rw [tenfold]
    nlinarith
  refine ⟨scale, rounded, near, ?_, relative, fun large => ?_⟩
  · rw [rounded, roundedTo_eq_roundedAt]
    exact roundedAt_eq_zero_iff
  · have bound := context.precision.toNat_lt
    have word : IsWord (quotient.scale.toInt + right.scale.toInt) := by
      obtain ⟨lower, upper⟩ := second
      rw [scale]
      exact ⟨by omega, by omega⟩
    have apart : left.value - (quotient * right).value =
        (left.value / right.value - quotient.value) * right.value := by
      rw [value_mul word, sub_mul, div_mul_cancel₀ _ nonzero]
    have size : |left.value| = |left.value / right.value| * |right.value| := by
      rw [← abs_mul, div_mul_cancel₀ _ nonzero]
    rw [apart, abs_mul, size, ← mul_assoc]
    exact mul_le_mul_of_nonneg_right (relative large) (abs_nonneg _)

/-- The operator of division returns the quotient with as many digits after the point as the
context has significant digits, unless the power of ten that it takes cannot be written out. -/
theorem Standard.combine_division (context : Context) (nonzero : right.value ≠ 0)
    (first : left.HasNarrowScale) (second : right.HasNarrowScale) :
    (|context.precision.toNat + right.scale.toInt - left.scale.toInt| ≤ largestExponent →
      ∃ quotient, Standard.combine '/' left right context = .ok (some quotient) ∧
        IsQuotientTo context.precision.toNat left right quotient) ∧
    (largestExponent < |context.precision.toNat + right.scale.toInt - left.scale.toInt| →
      ∃ size, Standard.combine '/' left right context = .error (.exponentTooLarge size)) := by
  have fits := dividesAt_precisionScale context first second
  have exponent : quotientExponent left right context.precisionScale =
      context.precision.toNat + right.scale.toInt - left.scale.toInt := by
    rw [quotientExponent, toInt_precisionScale]
  rw [← exponent]
  constructor
  · intro few
    have divided := divideAtScale_of_fits .halfEven nonzero fits few
    refine ⟨_, map_eq_ok_iff.mpr ⟨_, divided, rfl⟩, ?_⟩
    exact isQuotientTo_of_divideAtScale nonzero second divided
  · intro far
    refine ⟨|quotientExponent left right context.precisionScale|, ?_⟩
    change some <$> left.divideAtScale right context.precisionScale .halfEven = _
    rw [divideAtScale_of_far .halfEven nonzero fits far]
    rfl

theorem Standard.combine_division_one_third :
    ∃ third : Decimal, Standard.combine '/' 1 3 {} = .ok (some third) ∧
      |1 / 3 - third.value| ≤ 10 ^ (1 - 20 : Int) * (1 / 3) := by
  have three : (3 : Decimal).value = 3 := by exact_mod_cast value_ofInt 3
  have nonzero : (3 : Decimal).value ≠ 0 := by
    rw [three]
    norm_num
  have first : HasNarrowScale 1 := ⟨by decide, by decide⟩
  have second : HasNarrowScale 3 := ⟨by decide, by decide⟩
  obtain ⟨third, combined, near⟩ :=
    (Standard.combine_division {} nonzero first second).1 (by decide)
  have relative := near.relative
  rw [value_one, three, abs_of_pos (by norm_num : (0 : ℚ) < 1 / 3)] at relative
  exact ⟨third, combined, relative (by norm_num)⟩

/-- The reciprocal of a number with thirty zeros is lost at 20 digits. -/
theorem Standard.combine_division_reciprocal_lost :
    let dividend : Decimal := 1
    let divisor : Decimal := ofInt (10 ^ 30)
    Standard.combine '/' dividend divisor {} = .ok (some ⟨0, 20⟩) ∧
      dividend.value / divisor.value = 1 / 10 ^ 30 ∧
      ¬|dividend.value / divisor.value - (⟨0, 20⟩ : Decimal).value| ≤
        10 ^ (1 - 20 : Int) * |dividend.value / divisor.value| := by
  intro dividend divisor
  have quotient : dividend.value / divisor.value = 1 / 10 ^ 30 := by
    rw [value_one, value_ofInt]
    norm_num
  have lost : (⟨0, 20⟩ : Decimal).value = 0 := value_eq_zero_iff.mpr rfl
  refine ⟨by decide +kernel, quotient, ?_⟩
  rw [quotient, lost, sub_zero]
  norm_num [abs_of_pos]

/-! ### The working precision -/

theorem Context.ofDisplayScale_eq_ok_iff {displayScale : UInt32} :
    Context.ofDisplayScale displayScale = .ok context ↔
      displayScale.toNat * 3 < 2 ^ 32 ∧ ⟨displayScale, max (displayScale * 3 / 2) 20⟩ = context :=
  unlessOverflow_eq_ok_iff

theorem Context.ofDisplayScale_eq_overflow {displayScale : UInt32}
    (wide : 2 ^ 32 ≤ displayScale.toNat * 3) :
    Context.ofDisplayScale displayScale = .error .overflow :=
  if_neg (not_lt.mpr wide)

theorem Context.le_precision_of_ofDisplayScale {displayScale : UInt32}
    (set : Context.ofDisplayScale displayScale = .ok context) :
    context.displayScale = displayScale ∧ displayScale.toNat ≤ context.precision.toNat := by
  obtain ⟨fits, rfl⟩ := Context.ofDisplayScale_eq_ok_iff.mp set
  have half : (displayScale * 3 / 2).toNat = displayScale.toNat * 3 / 2 := by
    rw [UInt32.toNat_div, UInt32.toNat_mul]
    exact congrArg (· / 2) (Nat.mod_eq_of_lt fits)
  refine ⟨rfl, ?_⟩
  change _ ≤ (if displayScale * 3 / 2 ≤ 20 then (20 : UInt32) else displayScale * 3 / 2).toNat
  split
  · rename_i few
    have small := UInt32.le_iff_toNat_le.mp few
    rw [half] at small
    change _ ≤ 20 at small
    change _ ≤ 20
    omega
  · rw [half]
    omega

/-! ### Quotients as they are shown -/

namespace Evaluation

/-- Two expressions that stand for the operands of a division. -/
structure AreOperands (context : Context) (left right : Expression) (dividend divisor : Decimal) :
    Prop where
  walkedLeft : walk .standard context left = .ok (.scalar dividend)
  walkedRight : walk .standard context right = .ok (.scalar divisor)
  dividendNarrow : dividend.HasNarrowScale
  divisorNarrow : divisor.HasNarrowScale
  nonzero : divisor.value ≠ 0

variable {dividend divisor : Decimal} {leftTree rightTree : Expression}

theorem operation_division (rightTree : Expression)
    (word : IsWord (dividend.scale.toInt + divisor.scale.toInt)) :
    operation .standard context '/' rightTree dividend divisor =
      dividend.divideAtScale divisor context.precisionScale .halfEven := by
  by_cases percent : rightTree.isSuffix percentSign = true
  · have part : Checked.mul dividend divisor = .ok (dividend * divisor) := unlessOverflow_of word
    have quotient : Standard.combinePercent '/' dividend divisor context =
        some <$> dividend.divideAtScale divisor context.precisionScale .halfEven := by
      rw [Standard.combinePercent, part]
      rfl
    rw [operation_of_percent '/' percent]
    change resolved _ (Standard.combinePercent '/' dividend divisor context) = _
    rw [quotient]
    exact resolved_map_some _ _
  · rw [operation_of_plain '/' percent]
    exact resolved_map_some _ _

theorem walk_division (operands : AreOperands context leftTree rightTree dividend divisor) :
    walk .standard context (.operator '/' leftTree rightTree) =
      Value.scalar <$> dividend.divideAtScale divisor context.precisionScale .halfEven := by
  have word : IsWord (dividend.scale.toInt + divisor.scale.toInt) := by
    obtain ⟨lower, upper⟩ := operands.dividendNarrow
    obtain ⟨lower', upper'⟩ := operands.divisorNarrow
    exact ⟨by omega, by omega⟩
  rw [walk_operator_eq_broadcast '/' operands.walkedLeft operands.walkedRight, broadcast]
  simp only [Value.scalar?_scalar, Value.tryMap_scalar, operation_division rightTree word]

theorem evaluate_division_eq_ok_iff {result : Value}
    (operands : AreOperands context leftTree rightTree dividend divisor) :
    evaluate .standard context (.operator '/' leftTree rightTree) = .ok result ↔
      ∃ quotient, dividend.divideAtScale divisor context.precisionScale .halfEven = .ok quotient ∧
        result = .scalar (finalForm context.displayScale quotient) := by
  rw [evaluate_eq_ok_iff, walk_division operands]
  constructor
  · rintro ⟨value, walked, _, rfl⟩
    obtain ⟨quotient, divided, rfl⟩ := map_eq_ok_iff.mp walked
    exact ⟨quotient, divided, rfl⟩
  · rintro ⟨quotient, divided, rfl⟩
    refine ⟨.scalar quotient, map_eq_ok_iff.mpr ⟨quotient, divided, rfl⟩, ?_, rfl⟩
    have exact := isQuotientTo_of_divideAtScale operands.nonzero
      operands.divisorNarrow divided
    exact fun number member => List.mem_singleton.mp member ▸ Reaches.of_nonneg exact.fractional

/-- The final form of a quotient is at most one unit of the last digit shown away, if the
quotient has that digit. -/
theorem abs_finalForm_sub_le {quotient : Decimal}
    (exact : IsQuotientTo context.precision.toNat dividend divisor quotient)
    (reaches : displayScale.toNat ≤ context.precision.toNat) :
    |(finalForm displayScale quotient).value - dividend.value / divisor.value| ≤
      1 / 10 ^ displayScale.toNat := by
  have bound := context.precision.toNat_lt
  have room : 2 ^ 32 ≤ largestExponent + 1 := by decide
  have scale := exact.scale
  have near := exact.near
  have final := value_finalForm_of_written displayScale exact.fractional (by omega)
  have second := abs_sub_roundedAt_le (-displayScale.toNat) quotient.value
  have finer : (10 : ℚ) ^ (-context.precision.toNat : Int) ≤ 10 ^ (-displayScale.toNat : Int) :=
    zpow_le_zpow_right₀ (by norm_num) (by omega)
  have unit : (1 : ℚ) / 10 ^ displayScale.toNat = 10 ^ (-displayScale.toNat : Int) := by
    rw [zpow_neg, zpow_natCast, one_div]
  have split := abs_sub_le (dividend.value / divisor.value) quotient.value
    (finalForm displayScale quotient).value
  rw [← roundedTo_eq_roundedAt, ← final] at second
  rw [unit, abs_sub_comm]
  linarith

/-- Whether a calculator with the standard resolvers takes the display scale, and every
quotient that it shows then is within one unit of the last digit asked for. -/
def ShowsQuotients (displayScale : UInt32) : Prop :=
  ∀ calculator : Calculator, calculator.resolvers = .standard →
    ∃ after : Calculator, calculator.step (.setDisplayScale displayScale) = (after, .done) ∧
      ∀ (leftTree rightTree : Expression) (dividend divisor : Decimal) (result : Value),
        AreOperands after.context leftTree rightTree dividend divisor →
        after.evaluate (.operator '/' leftTree rightTree) = .ok result →
        ∃ number, result = .scalar number ∧
          |number.value - dividend.value / divisor.value| ≤ 1 / 10 ^ displayScale.toNat

theorem showsQuotients_of_fits (fits : displayScale.toNat * 3 < 2 ^ 32) :
    ShowsQuotients displayScale := by
  rintro ⟨tables, resolvers, before⟩ rfl
  obtain ⟨context, set⟩ : ∃ context, Context.ofDisplayScale displayScale = .ok context :=
    ⟨_, Context.ofDisplayScale_eq_ok_iff.mpr ⟨fits, rfl⟩⟩
  obtain ⟨shown, reaches⟩ := Context.le_precision_of_ofDisplayScale set
  refine ⟨⟨tables, .standard, context⟩, ?_, ?_⟩
  · rw [Calculator.step, set]
    rfl
  · intro leftTree rightTree dividend divisor result operands evaluated
    have reached := mapError_eq_ok_iff.mp evaluated
    obtain ⟨quotient, divided, rfl⟩ := (evaluate_division_eq_ok_iff operands).mp reached
    have near := isQuotientTo_of_divideAtScale operands.nonzero
      operands.divisorNarrow divided
    refine ⟨_, rfl, ?_⟩
    change |(finalForm context.displayScale quotient).value - _| ≤ _
    rw [shown]
    exact abs_finalForm_sub_le near reaches

end Evaluation

namespace Calculator

theorem step_setDisplayScale_of_overflow (calculator : Calculator)
    (wide : 2 ^ 32 ≤ displayScale.toNat * 3) :
    calculator.step (.setDisplayScale displayScale) =
      (calculator, .failed (.evaluation .overflow)) := by
  rw [step, Context.ofDisplayScale_eq_overflow wide]
  rfl

/-- After the display scale is set every quotient is shown to the digits asked for, with a
working precision that is never below the display scale, exactly if three times the display
scale is a word.  For all others the command ends with an overflow. -/
theorem showsQuotients_iff (displayScale : UInt32) :
    (Evaluation.ShowsQuotients displayScale ↔ displayScale.toNat * 3 < 2 ^ 32) ∧
      (∀ context, Context.ofDisplayScale displayScale = .ok context →
        displayScale.toNat ≤ context.precision.toNat) ∧
      (2 ^ 32 ≤ displayScale.toNat * 3 → ∀ calculator : Calculator,
        calculator.step (.setDisplayScale displayScale) =
          (calculator, .failed (.evaluation .overflow))) := by
  refine ⟨⟨?_, Evaluation.showsQuotients_of_fits⟩,
    fun context set => (Context.le_precision_of_ofDisplayScale set).2,
    fun wide calculator => step_setDisplayScale_of_overflow calculator wide⟩
  intro shows
  by_contra wide
  obtain ⟨after, done, _⟩ := shows {} rfl
  rw [step_setDisplayScale_of_overflow {} (not_lt.mp wide)] at done
  cases done

/-- The least display scale whose triple is not a word is refused. -/
theorem step_setDisplayScale_overflows :
    ({} : Calculator).step (.setDisplayScale 1431655766) =
        ({}, .failed (.evaluation .overflow)) ∧
      ¬Evaluation.ShowsQuotients 1431655766 := by
  have wide : 2 ^ 32 ≤ (1431655766 : UInt32).toNat * 3 := by decide
  refine ⟨step_setDisplayScale_of_overflow {} wide, fun shows => ?_⟩
  obtain ⟨after, done, _⟩ := shows {} rfl
  rw [step_setDisplayScale_of_overflow {} wide] at done
  cases done

end Calculator
end DecimalCalculator
