/-
Opposite numbers.

Negation keeps the scale.  Rounding half to even and half away from zero looks at the size of a
number alone, so rounding and division, as they use these modes, give opposite results for
opposite operands, in opposite forms and with the same errors.
-/

import Mathlib
import DecimalCalculator.Proofs.Decimal.Modes

namespace DecimalCalculator

/-! ### Rounding -/

namespace RoundingMode

variable {mode : RoundingMode} {value : ℚ} {integer : Int} {preferred : Int → Int → Prop}

def IsSymmetric (mode : RoundingMode) : Prop :=
  ∀ value : ℚ, mode.round (-value) = -mode.round value

theorem abs_neg_sub_neg (value : ℚ) (integer : Int) :
    |-value - (-integer : Int)| = |value - integer| := by
  rw [Int.cast_neg, neg_sub_neg, abs_sub_comm]

/-- If the preference looks at sizes alone, the opposite of the nearest integer is nearest to
the opposite value. -/
theorem IsNearest.neg (mirrored : ∀ chosen other, preferred chosen (-other) →
    preferred (-chosen) other) (nearest : IsNearest preferred value integer) :
    IsNearest preferred (-value) (-integer) := by
  constructor
  · intro other
    have closest := nearest.closest (-other)
    rw [← abs_neg_sub_neg value (-other), neg_neg] at closest
    rwa [abs_neg_sub_neg]
  · intro other different tie
    rw [abs_neg_sub_neg, ← neg_neg other, abs_neg_sub_neg] at tie
    exact mirrored integer other (nearest.tie (-other) (fun same => different (by omega)) tie)

theorem isSymmetric_halfEven : halfEven.IsSymmetric := fun value =>
  round_eq_iff_prescribes.mpr <|
    (isNearest_round_halfEven value).neg fun _ _ => Even.neg

theorem isSymmetric_halfUp : halfUp.IsSymmetric := fun value =>
  round_eq_iff_prescribes.mpr <|
    (isNearest_round_halfUp value).neg fun chosen other farther => by
      rwa [abs_neg] at farther ⊢

theorem quotient_neg_left (symmetric : mode.IsSymmetric) (dividend : Int) {divisor : Int}
    (nonzero : divisor ≠ 0) :
    mode.quotient (-dividend) divisor = -mode.quotient dividend divisor := by
  rw [quotient_eq_round mode _ nonzero, quotient_eq_round mode _ nonzero, ← symmetric,
    Int.cast_neg, neg_div]

end RoundingMode

namespace Decimal

variable {dividend divisor dividend' divisor' : Decimal} {scale : Int64} {mode : RoundingMode}

/-! ### Forms -/

@[simp]
theorem unscaled_neg (number : Decimal) : (-number).unscaled = -number.unscaled :=
  rfl

@[simp]
theorem scale_neg (number : Decimal) : (-number).scale = number.scale :=
  rfl

protected theorem neg_neg (number : Decimal) : - -number = number :=
  congrArg (Decimal.mk · number.scale) (Int.neg_neg number.unscaled)

@[simp]
theorem digitCount_neg (number : Decimal) : (-number).digitCount = number.digitCount := by
  rw [digitCount, unscaled_neg, Int.natAbs_neg]
  rfl

@[simp]
theorem sign_neg (number : Decimal) : (-number).sign = -number.sign :=
  Int.sign_neg number.unscaled

@[simp]
theorem isZero_neg (number : Decimal) : (-number).isZero = number.isZero := by
  rw [Bool.eq_iff_iff, isZero_iff, isZero_iff, value_neg, neg_eq_zero]

/-! ### Exact arithmetic -/

theorem alignedTo_neg (number : Decimal) (target : Int64) :
    (-number).alignedTo target = -number.alignedTo target := by
  simp only [alignedTo, unscaled_neg, scale_neg, neg_eq_zero]
  split
  · rfl
  · exact Int.neg_mul _ _

protected theorem neg_sub_neg (left right : Decimal) : -left - -right = -(left - right) := by
  change (⟨(-left).alignedTo (left.commonScale right) -
    (-right).alignedTo (left.commonScale right), left.commonScale right⟩ : Decimal) =
      ⟨-(left.alignedTo (left.commonScale right) - right.alignedTo (left.commonScale right)), _⟩
  rw [alignedTo_neg, alignedTo_neg]
  congr 1
  omega

protected theorem neg_add_neg (left right : Decimal) : -left + -right = -(left + right) := by
  change (⟨(-left).alignedTo (left.commonScale right) +
    (-right).alignedTo (left.commonScale right), left.commonScale right⟩ : Decimal) =
      ⟨-(left.alignedTo (left.commonScale right) + right.alignedTo (left.commonScale right)), _⟩
  rw [alignedTo_neg, alignedTo_neg]
  congr 1
  omega

protected theorem neg_mul (left right : Decimal) : -left * right = -(left * right) :=
  congrArg (Decimal.mk · (left.scale + right.scale)) (Int.neg_mul left.unscaled right.unscaled)

protected theorem neg_mul_neg (left right : Decimal) : -left * -right = left * right :=
  congrArg (Decimal.mk · (left.scale + right.scale)) (Int.neg_mul_neg left.unscaled right.unscaled)

/-! ### Rounding -/

theorem setScale_neg (symmetric : mode.IsSymmetric) (number : Decimal) (target : Int64) :
    (-number).setScale target mode = -number.setScale target mode := by
  have ten : (10 : Int) ≠ 0 := by decide
  simp only [setScale, scale_neg, sign_neg, unscaled_neg, alignedTo_neg]
  split
  · rfl
  · split
    · have power (dropped : Nat) : ((10 ^ dropped : Nat) : Int) ≠ 0 := by
        exact_mod_cast (Nat.pow_pos (by decide)).ne'
      rw [RoundingMode.quotient_neg_left symmetric _ (power _)]
      rfl
    · rw [RoundingMode.quotient_neg_left symmetric _ ten]
      rfl

theorem roundToPrecision_neg (number : Decimal) (precision : UInt32) :
    (-number).roundToPrecision precision = -number.roundToPrecision precision := by
  simp only [roundToPrecision, digitCount_neg, scale_neg,
    setScale_neg RoundingMode.isSymmetric_halfEven]
  split
  · rfl
  · rfl

/-! ### Division -/

def IsOpposite (first second : Decimal) : Prop :=
  second = -first

theorem dividesAt_congr (scales : divisor'.scale = divisor.scale)
    (exponents : quotientExponent dividend' divisor' scale =
      quotientExponent dividend divisor scale) :
    DividesAt dividend' divisor' scale ↔ DividesAt dividend divisor scale := by
  constructor
  · rintro ⟨sum, exponent, opposite⟩
    rw [scales] at sum
    rw [exponents] at exponent opposite
    exact ⟨sum, exponent, opposite⟩
  · rintro ⟨sum, exponent, opposite⟩
    rw [← scales] at sum
    rw [← exponents] at exponent opposite
    exact ⟨sum, exponent, opposite⟩

/-- A quotient is opposite to another one of numbers with the same scales if the quotients of the
values are. -/
theorem divideAtScale_endAlike (symmetric : mode.IsSymmetric)
    (scales : dividend'.scale = dividend.scale) (scales' : divisor'.scale = divisor.scale)
    (zeros : divisor'.value = 0 ↔ divisor.value = 0)
    (opposite : dividend'.value / divisor'.value = -(dividend.value / divisor.value)) :
    EndAlike IsOpposite (dividend.divideAtScale divisor scale mode)
      (dividend'.divideAtScale divisor' scale mode) := by
  have exponents : quotientExponent dividend' divisor' scale =
      quotientExponent dividend divisor scale := by
    rw [quotientExponent, quotientExponent, scales, scales']
  have fits := dividesAt_congr scales' exponents
  by_cases zero : divisor.value = 0
  · rw [divideAtScale_of_zero mode zero, divideAtScale_of_zero mode (zeros.mpr zero)]
    exact .error rfl
  · have zero' := mt zeros.mp zero
    rcases divideAtScale_cases dividend scale mode zero with
      ⟨breaks, broken⟩ | ⟨kept, far, refused⟩ | ⟨kept, near, reached⟩
    · rw [broken, divideAtScale_of_not_fits mode zero' (mt fits.mp breaks)]
      exact .error rfl
    · rw [refused, divideAtScale_of_far mode zero' (fits.mpr kept) (exponents ▸ far), exponents]
      exact .error rfl
    · rw [reached, divideAtScale_of_fits mode zero' (fits.mpr kept) (exponents ▸ near), opposite,
        neg_mul, symmetric]
      exact .ok rfl

theorem divideAtScale_neg_left (symmetric : mode.IsSymmetric) (dividend divisor : Decimal)
    (scale : Int64) :
    EndAlike IsOpposite (dividend.divideAtScale divisor scale mode)
      ((-dividend).divideAtScale divisor scale mode) :=
  divideAtScale_endAlike symmetric rfl rfl Iff.rfl (by rw [value_neg, neg_div])

theorem divideAtScale_neg_right (symmetric : mode.IsSymmetric) (dividend divisor : Decimal)
    (scale : Int64) :
    EndAlike IsOpposite (dividend.divideAtScale divisor scale mode)
      (dividend.divideAtScale (-divisor) scale mode) :=
  divideAtScale_endAlike symmetric rfl rfl (by rw [value_neg, neg_eq_zero])
    (by rw [value_neg, div_neg])

theorem IsOpposite.roundToPrecision {first second : Decimal} (opposite : IsOpposite first second)
    (precision : UInt32) :
    IsOpposite (first.roundToPrecision precision) (second.roundToPrecision precision) := by
  subst opposite
  exact roundToPrecision_neg first precision

theorem Checked.setScale_neg (symmetric : mode.IsSymmetric) (number : Decimal) (target : Int64) :
    EndAlike IsOpposite (Checked.setScale number target mode)
      (Checked.setScale (-number) target mode) := by
  have meets : number.Meets target ↔ (-number).Meets target := by
    rw [Meets, Meets, Reaches, Reaches, unscaled_neg, scale_neg, neg_eq_zero]
  rw [Checked.setScale, Checked.setScale, Decimal.setScale_neg symmetric]
  by_cases holds : number.Meets target
  · rw [unlessOverflow_of holds, unlessOverflow_of (meets.mp holds)]
    exact .ok rfl
  · rw [unlessOverflow_of_not holds, unlessOverflow_of_not (mt meets.mpr holds)]
    exact .error rfl

theorem Checked.sub_neg (left right : Decimal) :
    EndAlike IsOpposite (Checked.sub left right) (Checked.sub (-left) (-right)) := by
  have aligned : Aligned left right ↔ Aligned (-left) (-right) := by
    rw [← aligned_abs_iff, ← @aligned_abs_iff (-left), abs_opposite, abs_opposite]
  rw [Checked.sub, Checked.sub, Decimal.neg_sub_neg]
  by_cases holds : Aligned left right
  · rw [unlessOverflow_of holds, unlessOverflow_of (aligned.mp holds)]
    exact .ok rfl
  · rw [unlessOverflow_of_not holds, unlessOverflow_of_not (mt aligned.mpr holds)]
    exact .error rfl

theorem IsOpposite.checkedRoundToPrecision {first second : Decimal}
    (opposite : IsOpposite first second) (precision : UInt32) :
    EndAlike IsOpposite (Checked.roundToPrecision first precision)
      (Checked.roundToPrecision second precision) := by
  subst opposite
  simp only [Checked.roundToPrecision, digitCount_neg, scale_neg]
  split
  · exact .ok rfl
  · exact .bind_same _ fun target => Checked.setScale_neg RoundingMode.isSymmetric_halfEven _ _

theorem divideToPrecision_endAlike (zeros : dividend'.isZero = dividend.isZero)
    (zeros' : divisor'.isZero = divisor.isZero)
    (places : Checked.leadingExponent dividend' = Checked.leadingExponent dividend)
    (places' : Checked.leadingExponent divisor' = Checked.leadingExponent divisor)
    (precision : UInt32)
    (opposite : ∀ scale, EndAlike IsOpposite (dividend.divideAtScale divisor scale .halfEven)
      (dividend'.divideAtScale divisor' scale .halfEven)) :
    EndAlike IsOpposite (dividend.divideToPrecision divisor precision)
      (dividend'.divideToPrecision divisor' precision) := by
  unfold divideToPrecision
  rw [zeros, zeros', places, places']
  cases divisor.isZero with
  | true => exact .error rfl
  | false =>
      cases dividend.isZero with
      | true => exact .ok rfl
      | false =>
          refine .bind_same _ fun first => .bind_same _ fun second => ?_
          refine .bind_same _ fun exponent => .bind_same _ fun scale => ?_
          exact (opposite scale).bind fun _ _ same => same.checkedRoundToPrecision precision

theorem Checked.leadingExponent_neg (number : Decimal) :
    Checked.leadingExponent (-number) = Checked.leadingExponent number := by
  rw [Checked.leadingExponent, digitCount_neg, scale_neg]
  rfl

theorem divideToPrecision_neg_left (dividend divisor : Decimal) (precision : UInt32) :
    EndAlike IsOpposite (dividend.divideToPrecision divisor precision)
      ((-dividend).divideToPrecision divisor precision) :=
  divideToPrecision_endAlike (isZero_neg dividend) rfl (Checked.leadingExponent_neg dividend) rfl
    precision (divideAtScale_neg_left RoundingMode.isSymmetric_halfEven dividend divisor)

theorem divideToPrecision_neg_right (dividend divisor : Decimal) (precision : UInt32) :
    EndAlike IsOpposite (dividend.divideToPrecision divisor precision)
      (dividend.divideToPrecision (-divisor) precision) :=
  divideToPrecision_endAlike rfl (isZero_neg divisor) rfl (Checked.leadingExponent_neg divisor)
    precision (divideAtScale_neg_right RoundingMode.isSymmetric_halfEven dividend divisor)

end Decimal
end DecimalCalculator
