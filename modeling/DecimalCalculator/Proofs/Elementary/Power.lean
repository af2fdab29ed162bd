/-
Roots and powers of a value.
-/

import Mathlib
import DecimalCalculator.Elementary.Power
import DecimalCalculator.Proofs.Elementary.Exponential

namespace DecimalCalculator
namespace Elementary

open Decimal

variable {radicand radicand' base base' : Decimal} {precision : Precision}

/-! ### Roots of integer degree -/

section RootAtScale

variable {degree : Nat} {scale : Int64}

theorem rootAtScale_of_not_fits (breaks : ¬RootsAt radicand degree scale) :
    rootAtScale radicand degree scale = .error .overflow :=
  requireWords_bind_of_not breaks

theorem toInt_rootExponent (fits : RootsAt radicand degree scale) :
    (Int64.ofNat degree * scale - radicand.scale).toInt =
      degree * scale.toInt - radicand.scale.toInt := by
  have exponent : Int64.ofNat degree * scale - radicand.scale =
      Int64.ofInt (degree * scale.toInt - radicand.scale.toInt) := by
    rw [Int64.ofInt_sub, Int64.ofInt_mul, Int64.ofInt_toInt, Int64.ofInt_toInt,
      Int64.ofInt_eq_ofNat]
  rw [exponent]
  exact Int64.toInt_ofInt_of_le fits.exponent.1 fits.exponent.2

/-- A root whose power of ten can be written out is the integer part of the root of the
radicand in units of the scale. -/
theorem rootAtScale_of_fits (fits : RootsAt radicand degree scale)
    (near : |degree * scale.toInt - radicand.scale.toInt| ≤ largestExponent) :
    rootAtScale radicand degree scale =
      .ok ⟨IntegerRoot.floorRoot degree ⌊(radicand.unscaled.natAbs : ℚ) *
        10 ^ (degree * scale.toInt - radicand.scale.toInt)⌋₊, scale⟩ := by
  have size := toInt_rootExponent fits
  have opposite := fits.opposite
  rw [← neg_sub, ← size] at opposite
  rw [← size] at near ⊢
  rw [rootAtScale, requireWords_bind_of fits]
  generalize Int64.ofNat degree * scale - radicand.scale = exponent at near opposite
  obtain ⟨lower, upper⟩ := abs_le.mp near
  have nonneg_iff : 0 ≤ exponent ↔ 0 ≤ exponent.toInt := by
    rw [Int64.le_iff_toInt_le, Int64.toInt_zero]
  by_cases finer : 0 ≤ exponent
  · simp only [finer, ↓reduceIte]
    obtain ⟨places, known⟩ := Int.eq_ofNat_of_zero_le (nonneg_iff.mp finer)
    have floor : ⌊(radicand.unscaled.natAbs : ℚ) * 10 ^ exponent.toInt⌋₊ =
        radicand.unscaled.natAbs * 10 ^ places := by
      rw [known, zpow_natCast]
      exact_mod_cast Nat.floor_natCast (R := ℚ) (radicand.unscaled.natAbs * 10 ^ places)
    rw [powerOfTen_of_le known (by omega), floor]
    rfl
  · simp only [finer, ↓reduceIte]
    obtain ⟨places, known⟩ :=
      Int.exists_eq_neg_ofNat (not_le.mp (mt nonneg_iff.mpr finer)).le
    have known' : (-exponent).toInt = places := by
      rw [toInt_neg_of_isWord opposite, known, neg_neg]
    have floor : ⌊(radicand.unscaled.natAbs : ℚ) * 10 ^ exponent.toInt⌋₊ =
        radicand.unscaled.natAbs / 10 ^ places := by
      rw [known, zpow_neg, zpow_natCast, ← div_eq_mul_inv]
      exact_mod_cast Nat.floor_div_eq_div (K := ℚ) radicand.unscaled.natAbs (10 ^ places)
    rw [powerOfTen_of_le known' (by omega), floor]
    rfl

theorem rootAtScale_of_far (fits : RootsAt radicand degree scale)
    (far : largestExponent < |degree * scale.toInt - radicand.scale.toInt|) :
    rootAtScale radicand degree scale =
      .error (.exponentTooLarge |degree * scale.toInt - radicand.scale.toInt|) := by
  have size := toInt_rootExponent fits
  have opposite := fits.opposite
  rw [← neg_sub, ← size] at opposite
  rw [← size] at far ⊢
  rw [rootAtScale, requireWords_bind_of fits]
  generalize Int64.ofNat degree * scale - radicand.scale = exponent at far opposite
  have nonneg_iff : 0 ≤ exponent ↔ 0 ≤ exponent.toInt := by
    rw [Int64.le_iff_toInt_le, Int64.toInt_zero]
  by_cases finer : 0 ≤ exponent
  · rw [abs_of_nonneg (nonneg_iff.mp finer)] at far ⊢
    simp only [finer, ↓reduceIte, powerOfTen_of_lt far]
    rfl
  · have known := toInt_neg_of_isWord opposite
    rw [abs_of_neg (not_le.mp (mt nonneg_iff.mpr finer)), ← known] at far ⊢
    simp only [finer, ↓reduceIte, powerOfTen_of_lt far]
    rfl

theorem rootAtScale_cases (radicand : Decimal) (degree : Nat) (scale : Int64) :
    (¬RootsAt radicand degree scale ∧ rootAtScale radicand degree scale = .error .overflow) ∨
      (RootsAt radicand degree scale ∧
        rootAtScale radicand degree scale =
          .error (.exponentTooLarge |degree * scale.toInt - radicand.scale.toInt|)) ∨
      RootsAt radicand degree scale ∧
        |degree * scale.toInt - radicand.scale.toInt| ≤ largestExponent ∧
        rootAtScale radicand degree scale =
          .ok ⟨IntegerRoot.floorRoot degree ⌊(radicand.unscaled.natAbs : ℚ) *
            10 ^ (degree * scale.toInt - radicand.scale.toInt)⌋₊, scale⟩ := by
  by_cases fits : RootsAt radicand degree scale
  · rcases le_or_gt |degree * scale.toInt - radicand.scale.toInt| largestExponent with near | far
    · exact Or.inr (Or.inr ⟨fits, near, rootAtScale_of_fits fits near⟩)
    · exact Or.inr (Or.inl ⟨fits, rootAtScale_of_far fits far⟩)
  · exact Or.inl ⟨fits, rootAtScale_of_not_fits fits⟩

theorem units_of_rootAtScale {root : Decimal}
    (reached : rootAtScale radicand degree scale = .ok root) :
    RootsAt radicand degree scale ∧
      |degree * scale.toInt - radicand.scale.toInt| ≤ largestExponent ∧
      root = ⟨IntegerRoot.floorRoot degree ⌊(radicand.unscaled.natAbs : ℚ) *
        10 ^ (degree * scale.toInt - radicand.scale.toInt)⌋₊, scale⟩ := by
  rcases rootAtScale_cases radicand degree scale with
    ⟨-, broken⟩ | ⟨-, refused⟩ | ⟨fits, near, found⟩
  · rw [broken] at reached
    cases reached
  · rw [refused] at reached
    cases reached
  · rw [found, Except.ok.injEq] at reached
    exact ⟨fits, near, reached.symm⟩

theorem units_mul_zpow (nonneg : 0 ≤ radicand.value) (places : Int) :
    (radicand.unscaled.natAbs : ℚ) * 10 ^ (places - radicand.scale.toInt) =
      radicand.value * 10 ^ places := by
  have units : (radicand.unscaled.natAbs : ℚ) = radicand.unscaled := by
    rw [Nat.cast_natAbs, abs_of_nonneg (value_nonneg_iff.mp nonneg)]
  rw [units, value, zpow_sub₀ (by norm_num)]
  ring

theorem rootAtScale_concur (nonneg : 0 ≤ radicand.value)
    (same : radicand.value = radicand'.value) :
    Concur Eq (rootAtScale radicand degree scale) (rootAtScale radicand' degree scale) := by
  rcases rootAtScale_cases radicand degree scale with
    ⟨-, broken⟩ | ⟨-, refused⟩ | ⟨-, -, reached⟩
  · rw [broken]
    exact .leftOverflow _
  · rw [refused]
    exact .leftTooLarge _ _
  · rcases rootAtScale_cases radicand' degree scale with
      ⟨-, broken⟩ | ⟨-, refused⟩ | ⟨-, -, reached'⟩
    · rw [broken]
      exact .rightOverflow _
    · rw [refused]
      exact .rightTooLarge _ _
    · rw [reached, reached', units_mul_zpow nonneg, units_mul_zpow (same ▸ nonneg), same]
      exact .ok rfl

end RootAtScale

theorem rootOfPositive_concur {degree : UInt32} (positive : 0 < radicand.value)
    (same : radicand.value = radicand'.value) :
    Concur Eq (rootOfPositive radicand degree precision)
      (rootOfPositive radicand' degree precision) := by
  refine .requireWords fun _ _ => ?_
  refine (Checked.leadingExponent_concur positive.ne' same).bind_eq fun leading _ _ => ?_
  refine Concur.bind_eq (.of_eq rfl) fun scale _ _ => ?_
  exact (rootAtScale_concur positive.le same).bind_eq fun _ _ _ => .of_eq rfl

theorem root_concur {degree : UInt32} (same : radicand.value = radicand'.value) :
    Concur Eq (root radicand degree precision) (root radicand' degree precision) := by
  rw [root, root, ← isZero_congr same, ← isNegative_congr same]
  by_cases none : degree = 0
  · simp only [none, ↓reduceIte]
    exact .error rfl
  · cases zero : radicand.isZero with
    | true =>
        simp only [none, ↓reduceIte]
        exact .ok rfl
    | false =>
        have nonzero := isZero_eq_false_iff.mp zero
        cases negative : radicand.isNegative with
        | true =>
            have below := isNegative_iff.mp negative
            by_cases even : degree % 2 = 0
            · simp only [none, even, ↓reduceIte]
              exact Checked.refuse_concur rfl
            · have positive : 0 < radicand.abs.value := by
                rw [value_abs]
                exact abs_pos.mpr nonzero
              have opposite : radicand.abs.value = radicand'.abs.value := by
                rw [value_abs, value_abs, same]
              simp only [none, even, ↓reduceIte]
              refine (rootOfPositive_concur positive opposite).bind_eq fun _ _ _ => ?_
              exact .of_eq rfl
        | false =>
            have nonneg := isNegative_eq_false_iff.mp negative
            have positive := lt_of_le_of_ne nonneg nonzero.symm
            simp only [none, ↓reduceIte]
            exact rootOfPositive_concur positive same

/-! ### Roots of any degree -/

theorem toUInt32?_abs_congr {degree degree' : Decimal} (same : degree.value = degree'.value)
    (left : degree.abs.Rounds 0) (right : degree'.abs.Rounds 0) :
    degree.abs.toUInt32? = degree'.abs.toUInt32? :=
  toUInt32?_congr (by rw [value_abs, value_abs, same]) left right

/-- What a root of a nonzero number of a nonzero degree asks of their forms. -/
structure RootOfDegreeSteps (radicand degree : Decimal) : Prop where
  degreeFits : degree.abs.Rounds 0
  fraction : degree.abs.toUInt32? = none → radicand.IsShort

def RootOfDegreeFits (radicand degree : Decimal) : Prop :=
  degree.value ≠ 0 → radicand.value ≠ 0 → RootOfDegreeSteps radicand degree

theorem rootOfDegree_concur {degree degree' : Decimal}
    (radicands : radicand.value = radicand'.value) (degrees : degree.value = degree'.value)
    (left : RootOfDegreeFits radicand degree)
    (right : RootOfDegreeFits radicand' degree') :
    Concur Eq (rootOfDegree radicand degree precision)
      (rootOfDegree radicand' degree' precision) := by
  rw [rootOfDegree, rootOfDegree, ← isZero_congr degrees, ← isZero_congr radicands,
    ← isNegative_congr degrees]
  cases none : degree.isZero with
  | true => exact .error rfl
  | false =>
      cases zero : radicand.isZero with
      | true => exact .ok rfl
      | false =>
          have first := isZero_eq_false_iff.mp none
          have second := isZero_eq_false_iff.mp zero
          have fits := left first second
          have fits' := right (degrees ▸ first) (radicands ▸ second)
          have whole := toUInt32?_abs_congr degrees fits.degreeFits fits'.degreeFits
          refine Concur.bind_eq (.checked fun _ _ => whole) fun word reached _ => ?_
          have known := (unlessOverflow_eq_ok_iff.mp reached).2
          cases word with
          | some integer =>
              refine (root_concur radicands).bind_eq fun result _ _ => ?_
              exact .of_eq rfl
          | none =>
              have short := fits.fraction known
              have short' := fits'.fraction (whole ▸ known)
              refine .requireWords fun _ _ => ?_
              refine (ln_concur radicands short short').bind_eq fun logarithm _ _ => ?_
              refine (divideToPrecision_concur _ rfl degrees).bind_eq fun quotient _ _ => ?_
              exact .of_eq rfl

/-! ### Powers -/

theorem value_power {exponent : Nat} (word : IsWord (base.scale.toInt * exponent)) :
    (base.power exponent).value = base.value ^ exponent := by
  have scale : (base.scale * Int64.ofNat exponent).toInt = base.scale.toInt * exponent := by
    have places : base.scale * Int64.ofNat exponent =
        Int64.ofInt (base.scale.toInt * exponent) := by
      rw [Int64.ofInt_mul, Int64.ofInt_toInt, Int64.ofInt_eq_ofNat]
    rw [places]
    exact Int64.toInt_ofInt_of_le word.1 word.2
  rw [power_eq]
  change (Int.cast (base.unscaled ^ exponent) : ℚ) /
    10 ^ (base.scale * Int64.ofNat exponent).toInt = _
  rw [scale, zpow_mul, zpow_natCast, Int.cast_pow, ← div_pow]
  rfl

theorem powerOfNatural_concur {exponent : Nat} (same : base.value = base'.value) :
    Concur EqualValues (powerOfNatural base exponent) (powerOfNatural base' exponent) := by
  have sizes : base.abs.value = base'.abs.value := by rw [value_abs, value_abs, same]
  rw [powerOfNatural, powerOfNatural, ← isNegative_congr same]
  by_cases none : exponent = 0
  · simp only [none, ↓reduceIte]
    exact .ok rfl
  · simp only [none, ↓reduceIte]
    refine (Checked.sameValue_concur sizes rfl).bind_eq fun unit _ _ => ?_
    cases unit with
    | true => exact .ok rfl
    | false =>
        by_cases fits : exponent < 2 ^ 64
        · simp only [fits, Bool.false_eq_true, ↓reduceIte, Checked.power_eq]
          refine .checked fun word word' => ?_
          rw [EqualValues, value_power word, value_power word', same]
        · simp only [fits, Bool.false_eq_true, ↓reduceIte]
          exact .error rfl

theorem roundedExponent_cases {exponent exponent' : Decimal} (same : exponent.value = exponent'.value)
    (left : exponent.Rounds 0) (right : exponent'.Rounds 0) :
    (roundedExponent exponent).isInteger = true ∧ (roundedExponent exponent').isInteger = true ∧
        (roundedExponent exponent).toInt = (roundedExponent exponent').toInt ∨
      roundedExponent exponent = roundedExponent exponent' := by
  have integers := isInteger_congr same left right
  rw [roundedExponent, roundedExponent, ← integers]
  cases whole : exponent.isInteger with
  | true => exact Or.inl ⟨whole, integers ▸ whole, toInt_congr same left right⟩
  | false =>
      exact Or.inr (setScale_congr .halfDown same (left.of_fraction whole (by decide))
        (right.of_fraction (integers ▸ whole) (by decide)))

theorem powerOfNonnegative_concur {exponent exponent' : Decimal} (bases : base.value = base'.value)
    (exponents : exponent.value = exponent'.value) (left : exponent.Rounds 0)
    (right : exponent'.Rounds 0) :
    Concur EqualValues (powerOfNonnegative base exponent precision)
      (powerOfNonnegative base' exponent' precision) := by
  unfold powerOfNonnegative
  rcases roundedExponent_cases exponents left right with ⟨whole, whole', integers⟩ | one
  · simp only [whole, whole', ↓reduceIte]
    refine Concur.bind_eq ?_ fun integer _ _ => powerOfNatural_concur bases
    have rounded : Concur (fun first second => first.unscaled = second.unscaled)
        (Checked.setScale (roundedExponent exponent) 0 .down)
        (Checked.setScale (roundedExponent exponent') 0 .down) := .checked fun _ _ => integers
    exact rounded.map fun _ _ equal => equal
  · simp only [← one]
    cases whole : (roundedExponent exponent).isInteger with
    | true =>
        simp only [↓reduceIte]
        exact Concur.bind_eq (.of_eq rfl) fun integer _ _ => powerOfNatural_concur bases
    | false =>
        simp only [Bool.false_eq_true, ↓reduceIte]
        refine (powerOfNatural_concur bases).bind fun powered powered' same _ _ => ?_
        exact (root_concur same).mono fun _ _ equal => congrArg value equal

/-- What a power asks of the form of the exponent, if the base is not zero. -/
def PowFits (base exponent : Decimal) : Prop :=
  base.value ≠ 0 → exponent.Rounds 0

theorem pow_concur {exponent exponent' : Decimal} (bases : base.value = base'.value)
    (exponents : exponent.value = exponent'.value) (left : PowFits base exponent)
    (right : PowFits base' exponent') :
    Concur EqualValues (pow base exponent precision)
      (pow base' exponent' precision) := by
  rw [pow, pow, ← isZero_congr bases, ← isNegative_congr exponents, ← isZero_congr exponents]
  cases zero : base.isZero with
  | true =>
      cases exponent.isNegative with
      | true => exact .error rfl
      | false =>
          cases exponent.isZero with
          | true => exact .error rfl
          | false => exact .ok rfl
  | false =>
      have nonzero := isZero_eq_false_iff.mp zero
      have fits := left nonzero
      have fits' := right (bases ▸ nonzero)
      cases negative : exponent.isNegative with
      | false =>
          exact powerOfNonnegative_concur bases exponents fits fits'
      | true =>
          have opposites : (-exponent).value = (-exponent').value := by
            rw [value_neg, value_neg, exponents]
          refine .requireWords fun _ _ => ?_
          refine (powerOfNonnegative_concur bases opposites fits.opposite fits'.opposite).bind
            fun opposite opposite' same _ _ => ?_
          refine (divideToPrecision_concur _ rfl same).bind_eq fun quotient _ _ => ?_
          exact (Concur.of_eq rfl).mono fun _ _ equal => congrArg value equal

end Elementary
end DecimalCalculator
