/-
Powers with exponents that are not integers.

The exponent is rounded to thousandths, halves towards zero, and read as a fraction in
lowest terms.  If that is an integer, the power is exact; otherwise the denominator is the
degree of a root of an exact power.  An even degree refuses every negative base: the
numerator is odd then, and the exact power is negative.
-/

import Mathlib
import DecimalCalculator.Proofs.Decimal.Modes
import DecimalCalculator.Proofs.Elementary.ExactPower
import DecimalCalculator.Proofs.Elementary.Root

namespace DecimalCalculator
namespace Elementary

open Decimal

variable {base exponent radicand : Decimal} {degree : UInt32} {precision : Precision}
  {whole numerator denominator : Nat}

/-! ### Exponents in lowest terms -/

def exponentFraction (exponent : ℚ) : ℚ :=
  RoundingMode.halfDown.round (exponent * 1000) / 1000

theorem reduced_thousandths (thousandths : Nat) :
    ((thousandths : ℚ) / 1000).num.natAbs = thousandths / thousandths.gcd 1000 ∧
      ((thousandths : ℚ) / 1000).den = 1000 / thousandths.gcd 1000 := by
  have common : 0 < thousandths.gcd 1000 := Nat.gcd_pos_of_pos_right _ (by decide)
  have positive : 0 < 1000 / thousandths.gcd 1000 :=
    Nat.div_pos (Nat.gcd_le_right _ (by decide)) common
  have coprime : (thousandths / thousandths.gcd 1000).Coprime (1000 / thousandths.gcd 1000) :=
    Nat.coprime_div_gcd_div_gcd common
  have lowest : (thousandths : ℚ) / 1000 =
      ((thousandths / thousandths.gcd 1000 : Nat) : Int) /
        ((1000 / thousandths.gcd 1000 : Nat) : Int) := by
    rw [Int.cast_natCast, Int.cast_natCast,
      Nat.cast_div_div_div_cancel_right (Nat.gcd_dvd_right _ _) (Nat.gcd_dvd_left _ _)]
    rfl
  rw [lowest]
  generalize thousandths / thousandths.gcd 1000 = numerator at coprime
  generalize 1000 / thousandths.gcd 1000 = denominator at positive coprime
  have positive' : (0 : Int) < denominator := Int.natCast_pos.mpr positive
  have coprime' : (numerator : Int).natAbs.Coprime (denominator : Int).natAbs := coprime
  constructor
  · rw [Rat.num_div_eq_of_coprime positive' coprime', Int.natAbs_natCast]
  · exact Int.natCast_inj.mp (Rat.den_div_eq_of_coprime positive' coprime')

theorem den_thousandths_eq_one_iff (thousandths : Nat) :
    ((thousandths : ℚ) / 1000).den = 1 ↔ 1000 ∣ thousandths :=
  Rat.den_div_natCast_eq_one_iff thousandths 1000 (by decide)

theorem isInteger_thousandths (thousandths : Nat) :
    (⟨thousandths, 3⟩ : Decimal).isInteger = true ↔ 1000 ∣ thousandths := by
  change ((thousandths : Int).tmod (10 ^ 3 : Nat) == 0) = true ↔ _
  rw [beq_iff_eq, ← Int.dvd_iff_tmod_eq_zero]
  exact Int.natCast_dvd_natCast

theorem checkedToInt_thousandths (whole : Nat) :
    Checked.toInt ⟨(1000 * whole : Nat), 3⟩ = .ok (whole : Int) := by
  have value : (⟨(1000 * whole : Nat), 3⟩ : Decimal).value = (whole : Int) := by
    change (((1000 * whole : Nat) : Int) : ℚ) / 10 ^ (3 : Int) = _
    push_cast
    norm_num
  have coarser : 0 < (⟨(1000 * whole : Nat), 3⟩ : Decimal).scale := show (0 : Int64) < 3 by decide
  have written : (⟨(1000 * whole : Nat), 3⟩ : Decimal).scale.toInt - (0 : Int64).toInt ≤
      largestExponent :=
    show (3 : Int64).toInt - (0 : Int64).toInt ≤ largestExponent by decide
  have meets : (⟨(1000 * whole : Nat), 3⟩ : Decimal).Meets 0 :=
    .of_scale_nonneg (show 0 ≤ (3 : Int64).toInt by decide) (by decide)
  rw [Checked.toInt, Checked.setScale, unlessOverflow_of meets,
    setScale_eq_of_written .down coarser written, value, Int64.toInt_zero, zpow_zero, mul_one]
  exact congrArg Except.ok (RoundingMode.round_intCast .down whole)

theorem powerOfNonnegative_eq {thousandths : Nat}
    (rounded : roundedExponent exponent = ⟨thousandths, 3⟩) :
    powerOfNonnegative base exponent precision =
      if ((thousandths : ℚ) / 1000).den = 1 then
        powerOfNatural base ((thousandths : ℚ) / 1000).num.natAbs
      else
        powerOfNatural base ((thousandths : ℚ) / 1000).num.natAbs >>= fun powered =>
          root powered (UInt32.ofNat ((thousandths : ℚ) / 1000).den) precision := by
  obtain ⟨numerator, denominator⟩ := reduced_thousandths thousandths
  rw [powerOfNonnegative, rounded]
  by_cases divides : 1000 ∣ thousandths
  · rw [if_pos ((den_thousandths_eq_one_iff _).mpr divides), numerator]
    obtain ⟨whole, rfl⟩ := divides
    simp only [(isInteger_thousandths _).mpr (Nat.dvd_mul_right 1000 whole), ↓reduceIte]
    rw [checkedToInt_thousandths, Nat.gcd_eq_right (Nat.dvd_mul_right 1000 whole),
      Nat.mul_div_cancel_left _ (by decide)]
    rfl
  · have fraction : ¬(⟨thousandths, 3⟩ : Decimal).isInteger = true :=
      mt (isInteger_thousandths _).mp divides
    rw [if_neg (mt (den_thousandths_eq_one_iff _).mp divides), numerator, denominator]
    simp only [fraction, Bool.false_eq_true, ↓reduceIte]
    rfl

theorem value_ne_intCast (short : exponent.IsShort) (fraction : exponent.isInteger = false)
    (integer : Int) : exponent.value ≠ integer := by
  intro equal
  rw [(isInteger_iff fun _ => short).mpr ⟨integer, equal⟩] at fraction
  cases fraction

theorem roundedExponent_of_fractional (fractional : ∀ integer : Int, exponent.value ≠ integer) :
    0 ≤ exponent.scale ∧ roundedExponent exponent = exponent.setScale 3 .halfDown := by
  have fraction : ¬exponent.isInteger = true := fun integer => by
    obtain ⟨whole, equal⟩ := exists_value_eq_of_isInteger integer
    exact fractional whole equal
  refine ⟨?_, if_neg fraction⟩
  by_contra front
  exact fraction (if_pos (Int64.le_of_lt (Int64.not_le.mp front)))

/-- The exponent is rounded as its value, unless more digits than are counted are dropped
from even more of them. -/
theorem roundedExponent_eq (positive : 0 < exponent.value)
    (fractional : ∀ integer : Int, exponent.value ≠ integer)
    (short : 3 + largestExponent < exponent.scale.toInt → exponent.IsShort) :
    ∃ thousandths : Nat, roundedExponent exponent = ⟨thousandths, 3⟩ ∧
      exponentFraction exponent.value = thousandths / 1000 := by
  obtain ⟨behind, rounded⟩ := roundedExponent_of_fractional fractional
  have limit : (3 : Int64).toInt = 3 := by decide
  obtain ⟨thousandths, known⟩ := Int.eq_ofNat_of_zero_le
    (RoundingMode.round_nonneg .halfDown (show 0 ≤ exponent.value * 1000 by positivity))
  refine ⟨thousandths, ?_, ?_⟩
  · rw [rounded, setScale_eq .halfDown (.of_nonneg behind), limit,
      ← known]
    · norm_num
    · intro far
      rw [limit] at far
      exact short (by omega)
  · rw [exponentFraction, known, Int.cast_natCast]

theorem exponentFraction_eq {thousandths : Nat} (positive : 0 < exponent.value)
    (fractional : ∀ integer : Int, exponent.value ≠ integer) (short : exponent.IsShort)
    (rounded : roundedExponent exponent = ⟨thousandths, 3⟩) :
    exponentFraction exponent.value = thousandths / 1000 := by
  obtain ⟨found, same, fraction⟩ := roundedExponent_eq positive fractional fun _ => short
  rw [rounded, Decimal.mk.injEq, Int.natCast_inj] at same
  rw [fraction, same.1]

theorem pow_eq_powerOfNonnegative (nonzero : base.value ≠ 0) (positive : 0 < exponent.value) :
    pow base exponent precision = powerOfNonnegative base exponent precision := by
  rw [pow, isZero_eq_false_iff.mpr nonzero, isNegative_eq_false_iff.mpr positive.le]
  rfl

/-- The power is that of the base with the numerator of the rounded exponent, or the root of it
whose degree is the denominator. -/
theorem pow_eq_of_fractional (nonzero : base.value ≠ 0) (positive : 0 < exponent.value)
    (fractional : ∀ integer : Int, exponent.value ≠ integer)
    (short : 3 + largestExponent < exponent.scale.toInt → exponent.IsShort) :
    pow base exponent precision =
      if (exponentFraction exponent.value).den = 1 then
        powerOfNatural base (exponentFraction exponent.value).num.natAbs
      else
        powerOfNatural base (exponentFraction exponent.value).num.natAbs >>= fun powered =>
          root powered (UInt32.ofNat (exponentFraction exponent.value).den) precision := by
  obtain ⟨thousandths, rounded, fraction⟩ := roundedExponent_eq positive fractional short
  rw [fraction, ← powerOfNonnegative_eq rounded, pow_eq_powerOfNonnegative nonzero positive]

theorem den_exponentFraction_dvd (exponent : ℚ) : (exponentFraction exponent).den ∣ 1000 := by
  have divides := Rat.den_dvd (RoundingMode.halfDown.round (exponent * 1000)) 1000
  rw [Rat.divInt_eq_div] at divides
  exact Int.natCast_dvd_natCast.mp divides

/-! ### Exact powers -/

/-- The exponent is one that the power of the base is formed with. -/
def IsFormed (base : Decimal) (whole : Nat) : Prop :=
  |base.value| = 1 ∨ whole < 2 ^ 64

/-- The scale of a power before it is brought to a word; 1 and -1 have none behind the point. -/
def powerScale (base : Decimal) (whole : Nat) : Int :=
  if |base.value| = 1 then 0 else base.scale.toInt * whole

/-- An odd number is no factor of the least word but one. -/
theorem lt_powerScale_of_odd (above : -2 ^ 63 < base.scale.toInt) (odd : Odd whole)
    (least : -2 ^ 63 ≤ powerScale base whole) : -2 ^ 63 < powerScale base whole := by
  refine lt_of_le_of_ne least fun edge => ?_
  rw [powerScale] at edge
  split at edge
  · exact absurd edge (by decide)
  · have divides : whole ∣ 2 ^ 63 := by
      have size := congrArg Int.natAbs edge
      rw [Int.natAbs_mul, Int.natAbs_natCast] at size
      exact ⟨_, size.trans (mul_comm _ _)⟩
    have one : whole = 1 := Nat.Coprime.eq_one_of_dvd (odd.coprime_two_right.pow_right 63) divides
    rw [one, Nat.cast_one, mul_one] at edge
    exact above.ne edge

theorem powerOfNatural_eq_error (above : -2 ^ 63 < base.scale.toInt)
    (unformed : ¬IsFormed base whole) :
    powerOfNatural base whole = .error (.exponentTooLarge whole) := by
  obtain ⟨other, large⟩ := not_or.mp unformed
  have wholePos : whole ≠ 0 := by omega
  rw [powerOfNatural_eq above wholePos, if_neg other, if_neg large]

theorem exists_powerOfNatural (above : -2 ^ 63 < base.scale.toInt) (wholePos : whole ≠ 0)
    (formed : IsFormed base whole)
    (word : |base.value| ≠ 1 → whole < 2 ^ 64 → IsWord (base.scale.toInt * whole)) :
    ∃ powered, powerOfNatural base whole = .ok powered ∧
      powered.value = base.value ^ whole ∧ powered.scale.toInt = powerScale base whole := by
  rw [powerOfNatural_eq above wholePos]
  by_cases unit : |base.value| = 1
  · rw [if_pos unit, powerScale, if_pos unit, pow_of_abs_eq_one unit]
    refine ⟨_, rfl, ?_⟩
    split
    · exact ⟨by rw [value_neg, value_one], rfl⟩
    · exact ⟨value_one, rfl⟩
  · have fits := formed.resolve_left unit
    rw [if_neg unit, if_pos fits, powerScale, if_neg unit, unlessOverflow_of (word unit fits)]
    exact ⟨_, rfl, value_power (word unit fits), toInt_scale_power_iff.mpr (word unit fits)⟩

/-! ### Roots of either sign -/

section Signs

variable (degreePos : degree ≠ 0) (nonzero : radicand.value ≠ 0)
  (real : radicand.value < 0 → degree.toNat % 2 = 1)
include degreePos nonzero real

theorem root_eq_map :
    root radicand degree precision =
      (fun result => if radicand.value < 0 then -result else result) <$>
        rootOfPositive radicand.abs degree precision := by
  rcases lt_or_gt_of_ne nonzero with below | above
  · have odd : degree % 2 ≠ 0 := by
      rw [Ne, mod_two_eq_zero_iff, real below]
      decide
    rw [root_eq_of_neg degreePos below, if_neg odd]
    simp only [below, ↓reduceIte]
  · rw [root_eq_of_pos degreePos above, abs_of_value_nonneg above.le]
    simp only [lt_asymm above, ↓reduceIte, id_map']

variable (few : precision.toNat + 10 < 2 ^ 32)
  (words : RootStaysInWords degree.toNat precision.toNat |radicand.value| radicand.scale.toInt)
include few words

theorem root_eq_error
    (far : largestExponent <
      |rootExponent degree.toNat precision.toNat |radicand.value| radicand.scale.toInt|) :
    ∃ size, root radicand degree precision = .error (.exponentTooLarge size) := by
  have above : 0 < radicand.abs.value := by
    rw [value_abs]
    exact abs_pos.mpr nonzero
  rw [← value_abs] at words far
  obtain ⟨size, refused⟩ := rootOfPositive_eq_error above few words far
  rw [root_eq_map degreePos nonzero real, refused]
  exact ⟨size, rfl⟩

theorem exists_root (least : 1 ≤ precision.toNat)
    (near : |rootExponent degree.toNat precision.toNat |radicand.value| radicand.scale.toInt| ≤
      largestExponent) :
    ∃ result, root radicand degree precision = .ok result ∧
      SignType.sign result.value = SignType.sign radicand.value ∧
      IsRootTo degree.toNat precision.toNat |radicand.value| result.abs := by
  have above : 0 < radicand.abs.value := by
    rw [value_abs]
    exact abs_pos.mpr nonzero
  rw [← value_abs] at words near
  obtain ⟨size, reached, encloses⟩ := exists_rootOfPositive degreePos above few words least near
  rw [root_eq_map degreePos nonzero real, reached, ← value_abs]
  refine ⟨_, rfl, ?_⟩
  split
  · rename_i below
    rw [value_neg, sign_neg (neg_neg_iff_pos.mpr encloses.positive), sign_neg below, abs_opposite,
      abs_of_value_nonneg encloses.positive.le]
    exact ⟨rfl, encloses⟩
  · rename_i nonneg
    rw [sign_pos encloses.positive, sign_pos (lt_of_le_of_ne (not_lt.mp nonneg) nonzero.symm),
      abs_of_value_nonneg encloses.positive.le]
    exact ⟨rfl, encloses⟩

end Signs

/-! ### Roots of exact powers -/

structure PowStaysInWords (base : Decimal) (numerator denominator precision : Nat) : Prop where
  above : -2 ^ 63 < base.scale.toInt
  power : |base.value| ≠ 1 → numerator < 2 ^ 64 → IsWord (base.scale.toInt * numerator)
  root : denominator ≠ 1 → IsFormed base numerator →
    RootStaysInWords denominator precision (|base.value| ^ numerator) (powerScale base numerator)

/-- A power with a fraction in lowest terms that is no integer.  The exact power is formed
before its sign is looked at. -/
structure IsFractionalPower (base : Decimal) (numerator denominator precision : Nat)
    (outcome : Outcome Decimal) : Prop where
  evenDegree : (∃ number, outcome = .error (.evenRootOfNegative number)) ↔
    IsFormed base numerator ∧ base.value < 0 ∧ Even denominator
  tooLarge : (∃ size, outcome = .error (.exponentTooLarge size)) ↔
    ¬IsFormed base numerator ∨ ¬(base.value < 0 ∧ Even denominator) ∧
      largestExponent < |rootExponent denominator precision (|base.value| ^ numerator)
        (powerScale base numerator)|
  result : IsFormed base numerator → ¬(base.value < 0 ∧ Even denominator) →
    |rootExponent denominator precision (|base.value| ^ numerator)
      (powerScale base numerator)| ≤ largestExponent →
    ∃ result, outcome = .ok result ∧
      SignType.sign result.value = SignType.sign (base.value ^ numerator) ∧
      IsRootTo denominator precision (|base.value| ^ numerator) result.abs

theorem isFractionalPower_of_unformed {size : Int} {digits : Nat}
    (unformed : ¬IsFormed base numerator) :
    IsFractionalPower base numerator denominator digits (.error (.exponentTooLarge size)) := by
  refine ⟨iff_of_false nofun fun even => unformed even.1, iff_of_true ⟨size, rfl⟩ (Or.inl unformed),
    fun formed => absurd formed unformed⟩

theorem isFractionalPower_of_even {number : Decimal} {digits : Nat}
    (formed : IsFormed base numerator) (even : base.value < 0 ∧ Even denominator) :
    IsFractionalPower base numerator denominator digits (.error (.evenRootOfNegative number)) := by
  refine ⟨iff_of_true ⟨number, rfl⟩ ⟨formed, even⟩, iff_of_false nofun ?_,
    fun _ real => absurd even real⟩
  rintro (unformed | ⟨real, -⟩)
  · exact unformed formed
  · exact real even

theorem pow_neg_and_even_iff {value : ℚ} (lowest : numerator.Coprime denominator) :
    value ^ numerator < 0 ∧ Even denominator ↔ value < 0 ∧ Even denominator := by
  constructor
  · rintro ⟨below, even⟩
    exact ⟨lt_of_not_ge fun nonneg => not_lt.mpr (pow_nonneg nonneg numerator) below, even⟩
  · rintro ⟨below, even⟩
    have odd : Odd numerator := (lowest.coprime_dvd_right even.two_dvd).odd_of_right
    exact ⟨odd.pow_neg below, even⟩

theorem isFractionalPower_root {powered : Decimal} (least : 1 ≤ precision.toNat)
    (few : precision.toNat + 10 < 2 ^ 32) (behind : -2 ^ 63 < base.scale.toInt)
    (nonzero : base.value ≠ 0) (degreePos : degree ≠ 0)
    (lowest : numerator.Coprime degree.toNat) (formed : IsFormed base numerator)
    (value : powered.value = base.value ^ numerator)
    (scale : powered.scale.toInt = powerScale base numerator)
    (words : RootStaysInWords degree.toNat precision.toNat (|base.value| ^ numerator)
      (powerScale base numerator)) :
    IsFractionalPower base numerator degree.toNat precision.toNat
      (root powered degree precision) := by
  have kept : powered.value ≠ 0 := by
    rw [value]
    exact pow_ne_zero _ nonzero
  have size : |powered.value| = |base.value| ^ numerator := by
    rw [value, abs_pow]
  by_cases even : base.value < 0 ∧ Even degree.toNat
  · obtain ⟨below, divides⟩ := (pow_neg_and_even_iff lowest).mpr even
    rw [← value] at below
    have odd : Odd numerator := (lowest.coprime_dvd_right divides.two_dvd).odd_of_right
    have moved := lt_powerScale_of_odd behind odd (scale ▸ powered.scale.le_toInt)
    have reaches : powered.Reaches 0 := by
      refine Or.inr ?_
      rw [scale, Int64.toInt_zero]
      omega
    rw [root_eq_of_neg degreePos below, if_pos (mod_two_eq_zero_iff.mpr (Nat.even_iff.mp divides)),
      Checked.refuse_of_reaches _ reaches]
    exact isFractionalPower_of_even formed even
  · have real : powered.value < 0 → degree.toNat % 2 = 1 := by
      intro below
      rw [value] at below
      rw [← Nat.odd_iff, ← Nat.not_even_iff_odd]
      exact fun divides => even ((pow_neg_and_even_iff lowest).mp ⟨below, divides⟩)
    rw [← size, ← scale] at words
    by_cases near : |rootExponent degree.toNat precision.toNat |powered.value|
        powered.scale.toInt| ≤ largestExponent
    · obtain ⟨result, reached, sign, encloses⟩ := exists_root degreePos kept real few words least near
      rw [size, scale] at near
      rw [size] at encloses
      rw [value] at sign
      rw [reached]
      refine ⟨iff_of_false nofun fun both => even both.2, iff_of_false nofun ?_,
        fun _ _ _ => ⟨result, rfl, sign, encloses⟩⟩
      rintro (unformed | ⟨-, far⟩)
      · exact unformed formed
      · exact not_lt.mpr near far
    · have far := not_le.mp near
      obtain ⟨exponent, refused⟩ := root_eq_error degreePos kept real few words far
      rw [size, scale] at far
      rw [refused]
      exact ⟨iff_of_false nofun fun both => even both.2,
        iff_of_true ⟨exponent, rfl⟩ (Or.inr ⟨even, far⟩),
        fun _ _ near => absurd far (not_lt.mpr near)⟩

/-- The power is exact if the rounded exponent is an integer, and otherwise encloses the root of
the exact power by its last place. -/
theorem pow_encloses (base exponent : Decimal) (precision : Precision)
    (nonzero : base.value ≠ 0) (positive : 0 < exponent.value)
    (fractional : ∀ integer : Int, exponent.value ≠ integer)
    (short : 3 + largestExponent < exponent.scale.toInt → exponent.IsShort)
    (least : 1 ≤ precision.toNat) (few : precision.toNat ≤ 2 ^ 32 - 31)
    (words : PowStaysInWords base (exponentFraction exponent.value).num.natAbs
      (exponentFraction exponent.value).den precision.toNat) :
    ((exponentFraction exponent.value).den = 1 →
        IsExactPower base (exponentFraction exponent.value).num.natAbs
          (pow base exponent precision)) ∧
      ((exponentFraction exponent.value).den ≠ 1 →
        IsFractionalPower base (exponentFraction exponent.value).num.natAbs
          (exponentFraction exponent.value).den precision.toNat (pow base exponent precision)) := by
  have lowest := (exponentFraction exponent.value).reduced
  have divides := den_exponentFraction_dvd exponent.value
  rw [pow_eq_of_fractional nonzero positive fractional short]
  generalize (exponentFraction exponent.value).num.natAbs = numerator at words lowest ⊢
  generalize (exponentFraction exponent.value).den = denominator at words lowest divides ⊢
  constructor
  · intro one
    rw [if_pos one]
    rcases powerOfNatural_cases words.above with ⟨exact, -⟩ | ⟨-, unit, fits, breaks⟩
    · exact exact
    · exact absurd (words.power unit fits) breaks
  · intro other
    rw [if_neg other]
    by_cases formed : IsFormed base numerator
    · have numeratorPos : numerator ≠ 0 := by
        rintro rfl
        exact other ((Nat.coprime_zero_left _).mp lowest)
      obtain ⟨powered, reached, value, scale⟩ :=
        exists_powerOfNatural words.above numeratorPos formed words.power
      have degree : (UInt32.ofNat denominator).toNat = denominator :=
        UInt32.toNat_ofNat_of_lt ((Nat.le_of_dvd (by decide) divides).trans_lt (by decide))
      have degreePos : UInt32.ofNat denominator ≠ 0 := by
        intro zero
        rw [zero] at degree
        exact absurd (degree ▸ divides) (by decide)
      have root := words.root other formed
      rw [← degree] at lowest root
      have power := isFractionalPower_root least (by omega) words.above nonzero degreePos lowest
        formed value scale root
      rw [degree] at power
      rw [reached]
      exact power
    · rw [powerOfNatural_eq_error words.above formed]
      exact isFractionalPower_of_unformed formed

/-- The power of -2 with the exponent 0.6005, read as three fifths, is the opposite of the fifth
root of 8. -/
theorem pow_encloses_three_fifths :
    (∀ integer : Int, (⟨6005, 4⟩ : Decimal).value ≠ integer) ∧
      exponentFraction (⟨6005, 4⟩ : Decimal).value = 3 / 5 ∧
      ∃ result, pow (-2) ⟨6005, 4⟩ 20 = .ok result ∧ result.value < 0 ∧
        IsRootTo 5 20 8 result.abs := by
  have positive : 0 < (⟨6005, 4⟩ : Decimal).value := value_pos_iff.mpr (by decide)
  have fractional := value_ne_intCast (by decide : (⟨6005, 4⟩ : Decimal).IsShort) (by decide)
  have fraction : exponentFraction (⟨6005, 4⟩ : Decimal).value = 3 / 5 := by
    rw [exponentFraction_eq positive fractional (by decide)
      (by decide : roundedExponent ⟨6005, 4⟩ = ⟨(600 : Nat), 3⟩)]
    norm_num
  have numerator : (exponentFraction (⟨6005, 4⟩ : Decimal).value).num.natAbs = 3 := by
    rw [fraction]
    norm_num
  have denominator : (exponentFraction (⟨6005, 4⟩ : Decimal).value).den = 5 := by
    rw [fraction]
    norm_num
  have base : (-2 : Decimal).value = -2 := value_ofInt (-2)
  have size : |(-2 : Decimal).value| ^ 3 = 8 := by
    rw [base]
    norm_num
  have scale : powerScale (-2) 3 = 0 := by
    rw [powerScale, base, if_neg (by norm_num)]
    decide
  have first : firstPlace 8 = 0 := by
    apply firstPlace_eq
    · norm_num
    · norm_num
  have words : PowStaysInWords (-2) 3 5 20 := by
    refine ⟨by decide, fun _ _ => by decide, fun _ _ => ?_⟩
    rw [size, scale]
    exact .of_moderate (by decide) (by decide) (by rw [first]; decide) (by rw [first]; decide)
      (by decide)
  have near : |rootExponent 5 20 8 0| ≤ largestExponent := by
    rw [rootExponent, truncationPlaces, rootPlace, first]
    decide
  rw [← numerator, ← denominator] at words
  obtain ⟨-, law⟩ := pow_encloses (-2) ⟨6005, 4⟩ 20 (by rw [base]; norm_num)
    positive fractional (fun far => absurd far (by decide)) (by decide)
    (by decide) words
  rw [numerator, denominator] at law
  obtain ⟨result, reached, sign, encloses⟩ := (law (by decide)).result (Or.inr (by decide))
    (fun even => absurd even.2 (by decide)) (by rw [size, scale]; exact near)
  refine ⟨fractional, fraction, result, reached, ?_, size ▸ encloses⟩
  rw [base, sign_neg (show (-2 : ℚ) ^ 3 < 0 by norm_num)] at sign
  exact sign_eq_neg_one_iff.mp sign

/-! ### Exponents out of range -/

/-- An exponent with more places than are counted is taken for zero, although it may be above
one. -/
theorem pow_of_far (nonzero : base.value ≠ 0) (positive : 0 < exponent.value)
    (fractional : ∀ integer : Int, exponent.value ≠ integer)
    (far : 3 + largestExponent < exponent.scale.toInt) :
    pow base exponent precision = .ok 1 := by
  have limit : (3 : Int64).toInt = 3 := by decide
  have dropped : largestExponent < exponent.scale.toInt - (3 : Int64).toInt := by
    rw [limit]
    omega
  have coarser := lt_scale_of_far dropped
  have sign : exponent.sign = 1 := Int.sign_eq_one_of_pos (value_pos_iff.mp positive)
  have rounded : roundedExponent exponent = ⟨(0 : Nat), 3⟩ := by
    rw [(roundedExponent_of_fractional fractional).2, setScale, if_neg (Int64.not_le.mpr coarser),
      writableExponent?_sub_eq_none dropped, sign]
    rfl
  rw [pow_eq_powerOfNonnegative nonzero positive, powerOfNonnegative_eq rounded, Nat.cast_zero,
    zero_div]
  rfl

def oneAndLast (places : Nat) : Decimal :=
  ⟨10 ^ places + 1, Int64.ofNat places⟩

section OneAndLast

variable {places : Nat} (atLeast : 4 ≤ places) (few : places < 2 ^ 63)
include few

theorem value_oneAndLast : (oneAndLast places).value = 1 + 1 / 10 ^ places := by
  change ((10 ^ places + 1 : Int) : ℚ) / 10 ^ (Int64.ofNat places).toInt = _
  rw [Int64.toInt_ofNat_of_lt few, zpow_natCast]
  push_cast
  field_simp

include atLeast

omit few in
theorem last_lt : (1 : ℚ) / 10 ^ places < 1 / 2000 := by
  have size : (10 : ℚ) ^ 4 ≤ 10 ^ places := pow_le_pow_right₀ (by norm_num) atLeast
  apply one_div_lt_one_div_of_lt (by norm_num)
  norm_num at size
  linarith

theorem oneAndLast_ne_intCast (integer : Int) : (oneAndLast places).value ≠ integer := by
  have small := last_lt atLeast
  have last : (0 : ℚ) < 1 / 10 ^ places := by positivity
  rw [value_oneAndLast few]
  intro equal
  have lower : 1 < integer := by exact_mod_cast (by linarith : (1 : ℚ) < integer)
  have upper : integer < 2 := by exact_mod_cast (by linarith : (integer : ℚ) < 2)
  omega

theorem exponentFraction_oneAndLast : exponentFraction (oneAndLast places).value = 1 := by
  have small := last_lt atLeast
  have last : (0 : ℚ) < 1 / 10 ^ places := by positivity
  have parts : (1 + 1 / 10 ^ places : ℚ) * 1000 = (1000 : Int) + 1000 * (1 / 10 ^ places) := by
    push_cast
    ring
  rw [exponentFraction, value_oneAndLast few, parts, RoundingMode.round,
    RoundingMode.nearestOr_add _ _ (by linarith) (by linarith)]
  norm_num

end OneAndLast

/-- A power that is not formed is refused although the fraction is an integer, and before the
even root of a negative number is.  An exponent with too many places is taken for zero. -/
theorem pow_large_fraction_refused :
    exponentFraction (⟨184467440737095516160001, 4⟩ : Decimal).value = (2 ^ 64 : Nat) ∧
      pow ⟨1, 1⟩ ⟨184467440737095516160001, 4⟩ 20 = .error (.exponentTooLarge (2 ^ 64)) ∧
      exponentFraction (⟨184467440737095516165, 1⟩ : Decimal).value = (2 ^ 65 + 1 : Nat) / 2 ∧
      pow (-2) ⟨184467440737095516165, 1⟩ 20 = .error (.exponentTooLarge (2 ^ 65 + 1)) ∧
      exponentFraction (oneAndLast 4294967299).value = 1 ∧
      pow 2 (oneAndLast 4294967299) 20 = .ok 1 := by
  refine ⟨?_, by rfl, ?_, by rfl, exponentFraction_oneAndLast (by decide) (by decide), ?_⟩
  · have short : (⟨184467440737095516160001, 4⟩ : Decimal).IsShort := by decide
    rw [exponentFraction_eq (value_pos_iff.mpr (by decide)) (value_ne_intCast short (by decide))
      short (by decide : roundedExponent ⟨184467440737095516160001, 4⟩ =
        ⟨(18446744073709551616000 : Nat), 3⟩)]
    norm_num
  · have short : (⟨184467440737095516165, 1⟩ : Decimal).IsShort := by decide
    rw [exponentFraction_eq (value_pos_iff.mpr (by decide)) (value_ne_intCast short (by decide))
      short (by decide : roundedExponent ⟨184467440737095516165, 1⟩ =
        ⟨(18446744073709551616500 : Nat), 3⟩)]
    norm_num
  · have fractional := oneAndLast_ne_intCast (show 4 ≤ 4294967299 by decide) (by decide)
    refine pow_of_far (mt value_eq_zero_iff.mp (by decide)) ?_ fractional (by decide)
    rw [value_oneAndLast (by decide)]
    positivity

end Elementary
end DecimalCalculator
