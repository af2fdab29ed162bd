/-
Quotients at a scale and quotients to a precision.

A quotient at a scale is the quotient of the values, rounded once.  It is refused only if
the divisor is zero, an exponent is no word or a power of ten would have too many zeros.  A
quotient to a precision is rounded twice, so it is the correctly rounded quotient of the values
except for those values that lie just beyond a halfway point.
-/

import Mathlib
import DecimalCalculator.Proofs.Decimal.Precision

namespace DecimalCalculator
namespace Decimal

variable {number dividend divisor quotient : Decimal} {scale : Int64} {precision : UInt32}

/-! ### Quotients at a scale -/

theorem DividesAt.of_near (sum : IsWord (scale.toInt + divisor.scale.toInt))
    (near : |quotientExponent dividend divisor scale| ≤ largestExponent) :
    DividesAt dividend divisor scale := by
  have bound : largestExponent < 2 ^ 62 := by decide
  obtain ⟨lower, upper⟩ := abs_le.mp near
  exact ⟨sum, ⟨by omega, by omega⟩, ⟨by omega, by omega⟩⟩

theorem divideAtScale_eq_ok (mode : RoundingMode) (nonzero : divisor.value ≠ 0)
    (sum : IsWord (scale.toInt + divisor.scale.toInt))
    (near : |quotientExponent dividend divisor scale| ≤ largestExponent) :
    dividend.divideAtScale divisor scale mode =
      .ok ⟨mode.round (dividend.value / divisor.value * 10 ^ scale.toInt), scale⟩ :=
  divideAtScale_of_fits mode nonzero (.of_near sum near) near

/-! ### Quotients to a precision -/

/-- The place of the first rounding is that of the scale `quotientScale`. -/
def firstRoundingPlace (dividend divisor : ℚ) (precision : UInt32) : Int :=
  firstPlace dividend - firstPlace divisor - 2 - precision.toNat

theorem firstRoundingPlace_eq (dividend divisor : ℚ) (precision : UInt32) :
    firstRoundingPlace dividend divisor precision =
      firstPlace dividend - firstPlace divisor - 2 - precision.toNat :=
  rfl

/-- By how much the place of the first rounding is finer than the last place of the result:
there is one digit more if the first digit of the quotient stands where the first digits
of the two numbers suggest it. -/
def guardFactor (dividend divisor : ℚ) : Nat :=
  if firstPlace (dividend / divisor) = firstPlace dividend - firstPlace divisor then 1000 else 100

theorem divideToPrecision_of_zero (second : divisor.value ≠ 0) (zero : dividend.value = 0) :
    dividend.divideToPrecision divisor precision = .ok 0 := by
  rw [divideToPrecision, isZero_eq_false_iff.mpr second, isZero_iff.mpr zero]
  rfl

theorem Checked.leadingExponent_eq_ok_iff {leading : Int64} (nonzero : number.value ≠ 0) :
    Checked.leadingExponent number = .ok leading ↔ leading.toInt = firstPlace number.value := by
  rw [Checked.leadingExponent, Checked.word_eq_ok_iff, firstPlace_value nonzero]
  exact and_iff_right_of_imp fun same => same ▸ isWord_toInt leading

theorem exists_of_divideToPrecision (first : dividend.value ≠ 0) (second : divisor.value ≠ 0)
    (divided : dividend.divideToPrecision divisor precision = .ok quotient) :
    ∃ (scale : Int64) (finer : Decimal),
      scale.toInt = -firstRoundingPlace dividend.value divisor.value precision ∧
      dividend.divideAtScale divisor scale .halfEven = .ok finer ∧
      Checked.roundToPrecision finer precision = .ok quotient := by
  rw [divideToPrecision, isZero_eq_false_iff.mpr first, isZero_eq_false_iff.mpr second] at divided
  obtain ⟨leading, found, divided⟩ := bind_eq_ok_iff.mp divided
  obtain ⟨leading', found', divided⟩ := bind_eq_ok_iff.mp divided
  obtain ⟨exponent, counted, divided⟩ := bind_eq_ok_iff.mp divided
  obtain ⟨scale, placed, divided⟩ := bind_eq_ok_iff.mp divided
  obtain ⟨finer, reached, rounded⟩ := bind_eq_ok_iff.mp divided
  have place := (Checked.leadingExponent_eq_ok_iff first).mp found
  have place' := (Checked.leadingExponent_eq_ok_iff second).mp found'
  have distance := (Checked.word_eq_ok_iff.mp counted).2
  have size := (Checked.word_eq_ok_iff.mp placed).2
  refine ⟨scale, finer, ?_, reached, rounded⟩
  rw [firstRoundingPlace]
  omega

/-- The quotient in front of the second rounding has at most four digits more than the result. -/
theorem digitCount_le_of_divideAtScale {finer : Decimal} (first : dividend.value ≠ 0)
    (second : divisor.value ≠ 0)
    (placed : scale.toInt = -firstRoundingPlace dividend.value divisor.value precision)
    (reached : dividend.divideAtScale divisor scale .halfEven = .ok finer) :
    finer.value = roundedAt (firstRoundingPlace dividend.value divisor.value precision)
        (dividend.value / divisor.value) ∧
      finer.value ≠ 0 ∧ finer.digitCount ≤ precision.toNat + 4 := by
  have nonzero : dividend.value / divisor.value ≠ 0 := div_ne_zero first second
  obtain ⟨-, -, -, known⟩ := divideAtScale_eq_ok_iff.mp reached
  have value : finer.value =
      roundedAt (firstRoundingPlace dividend.value divisor.value precision)
        (dividend.value / divisor.value) := by
    rw [known]
    change ((RoundingMode.halfEven.round _ : Int) : ℚ) / 10 ^ scale.toInt = _
    rw [placed, roundedAt, zpow_neg, div_inv_eq_mul, ← div_eq_mul_inv]
  have places := firstPlace_div first second
  have behind := firstRoundingPlace_eq dividend.value divisor.value precision
  obtain ⟨atLeast, atMost⟩ := abs_roundedAt_between nonzero
    (show firstRoundingPlace dividend.value divisor.value precision ≤ _ by omega)
  have kept : finer.value ≠ 0 := by
    rw [value, ← abs_pos]
    exact (zpow_pos (by norm_num) _).trans_le atLeast
  have carried : firstPlace finer.value ≤ firstPlace (dividend.value / divisor.value) + 1 := by
    rw [value]
    exact firstPlace_le_of_abs_le (value ▸ kept) atMost
  have digits := firstPlace_value kept
  have finerScale : finer.scale.toInt =
      -firstRoundingPlace dividend.value divisor.value precision := by
    rw [known]
    exact placed
  exact ⟨value, kept, by omega⟩

theorem exists_finerQuotient (first : dividend.value ≠ 0) (second : divisor.value ≠ 0)
    (divided : dividend.divideToPrecision divisor precision = .ok quotient) :
    ∃ finer : Decimal, Checked.roundToPrecision finer precision = .ok quotient ∧
      finer.scale.toInt = -firstRoundingPlace dividend.value divisor.value precision ∧
      finer.value = roundedAt (firstRoundingPlace dividend.value divisor.value precision)
        (dividend.value / divisor.value) ∧
      finer.value ≠ 0 ∧ finer.digitCount ≤ precision.toNat + 4 := by
  obtain ⟨scale, finer, placed, reached, rounded⟩ := exists_of_divideToPrecision first second divided
  have written := scale_of_divideAtScale reached
  exact ⟨finer, rounded, written ▸ placed, digitCount_le_of_divideAtScale first second placed reached⟩

theorem Checked.roundToPrecision_eq_ok {number : Decimal} (counted : number.digitCount < 2 ^ 63)
    (rounded : Checked.roundToPrecision number precision = .ok quotient) :
    IsWord (number.scale.toInt - (number.digitCount - max precision.toNat 1 : Nat)) ∧
      quotient = number.roundToPrecision precision := by
  rw [Checked.roundToPrecision_eq counted, unlessOverflow_eq_ok_iff] at rounded
  exact ⟨rounded.1, rounded.2.symm⟩

/-- A quotient to a precision is the quotient of the values, rounded twice. -/
theorem value_of_divideToPrecision (positive : 1 ≤ precision.toNat) (first : dividend.value ≠ 0)
    (second : divisor.value ≠ 0)
    (divided : dividend.divideToPrecision divisor precision = .ok quotient) :
    quotient.value = roundedToDigits precision.toNat
      (roundedAt (firstRoundingPlace dividend.value divisor.value precision)
        (dividend.value / divisor.value)) := by
  obtain ⟨finer, rounded, -, value, kept, few⟩ := exists_finerQuotient first second divided
  have bound := precision.toNat_lt
  have room : 4 ≤ largestExponent := by decide
  obtain ⟨word, rfl⟩ := Checked.roundToPrecision_eq_ok (by omega) rounded
  rw [max_eq_left positive] at word
  rw [value_roundToPrecision positive kept (by omega) word.1, value]

theorem exists_divideToPrecision (first : dividend.value ≠ 0) (second : divisor.value ≠ 0)
    (near : |firstPlace dividend.value| ≤ 2 ^ 61) (near' : |firstPlace divisor.value| ≤ 2 ^ 61)
    (short : precision.toNat + 2 + dividend.digitCount + divisor.digitCount ≤ largestExponent) :
    ∃ quotient, dividend.divideToPrecision divisor precision = .ok quotient := by
  have room : largestExponent < 2 ^ 32 := by decide
  have digits := firstPlace_value first
  have digits' := firstPlace_value second
  obtain ⟨lower, upper⟩ := abs_le.mp near
  obtain ⟨lower', upper'⟩ := abs_le.mp near'
  obtain ⟨leading, found, size⟩ := Checked.exists_word
    (show IsWord (dividend.digitCount - 1 - dividend.scale.toInt) from ⟨by omega, by omega⟩)
  obtain ⟨leading', found', size'⟩ := Checked.exists_word
    (show IsWord (divisor.digitCount - 1 - divisor.scale.toInt) from ⟨by omega, by omega⟩)
  obtain ⟨exponent, counted', distance⟩ := Checked.exists_word
    (show IsWord (leading.toInt - leading'.toInt) from ⟨by omega, by omega⟩)
  obtain ⟨scale, placed, reach⟩ := Checked.exists_word
    (show IsWord (precision.toNat + 2 - exponent.toInt) from ⟨by omega, by omega⟩)
  have sum : IsWord (scale.toInt + divisor.scale.toInt) := ⟨by omega, by omega⟩
  have few : |quotientExponent dividend divisor scale| ≤ largestExponent := by
    rw [quotientExponent, abs_le]
    omega
  have divided := divideAtScale_eq_ok .halfEven second sum few
  generalize Decimal.mk _ scale = finer at divided
  have written := scale_of_divideAtScale divided
  have place : scale.toInt = -firstRoundingPlace dividend.value divisor.value precision := by
    rw [firstRoundingPlace]
    omega
  obtain ⟨-, -, atMost⟩ := digitCount_le_of_divideAtScale first second place divided
  have counted : finer.digitCount < 2 ^ 63 := by omega
  have word : IsWord (finer.scale.toInt - (finer.digitCount - max precision.toNat 1 : Nat)) := by
    rw [written]
    exact ⟨by omega, by omega⟩
  refine ⟨finer.roundToPrecision precision, ?_⟩
  rw [divideToPrecision, isZero_eq_false_iff.mpr second, isZero_eq_false_iff.mpr first]
  change (Checked.leadingExponent dividend >>= _) = _
  rw [Checked.leadingExponent, found]
  change (Checked.leadingExponent divisor >>= _) = _
  rw [Checked.leadingExponent, found']
  change (Checked.word _ >>= _) = _
  rw [counted']
  change (Checked.word _ >>= _) = _
  rw [placed]
  change (divideAtScale dividend divisor scale .halfEven >>= _) = _
  rw [divided]
  change Checked.roundToPrecision finer precision = _
  rw [Checked.roundToPrecision_eq counted, unlessOverflow_of word]

theorem exists_guardFactor_eq (dividend divisor : ℚ) :
    ∃ quarter : Nat, 0 < quarter ∧ guardFactor dividend divisor = 4 * quarter := by
  unfold guardFactor
  split
  · exact ⟨250, by decide, rfl⟩
  · exact ⟨25, by decide, rfl⟩

theorem zpow_eq_guardFactor {dividend divisor : ℚ} (first : dividend ≠ 0) (second : divisor ≠ 0)
    (precision : UInt32) :
    (10 : ℚ) ^ (lastPlace precision.toNat (dividend / divisor) -
      firstRoundingPlace dividend divisor precision) = guardFactor dividend divisor := by
  have behind : lastPlace precision.toNat (dividend / divisor) -
      firstRoundingPlace dividend divisor precision =
        firstPlace (dividend / divisor) - (firstPlace dividend - firstPlace divisor) + 3 := by
    rw [lastPlace, firstRoundingPlace]
    ring
  rw [guardFactor, behind]
  rcases firstPlace_div first second with same | below
  · rw [if_pos same, same, sub_self]
    norm_num
  · rw [if_neg (by omega), below, sub_sub_cancel_left]
    norm_num

/-- A quotient to a precision is the correctly rounded quotient of the values exactly if
this quotient does not lie just beyond a point halfway between two numbers with so many
digits.  In any case it is hardly more than one half of the last place away. -/
theorem divideToPrecision_eq_roundedToDigits_iff (positive : 1 ≤ precision.toNat)
    (divided : dividend.divideToPrecision divisor precision = .ok quotient) :
    (quotient.value = roundedToDigits precision.toNat (dividend.value / divisor.value) ↔
      ¬RoundingMode.IsJustBeyondHalf (guardFactor dividend.value divisor.value)
        (dividend.value / divisor.value /
          10 ^ lastPlace precision.toNat (dividend.value / divisor.value))) ∧
    |dividend.value / divisor.value - quotient.value| ≤
      (1 / 2 + 1 / (2 * guardFactor dividend.value divisor.value)) *
        10 ^ lastPlace precision.toNat (dividend.value / divisor.value) := by
  have second : divisor.value ≠ 0 := by
    intro zero
    rw [divideToPrecision, isZero_iff.mpr zero] at divided
    cases divided
  obtain ⟨quarter, size, guard⟩ := exists_guardFactor_eq dividend.value divisor.value
  by_cases first : dividend.value = 0
  · have nothing : quotient.value = 0 := by
      rw [divideToPrecision_of_zero second first] at divided
      cases divided
      exact value_eq_zero_iff.mpr rfl
    rw [guard, first, zero_div, zero_div, nothing, roundedToDigits_zero, sub_zero, abs_zero,
      ← RoundingMode.round_finer_eq_iff size]
    refine ⟨iff_of_true rfl ?_, by positivity⟩
    have zero := RoundingMode.round_intCast .halfEven 0
    rw [Int.cast_zero] at zero
    rw [zero_mul, zero, Int.cast_zero, zero_div, zero]
  · have nonzero : dividend.value / divisor.value ≠ 0 := div_ne_zero first second
    have factor := zpow_eq_guardFactor first second precision
    have finer : firstRoundingPlace dividend.value divisor.value precision ≤
        lastPlace precision.toNat (dividend.value / divisor.value) := by
      have places := firstPlace_div first second
      rw [firstRoundingPlace, lastPlace]
      omega
    have place : (10 : ℚ) ^ firstRoundingPlace dividend.value divisor.value precision =
        10 ^ lastPlace precision.toNat (dividend.value / divisor.value) /
          guardFactor dividend.value divisor.value := by
      rw [← factor, zpow_sub₀ (by norm_num)]
      field_simp
    rw [value_of_divideToPrecision positive first second divided]
    constructor
    · rw [guard] at factor ⊢
      exact roundedToDigits_roundedAt_eq_iff positive nonzero size factor finer
    · refine (abs_sub_roundedToDigits_roundedAt_le positive nonzero finer).trans_eq ?_
      rw [place]
      ring

theorem divideToPrecision_two_thirds :
    ∃ quotient, divideToPrecision 2 3 5 = .ok quotient ∧
      quotient.value = roundedToDigits 5 (2 / 3) := by
  have two : (2 : Decimal).value = 2 := by exact_mod_cast value_ofInt 2
  have three : (3 : Decimal).value = 3 := by exact_mod_cast value_ofInt 3
  have first : firstPlace 2 = 0 := firstPlace_eq (by norm_num) (by norm_num)
  have second : firstPlace 3 = 0 := firstPlace_eq (by norm_num) (by norm_num)
  have both : firstPlace (2 / 3) = -1 := firstPlace_eq (by norm_num) (by norm_num)
  have divided : divideToPrecision 2 3 5 = .ok ⟨66667, 5⟩ := by rfl
  refine ⟨_, divided, ?_⟩
  have rounds := (divideToPrecision_eq_roundedToDigits_iff (by decide) divided).1
  rw [two, three, show (5 : UInt32).toNat = 5 from rfl] at rounds
  refine rounds.mpr ?_
  rw [guardFactor, first, second, both, lastPlace, both, if_neg (by decide)]
  rintro ⟨even, ⟨pair, rfl⟩, -, less⟩
  obtain ⟨lower, upper⟩ := abs_le.mp less
  norm_num at lower upper
  have above : (66666 : ℚ) < pair + pair := by linarith
  have below : (pair + pair : ℚ) < 66668 := by linarith
  have above' : (66666 : Int) < pair + pair := by exact_mod_cast above
  have below' : pair + pair < (66668 : Int) := by exact_mod_cast below
  omega

/-- A value just above 2.5 is rounded to 2 as a quotient. -/
theorem divideToPrecision_above_halfway :
    divideToPrecision 2500001 1000000 1 = .ok 2 ∧ (2 : Decimal).value = 2 ∧
      roundedToDigits 1 ((2500001 : Decimal).value / (1000000 : Decimal).value) = 3 := by
  have dividend : (2500001 : Decimal).value = 2500001 := by exact_mod_cast value_ofInt 2500001
  have divisor : (1000000 : Decimal).value = 1000000 := by exact_mod_cast value_ofInt 1000000
  have place : firstPlace (2500001 / 1000000) = 0 := firstPlace_eq (by norm_num) (by norm_num)
  have nearest : RoundingMode.halfEven.round (2500001 / 1000000 : ℚ) = 3 := by
    refine RoundingMode.halfEven_round_eq_iff.mpr ⟨?_, ?_⟩
    · norm_num [abs_le]
    · intro tie
      norm_num [abs_of_neg] at tie
  refine ⟨by rfl, by exact_mod_cast value_ofInt 2, ?_⟩
  rw [dividend, divisor, roundedToDigits, lastPlace, place, roundedAt]
  norm_num [nearest]

end Decimal
end DecimalCalculator
