/-
Significant digits of a value.

The first digit of a number stands at the place of its leading exponent, whatever the
form of the number is.  Rounding to a number of digits is rounding half to even at the
place that many digits below, and no form enters into it.
-/

import Mathlib
import DecimalCalculator.Proofs.Decimal.Forms
import DecimalCalculator.Proofs.Decimal.Nearest

namespace DecimalCalculator
namespace Decimal

variable {number : Decimal} {value : ℚ} {digits : Nat} {place : Int}

/-! ### Places -/

def firstPlace (value : ℚ) : Int :=
  Int.log 10 |value|

def lastPlace (digits : Nat) (value : ℚ) : Int :=
  firstPlace value + 1 - digits

theorem zpow_firstPlace_le (nonzero : value ≠ 0) : (10 : ℚ) ^ firstPlace value ≤ |value| := by
  exact_mod_cast Int.zpow_log_le_self (show 1 < 10 by decide) (abs_pos.mpr nonzero)

theorem lt_zpow_firstPlace (value : ℚ) : |value| < (10 : ℚ) ^ (firstPlace value + 1) := by
  exact_mod_cast Int.lt_zpow_succ_log_self (show 1 < 10 by decide) |value|

theorem firstPlace_eq (atLeast : (10 : ℚ) ^ place ≤ |value|)
    (below : |value| < (10 : ℚ) ^ (place + 1)) : firstPlace value = place := by
  have positive : 0 < |value| := (zpow_pos (by norm_num) place).trans_le atLeast
  have first : place ≤ Int.log 10 |value| :=
    (Int.zpow_le_iff_le_log (by decide) positive).mp (by exact_mod_cast atLeast)
  have second : Int.log 10 |value| < place + 1 :=
    (Int.lt_zpow_iff_log_lt (by decide) positive).mp (by exact_mod_cast below)
  rw [firstPlace]
  omega

theorem firstPlace_le_of_abs_le (nonzero : value ≠ 0) (atMost : |value| ≤ (10 : ℚ) ^ place) :
    firstPlace value ≤ place := by
  have below : |value| < (10 : ℚ) ^ (place + 1) :=
    atMost.trans_lt (zpow_lt_zpow_right₀ (by norm_num) (by omega))
  have least : Int.log 10 |value| < place + 1 :=
    (Int.lt_zpow_iff_log_lt (by decide) (abs_pos.mpr nonzero)).mp (by exact_mod_cast below)
  rw [firstPlace]
  omega

/-- The first digit of a quotient stands at the place that the first digits of the two
numbers suggest, or at the one below. -/
theorem firstPlace_div {dividend divisor : ℚ} (first : dividend ≠ 0) (second : divisor ≠ 0) :
    firstPlace (dividend / divisor) = firstPlace dividend - firstPlace divisor ∨
      firstPlace (dividend / divisor) = firstPlace dividend - firstPlace divisor - 1 := by
  have size : 0 < |divisor| := abs_pos.mpr second
  have ten : (10 : ℚ) ≠ 0 := by norm_num
  have least := zpow_firstPlace_le first
  have most := lt_zpow_firstPlace dividend
  have least' := zpow_firstPlace_le second
  have most' := lt_zpow_firstPlace divisor
  have atLeast : (10 : ℚ) ^ (firstPlace dividend - firstPlace divisor - 1) ≤ |dividend / divisor| := by
    rw [abs_div, le_div_iff₀ size]
    calc
      (10 : ℚ) ^ (firstPlace dividend - firstPlace divisor - 1) * |divisor| ≤
          10 ^ (firstPlace dividend - firstPlace divisor - 1) * 10 ^ (firstPlace divisor + 1) := by
        gcongr
      _ = 10 ^ firstPlace dividend := by
        rw [← zpow_add₀ ten]
        congr 1
        ring
      _ ≤ |dividend| := least
  have below : |dividend / divisor| < (10 : ℚ) ^ (firstPlace dividend - firstPlace divisor + 1) := by
    rw [abs_div, div_lt_iff₀ size]
    calc
      |dividend| < 10 ^ (firstPlace dividend + 1) := most
      _ = (10 : ℚ) ^ (firstPlace dividend - firstPlace divisor + 1) * 10 ^ firstPlace divisor := by
        rw [← zpow_add₀ ten]
        congr 1
        ring
      _ ≤ 10 ^ (firstPlace dividend - firstPlace divisor + 1) * |divisor| := by
        gcongr
  rcases le_or_gt ((10 : ℚ) ^ (firstPlace dividend - firstPlace divisor)) |dividend / divisor| with
    same | less
  · exact Or.inl (firstPlace_eq same below)
  · refine Or.inr (firstPlace_eq atLeast ?_)
    rwa [sub_add_cancel]

theorem firstPlace_value (nonzero : number.value ≠ 0) :
    firstPlace number.value = number.digitCount - 1 - number.scale.toInt := by
  have whole := mt value_eq_zero_iff.mpr nonzero
  have unit : (0 : ℚ) < 10 ^ number.scale.toInt := zpow_pos (by norm_num) _
  have positive : 1 ≤ number.digitCount := Digits.count_pos _
  obtain ⟨lower, upper⟩ := (digitCount_eq_iff whole).mp rfl
  have size : |number.value| = number.unscaled.natAbs / 10 ^ number.scale.toInt := by
    rw [value, abs_div, abs_of_pos unit, Nat.cast_natAbs, Int.cast_abs]
  apply firstPlace_eq
  · rw [size, zpow_sub₀ (by norm_num)]
    gcongr
    rw [← Int.natCast_pred_of_pos positive, zpow_natCast]
    exact_mod_cast lower
  · rw [size, sub_right_comm, sub_add_cancel, zpow_sub₀ (by norm_num)]
    gcongr
    rw [zpow_natCast]
    exact_mod_cast upper

theorem leadingExponent_eq_ofInt_digitCount (number : Decimal) :
    number.leadingExponent = Int64.ofInt (number.digitCount - 1 - number.scale.toInt) := by
  rw [Int64.ofInt_sub, Int64.ofInt_sub, Int64.ofInt_toInt, Int64.ofInt_eq_ofNat]
  rfl

theorem leadingExponent_eq_ofInt (nonzero : number.value ≠ 0) :
    number.leadingExponent = Int64.ofInt (firstPlace number.value) := by
  rw [firstPlace_value nonzero, leadingExponent_eq_ofInt_digitCount]

/-! ### Rounding at a place -/

/-- The value rounded half to even to a multiple of a power of ten. -/
def roundedAt (place : Int) (value : ℚ) : ℚ :=
  RoundingMode.halfEven.round (value / 10 ^ place) * 10 ^ place

theorem abs_sub_roundedAt_le (place : Int) (value : ℚ) :
    |value - roundedAt place value| ≤ 10 ^ place / 2 := by
  have unit : (0 : ℚ) < 10 ^ place := zpow_pos (by norm_num) _
  have near := RoundingMode.abs_sub_round_le (value / 10 ^ place)
  have scaled : value - roundedAt place value =
      (value / 10 ^ place - RoundingMode.halfEven.round (value / 10 ^ place)) * 10 ^ place := by
    rw [roundedAt, sub_mul, div_mul_cancel₀ _ unit.ne']
  rw [scaled, abs_mul, abs_of_pos unit]
  nlinarith

theorem roundedAt_eq_self {whole last : Int} (exact : value = whole * 10 ^ place)
    (coarse : last ≤ place) : roundedAt last value = value := by
  have ten : (10 : ℚ) ≠ 0 := by norm_num
  obtain ⟨zeros, distance⟩ := Int.le.dest coarse
  have integer : value / 10 ^ last = ((whole * 10 ^ zeros : Int) : ℚ) := by
    rw [exact, ← distance, zpow_add₀ ten, zpow_natCast]
    push_cast
    field_simp
  rw [roundedAt, integer, RoundingMode.round_intCast, ← integer,
    div_mul_cancel₀ _ (zpow_ne_zero _ ten)]

theorem roundedAt_eq_zero_iff : roundedAt place value = 0 ↔ |value| ≤ 10 ^ place / 2 := by
  have unit : (0 : ℚ) < 10 ^ place := zpow_pos (by norm_num) _
  rw [roundedAt, mul_eq_zero, or_iff_left unit.ne', Int.cast_eq_zero,
    RoundingMode.halfEven_round_eq_zero_iff, abs_div, abs_of_pos unit, div_le_iff₀ unit,
    one_div_mul_eq_div]

theorem roundedTo_eq_roundedAt (places : Nat) (value : ℚ) :
    roundedTo places value = roundedAt (-places) value := by
  rw [roundedTo, roundedAt, zpow_neg, zpow_natCast, div_inv_eq_mul, div_eq_mul_inv]

theorem abs_roundedAt_between (nonzero : value ≠ 0) (finer : place ≤ firstPlace value) :
    10 ^ firstPlace value ≤ |roundedAt place value| ∧
      |roundedAt place value| ≤ 10 ^ (firstPlace value + 1) := by
  have ten : (10 : ℚ) ≠ 0 := by norm_num
  have unit : (0 : ℚ) < 10 ^ place := zpow_pos (by norm_num) _
  obtain ⟨zeros, distance⟩ := Int.le.dest finer
  have size : |roundedAt place value| =
      (|RoundingMode.halfEven.round (value / 10 ^ place)| : Int) * 10 ^ place := by
    rw [roundedAt, abs_mul, abs_of_pos unit, Int.cast_abs]
  have atLeast : ((10 ^ zeros : Nat) : ℚ) ≤ |value / 10 ^ place| := by
    rw [abs_div, abs_of_pos unit, le_div_iff₀ unit, Nat.cast_pow, Nat.cast_ofNat, ← zpow_natCast,
      ← zpow_add₀ ten, add_comm, distance]
    exact zpow_firstPlace_le nonzero
  have atMost : |value / 10 ^ place| ≤ ((10 ^ (zeros + 1) : Nat) : ℚ) := by
    rw [abs_div, abs_of_pos unit, div_le_iff₀ unit, Nat.cast_pow, Nat.cast_ofNat, ← zpow_natCast,
      ← zpow_add₀ ten, Nat.cast_succ, add_comm, ← add_assoc, distance]
    exact (lt_zpow_firstPlace value).le
  have lower := RoundingMode.le_abs_round atLeast
  have upper := RoundingMode.abs_round_le atMost
  rw [size]
  constructor
  · rw [← distance, add_comm, zpow_add₀ ten, zpow_natCast]
    gcongr
    exact_mod_cast lower
  · rw [← distance, add_assoc, add_comm, zpow_add₀ ten]
    gcongr
    exact_mod_cast upper

/-! ### Rounding to so many digits -/

/-- The value rounded half to even to so many significant digits. -/
def roundedToDigits (digits : Nat) (value : ℚ) : ℚ :=
  roundedAt (lastPlace digits value) value

theorem roundedToDigits_zero (digits : Nat) : roundedToDigits digits 0 = 0 := by
  have exact : (0 : ℚ) = (0 : Int) * 10 ^ lastPlace digits 0 := by
    rw [Int.cast_zero, zero_mul]
  exact roundedAt_eq_self exact (le_refl _)

/-- A value that was rounded at a finer place is rounded at the last place of the value,
even if the first digit was carried. -/
theorem roundedToDigits_roundedAt (positive : 1 ≤ digits) (nonzero : value ≠ 0)
    (finer : place ≤ lastPlace digits value) :
    roundedToDigits digits (roundedAt place value) =
      roundedAt (lastPlace digits value) (roundedAt place value) := by
  have last : lastPlace digits value = firstPlace value + 1 - digits := rfl
  obtain ⟨atLeast, atMost⟩ := abs_roundedAt_between nonzero
    (show place ≤ firstPlace value by omega)
  rcases atMost.lt_or_eq with below | carried
  · rw [roundedToDigits, lastPlace, firstPlace_eq atLeast below]
    rfl
  · obtain ⟨side, -, exact⟩ := RoundingMode.exists_side (roundedAt place value)
    have next : firstPlace (roundedAt place value) = firstPlace value + 1 := by
      refine firstPlace_eq carried.ge ?_
      rw [carried]
      exact zpow_lt_zpow_right₀ (by norm_num) (by omega)
    have last' : lastPlace digits (roundedAt place value) = firstPlace value + 1 + 1 - digits := by
      rw [lastPlace, next]
    rw [carried] at exact
    rw [roundedToDigits, roundedAt_eq_self exact (by omega), roundedAt_eq_self exact (by omega)]

/-- A value that is rounded at a finer place first is rounded correctly exactly if it does
not lie just beyond a halfway point. -/
theorem roundedToDigits_roundedAt_eq_iff {quarter : Nat} (positive : 1 ≤ digits)
    (nonzero : value ≠ 0) (size : 0 < quarter)
    (factor : (10 : ℚ) ^ (lastPlace digits value - place) = (4 * quarter : Nat))
    (finer : place ≤ lastPlace digits value) :
    roundedToDigits digits (roundedAt place value) = roundedToDigits digits value ↔
      ¬RoundingMode.IsJustBeyondHalf (4 * quarter) (value / 10 ^ lastPlace digits value) := by
  have ten : (10 : ℚ) ≠ 0 := by norm_num
  have unit : (10 : ℚ) ^ lastPlace digits value ≠ 0 := zpow_ne_zero _ ten
  have scaled : value / 10 ^ place =
      value / 10 ^ lastPlace digits value * (4 * quarter : Nat) := by
    rw [← factor, zpow_sub₀ ten]
    field_simp
  have place' : (10 : ℚ) ^ place / 10 ^ lastPlace digits value = 1 / (4 * quarter : Nat) := by
    rw [← factor, zpow_sub₀ ten]
    field_simp
  rw [roundedToDigits_roundedAt positive nonzero finer, ← RoundingMode.round_finer_eq_iff size,
    roundedToDigits, roundedAt, roundedAt, roundedAt, mul_left_inj' unit, Int.cast_inj, scaled,
    mul_div_assoc, place', mul_one_div]

theorem abs_sub_roundedToDigits_roundedAt_le (positive : 1 ≤ digits) (nonzero : value ≠ 0)
    (finer : place ≤ lastPlace digits value) :
    |value - roundedToDigits digits (roundedAt place value)| ≤
      10 ^ lastPlace digits value / 2 + 10 ^ place / 2 := by
  have first := abs_sub_roundedAt_le place value
  have second := abs_sub_roundedAt_le (lastPlace digits value) (roundedAt place value)
  have triangle := abs_sub_le value (roundedAt place value)
    (roundedAt (lastPlace digits value) (roundedAt place value))
  rw [roundedToDigits_roundedAt positive nonzero finer]
  linarith

/-! ### Digits of rounded values -/

theorem le_firstPlace_of_le_abs (atLeast : (10 : ℚ) ^ place ≤ |value|) :
    place ≤ firstPlace value := by
  have positive : 0 < |value| := (zpow_pos (by norm_num) place).trans_le atLeast
  exact (Int.zpow_le_iff_le_log (by decide) positive).mp (by exact_mod_cast atLeast)

theorem roundedToDigits_ne_zero (positive : 1 ≤ digits) (nonzero : value ≠ 0) :
    roundedToDigits digits value ≠ 0 := by
  have last : lastPlace digits value = firstPlace value + 1 - digits := rfl
  have atLeast := (abs_roundedAt_between nonzero
    (show lastPlace digits value ≤ firstPlace value by omega)).1
  rw [← abs_pos]
  exact (zpow_pos (by norm_num) _).trans_le atLeast

theorem firstPlace_roundedToDigits (positive : 1 ≤ digits) (nonzero : value ≠ 0) :
    firstPlace value ≤ firstPlace (roundedToDigits digits value) ∧
      firstPlace (roundedToDigits digits value) ≤ firstPlace value + 1 := by
  have last : lastPlace digits value = firstPlace value + 1 - digits := rfl
  obtain ⟨atLeast, atMost⟩ := abs_roundedAt_between nonzero
    (show lastPlace digits value ≤ firstPlace value by omega)
  have kept := roundedToDigits_ne_zero positive nonzero
  exact ⟨le_firstPlace_of_le_abs atLeast, firstPlace_le_of_abs_le kept atMost⟩

theorem zpow_lastPlace_le (positive : 1 ≤ digits) (nonzero : value ≠ 0) :
    (10 : ℚ) ^ lastPlace digits value ≤ |value| := by
  refine (zpow_le_zpow_right₀ (by norm_num) ?_).trans (zpow_firstPlace_le nonzero)
  rw [lastPlace]
  omega

theorem roundedToDigits_pos (positive : 1 ≤ digits) (above : 0 < value) :
    0 < roundedToDigits digits value := by
  have near := abs_sub_roundedAt_le (lastPlace digits value) value
  have size := zpow_lastPlace_le positive above.ne'
  have unit : (0 : ℚ) < 10 ^ lastPlace digits value := zpow_pos (by norm_num) _
  rw [abs_of_pos above] at size
  obtain ⟨-, upper⟩ := abs_le.mp near
  rw [roundedToDigits]
  linarith

def HasDigits (digits : Nat) (value : ℚ) : Prop :=
  ∃ integer place : Int, |integer| < 10 ^ digits ∧ value = integer * 10 ^ place

theorem HasDigits.abs (few : HasDigits digits value) : HasDigits digits |value| := by
  obtain ⟨integer, place, bounded, written⟩ := few
  refine ⟨|integer|, place, (abs_abs integer).trans_lt bounded, ?_⟩
  have unit : (0 : ℚ) < 10 ^ place := zpow_pos (by norm_num) _
  rw [written, abs_mul, Int.cast_abs, abs_of_pos unit]

theorem lastPlace_le_of_hasDigits {integer place : Int} (few : |integer| < 10 ^ digits)
    (nonzero : value ≠ 0) (exact : value = integer * 10 ^ place) : lastPlace digits value ≤ place := by
  have unit : (0 : ℚ) < 10 ^ place := zpow_pos (by norm_num) _
  have size : |(integer : ℚ)| < 10 ^ digits := by exact_mod_cast few
  have below : (10 : ℚ) ^ firstPlace value < 10 ^ (digits + place) := by
    rw [zpow_add₀ (by norm_num), zpow_natCast]
    calc
      (10 : ℚ) ^ firstPlace value ≤ |value| := zpow_firstPlace_le nonzero
      _ = |(integer : ℚ)| * 10 ^ place := by rw [exact, abs_mul, abs_of_pos unit]
      _ < 10 ^ digits * 10 ^ place := by gcongr
  have places := (zpow_lt_zpow_iff_right₀ (by norm_num)).mp below
  rw [lastPlace]
  omega

/-! ### Numbers rounded to digits -/

theorem roundToPrecision_of_zero (zero : number.value = 0) (precision : UInt32) :
    number.roundToPrecision precision = number := by
  have digit : number.digitCount = 1 := by
    rw [digitCount, value_eq_zero_iff.mp zero]
    rfl
  rw [roundToPrecision, digit, Nat.sub_eq_zero_of_le (le_max_right _ _)]
  rfl

/-- A number is rounded to so many digits as its value; the scale of the result is a word. -/
theorem value_roundToPrecision {precision : UInt32} (positive : 1 ≤ precision.toNat)
    (nonzero : number.value ≠ 0) (few : number.digitCount ≤ precision.toNat + largestExponent)
    (word : -2 ^ 63 ≤ number.scale.toInt - (number.digitCount - precision.toNat : Nat)) :
    (number.roundToPrecision precision).value =
      roundedToDigits precision.toNat number.value := by
  have last : lastPlace precision.toNat number.value =
      number.digitCount - precision.toNat - number.scale.toInt := by
    rw [lastPlace, firstPlace_value nonzero]
    ring
  rw [roundToPrecision, max_eq_left positive]
  by_cases short : number.digitCount - precision.toNat = 0
  · have exact : number.value = number.unscaled * 10 ^ (-number.scale.toInt) := by
      rw [value, zpow_neg, div_eq_mul_inv]
    simp only [short, ↓reduceIte]
    exact (roundedAt_eq_self exact (by omega)).symm
  · have upper := number.scale.toInt_lt
    have distance : (number.scale - Int64.ofNat (number.digitCount - precision.toNat)).toInt =
        number.scale.toInt - (number.digitCount - precision.toNat : Nat) := by
      have bound : largestExponent < 2 ^ 62 := by decide
      rw [Int64.toInt_sub, Int64.toInt_ofNat_of_lt (by omega)]
      exact Int.bmod_eq_of_le (by omega) (by omega)
    have target : (number.scale - Int64.ofNat (number.digitCount - precision.toNat)).toInt =
        -lastPlace precision.toNat number.value := by
      rw [distance, last]
      omega
    have coarser : number.scale - Int64.ofNat (number.digitCount - precision.toNat) < number.scale := by
      rw [Int64.lt_iff_toInt_lt, distance]
      omega
    simp only [short, ↓reduceIte]
    rw [setScale_eq_of_written .halfEven coarser (by omega)]
    generalize number.scale - Int64.ofNat (number.digitCount - precision.toNat) = scale at target ⊢
    change ((RoundingMode.halfEven.round (number.value * 10 ^ scale.toInt) : Int) : ℚ) /
      10 ^ scale.toInt = _
    rw [target, zpow_neg, div_inv_eq_mul, ← div_eq_mul_inv, roundedToDigits, roundedAt]

end Decimal
end DecimalCalculator
