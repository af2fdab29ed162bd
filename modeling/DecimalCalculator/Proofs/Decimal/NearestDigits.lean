/-
Rounding to significant digits as rounding to the nearest number with so many digits.

The numbers with so many digits are spaced more widely after each power of ten, but none of
another decade is closer to a value than the power of ten between them.  So the nearest one
is found at the last place of the value, and halfway between two of them the one with an even
integer in units of this place.  From that alone it follows that rounding keeps the order and
that rounding again changes nothing.
-/

import Mathlib
import DecimalCalculator.Arithmetic.Divisor
import DecimalCalculator.Proofs.Decimal.Modes
import DecimalCalculator.Proofs.Decimal.Precision

namespace DecimalCalculator
namespace Decimal

/-! ### Numbers with so many digits -/

section Values

variable {digits : Nat} {value other nearest : ℚ} {place : Int}

theorem hasDigits_zero (digits : Nat) : HasDigits digits 0 :=
  ⟨0, 0, by rw [abs_zero]; exact pow_pos (by norm_num) digits, by rw [Int.cast_zero, zero_mul]⟩

/-- A power of ten has one digit, so that many units of a place have no more digits than one
less. -/
theorem hasDigits_of_abs_le (positive : 1 ≤ digits) {units : Int} (few : |units| ≤ 10 ^ digits) :
    HasDigits digits (units * 10 ^ place) := by
  rcases few.lt_or_eq with fewer | full
  · exact ⟨units, place, fewer, rfl⟩
  · obtain ⟨side, sides, exact⟩ := RoundingMode.exists_side (units : ℚ)
    refine ⟨side, digits + place, ?_, ?_⟩
    · have one : |side| = 1 := by rcases sides with rfl | rfl <;> rfl
      rw [one]
      exact one_lt_pow₀ (by norm_num) (by omega)
    · have size : |(units : ℚ)| = 10 ^ digits := by exact_mod_cast full
      rw [exact, size, mul_assoc, ← zpow_natCast, ← zpow_add₀ (by norm_num)]

/-- A number with so many digits is a whole number of units of its last place, which may be
that of a value that it is at least as far from zero as. -/
theorem exists_units_of_hasDigits (few : HasDigits digits other)
    (atLeast : (10 : ℚ) ^ firstPlace value ≤ |other|) :
    ∃ units : Int, other = units * 10 ^ lastPlace digits value := by
  obtain ⟨integer, place, small, exact⟩ := few
  have kept : other ≠ 0 := by
    rw [← abs_pos]
    exact (zpow_pos (by norm_num) _).trans_le atLeast
  have coarse := lastPlace_le_of_hasDigits small kept exact
  have first := le_firstPlace_of_le_abs atLeast
  obtain ⟨zeros, distance⟩ := Int.le.dest (show lastPlace digits value ≤ place by
    rw [lastPlace] at coarse ⊢
    omega)
  refine ⟨integer * 10 ^ zeros, ?_⟩
  rw [exact, ← distance, zpow_add₀ (by norm_num), zpow_natCast]
  push_cast
  ring

theorem hasDigits_roundedToDigits (positive : 1 ≤ digits) (value : ℚ) :
    HasDigits digits (roundedToDigits digits value) := by
  by_cases zero : value = 0
  · rw [zero, roundedToDigits_zero]
    exact hasDigits_zero digits
  · have unit : (0 : ℚ) < 10 ^ lastPlace digits value := zpow_pos (by norm_num) _
    have units : |value / 10 ^ lastPlace digits value| ≤ (10 ^ digits : Nat) := by
      rw [abs_div, abs_of_pos unit, div_le_iff₀ unit, Nat.cast_pow, Nat.cast_ofNat,
        ← zpow_natCast, ← zpow_add₀ (by norm_num), lastPlace, add_sub_cancel]
      exact (lt_zpow_firstPlace value).le
    exact hasDigits_of_abs_le positive (by exact_mod_cast RoundingMode.abs_round_le units)

/-! ### The nearest of them -/

/-- No number with so many digits is closer to the value, and of two that are as close this
one is even in units of the last place of the value. -/
structure IsNearestWithDigits (digits : Nat) (value nearest : ℚ) : Prop where
  hasDigits : HasDigits digits nearest
  closest : ∀ other, HasDigits digits other → |value - nearest| ≤ |value - other|
  tie : ∀ other, HasDigits digits other → other ≠ nearest → |value - other| = |value - nearest| →
    ∃ units : Int, Even units ∧ nearest = units * 10 ^ lastPlace digits value

theorem abs_sub_roundedToDigits (digits : Nat) (value : ℚ) (units : Int) :
    (|value - roundedToDigits digits value| ≤ |value - units * 10 ^ lastPlace digits value|) ∧
      (units * 10 ^ lastPlace digits value ≠ roundedToDigits digits value →
        |value - units * 10 ^ lastPlace digits value| = |value - roundedToDigits digits value| →
          Even (RoundingMode.halfEven.round (value / 10 ^ lastPlace digits value))) := by
  have unit : (0 : ℚ) < 10 ^ lastPlace digits value := zpow_pos (by norm_num) _
  have distance (whole : Int) : |value - whole * 10 ^ lastPlace digits value| =
      |value / 10 ^ lastPlace digits value - whole| * 10 ^ lastPlace digits value := by
    rw [← abs_of_pos unit, ← abs_mul, abs_of_pos unit, sub_mul, div_mul_cancel₀ _ unit.ne']
  have nearest := RoundingMode.isNearest_round_halfEven (value / 10 ^ lastPlace digits value)
  rw [roundedToDigits, roundedAt, distance, distance]
  constructor
  · exact mul_le_mul_of_nonneg_right (nearest.closest units) unit.le
  · intro different tie
    refine nearest.tie units ?_ (mul_right_cancel₀ unit.ne' tie)
    rintro rfl
    exact different rfl

/-- A number closer to zero than the first digit of the value is farther away than the power
of ten at this digit. -/
theorem abs_sub_roundedToDigits_lt (positive : 1 ≤ digits) (nonzero : value ≠ 0)
    (below : |other| < 10 ^ firstPlace value) :
    |value - roundedToDigits digits value| < |value - other| := by
  obtain ⟨side, sides, exact⟩ := RoundingMode.exists_side value
  have atLeast := zpow_firstPlace_le nonzero
  have power : (side * 10 ^ (digits - 1) : Int) * (10 : ℚ) ^ lastPlace digits value =
      side * 10 ^ firstPlace value := by
    push_cast
    rw [mul_assoc, ← zpow_natCast, ← zpow_add₀ (by norm_num), lastPlace]
    congr 2
    omega
  have near := (abs_sub_roundedToDigits digits value (side * 10 ^ (digits - 1))).1
  have inside : value - side * 10 ^ firstPlace value = side * (|value| - 10 ^ firstPlace value) := by
    linear_combination exact
  have triangle := abs_sub_abs_le_abs_sub value other
  rw [power, inside, RoundingMode.abs_side_mul sides, abs_of_nonneg (sub_nonneg.mpr atLeast)] at near
  linarith

theorem isNearestWithDigits_roundedToDigits (positive : 1 ≤ digits) (value : ℚ) :
    IsNearestWithDigits digits value (roundedToDigits digits value) := by
  by_cases zero : value = 0
  · subst zero
    rw [roundedToDigits_zero]
    exact ⟨hasDigits_zero digits, fun other _ => by rw [sub_zero, abs_zero]; exact abs_nonneg _,
      fun _ _ _ _ => ⟨0, Even.zero, by rw [Int.cast_zero, zero_mul]⟩⟩
  · refine ⟨hasDigits_roundedToDigits positive value, fun other few => ?_, fun other few => ?_⟩
    · rcases lt_or_ge |other| (10 ^ firstPlace value) with below | atLeast
      · exact (abs_sub_roundedToDigits_lt positive zero below).le
      · obtain ⟨units, rfl⟩ := exists_units_of_hasDigits few atLeast
        exact (abs_sub_roundedToDigits digits value units).1
    · intro different tie
      rcases lt_or_ge |other| (10 ^ firstPlace value) with below | atLeast
      · exact absurd tie (abs_sub_roundedToDigits_lt positive zero below).ne'
      · obtain ⟨units, rfl⟩ := exists_units_of_hasDigits few atLeast
        exact ⟨_, (abs_sub_roundedToDigits digits value units).2 different tie, rfl⟩

theorem IsNearestWithDigits.eq_of_hasDigits (nearest' : IsNearestWithDigits digits value nearest)
    (few : HasDigits digits value) : nearest = value := by
  have close := nearest'.closest value few
  rw [sub_self, abs_zero] at close
  exact (sub_eq_zero.mp (abs_nonpos_iff.mp close)).symm

theorem IsNearestWithDigits.unique (first : IsNearestWithDigits digits value nearest)
    (second : IsNearestWithDigits digits value other) : nearest = other := by
  by_contra different
  have tie : |value - other| = |value - nearest| :=
    le_antisymm (second.closest nearest first.hasDigits) (first.closest other second.hasDigits)
  obtain ⟨units, even, exact⟩ := first.tie other second.hasDigits (Ne.symm different) tie
  obtain ⟨units', even', exact'⟩ := second.tie nearest first.hasDigits different tie.symm
  have middle : 2 * value = nearest + other := by
    rcases abs_eq_abs.mp tie with same | opposite
    · exact absurd (by linarith) different
    · linarith
  obtain ⟨half, rfl⟩ := even
  obtain ⟨half', rfl⟩ := even'
  have whole : value = (half + half' : Int) * 10 ^ lastPlace digits value := by
    push_cast at exact exact' ⊢
    linarith
  have few : HasDigits digits value := by
    have unit : (0 : ℚ) < 10 ^ lastPlace digits value := zpow_pos (by norm_num) _
    have below := lt_zpow_firstPlace value
    have place : firstPlace value + 1 = digits + lastPlace digits value := by
      rw [lastPlace, add_sub_cancel]
    refine ⟨half + half', lastPlace digits value, ?_, whole⟩
    rw [place, zpow_add₀ (by norm_num), zpow_natCast] at below
    have size : |value| = |((half + half' : Int) : ℚ)| * 10 ^ lastPlace digits value := by
      conv_lhs => rw [whole]
      rw [abs_mul, abs_of_pos unit]
    rw [size] at below
    exact_mod_cast lt_of_mul_lt_mul_right below unit.le
  exact different ((first.eq_of_hasDigits few).trans (second.eq_of_hasDigits few).symm)

theorem roundedToDigits_eq_iff (positive : 1 ≤ digits) :
    roundedToDigits digits value = nearest ↔ IsNearestWithDigits digits value nearest := by
  constructor
  · rintro rfl
    exact isNearestWithDigits_roundedToDigits positive value
  · exact (isNearestWithDigits_roundedToDigits positive value).unique

theorem roundedToDigits_of_hasDigits (positive : 1 ≤ digits) (few : HasDigits digits value) :
    roundedToDigits digits value = value :=
  (isNearestWithDigits_roundedToDigits positive value).eq_of_hasDigits few

/-- Two values whose nearest numbers are in the opposite order could be exchanged for a
smaller sum of the squared distances. -/
theorem roundedToDigits_mono (positive : 1 ≤ digits) (atMost : value ≤ other) :
    roundedToDigits digits value ≤ roundedToDigits digits other := by
  rcases atMost.eq_or_lt with rfl | below
  · exact le_rfl
  · by_contra above
    have reversed := sub_pos.mpr (not_le.mp above)
    have first := (isNearestWithDigits_roundedToDigits positive value).closest _
      (hasDigits_roundedToDigits positive other)
    have second := (isNearestWithDigits_roundedToDigits positive other).closest _
      (hasDigits_roundedToDigits positive value)
    have apart := mul_pos (sub_pos.mpr below) reversed
    have squares := sq_le_sq.mpr first
    have squares' := sq_le_sq.mpr second
    linarith

end Values

/-! ### Rounded numbers -/

variable {number other : Decimal} {precision : UInt32}

/-- Digits that are kept: a precision of zero is one of one digit. -/
def keptDigits (precision : UInt32) : Nat :=
  max precision.toNat 1

theorem keptDigits_pos (precision : UInt32) : 1 ≤ keptDigits precision :=
  le_max_right _ _

def droppedDigits (number : Decimal) (precision : UInt32) : Nat :=
  number.digitCount - keptDigits precision

/-- Not more digits are dropped than a power of ten can have zeros, and the scale of the rounded
number is a word. -/
structure RoundsToPrecision (number : Decimal) (precision : UInt32) : Prop where
  few : number.droppedDigits precision ≤ largestExponent
  word : -2 ^ 63 ≤ number.scale.toInt - number.droppedDigits precision

instance (number : Decimal) (precision : UInt32) : Decidable (number.RoundsToPrecision precision) :=
  decidable_of_iff (number.droppedDigits precision ≤ largestExponent ∧
      -2 ^ 63 ≤ number.scale.toInt - number.droppedDigits precision)
    ⟨fun both => ⟨both.1, both.2⟩, fun rounds => ⟨rounds.few, rounds.word⟩⟩

theorem roundToPrecision_of_short (short : number.droppedDigits precision = 0) :
    number.roundToPrecision precision = number := by
  unfold roundToPrecision
  exact if_pos short

theorem RoundsToPrecision.exists_eq (rounds : number.RoundsToPrecision precision)
    (long : number.droppedDigits precision ≠ 0) :
    ∃ target : Int64, target.toInt = number.scale.toInt - number.droppedDigits precision ∧
      number.roundToPrecision precision =
        ⟨RoundingMode.halfEven.round (number.value * 10 ^ target.toInt), target⟩ := by
  have bound : largestExponent < 2 ^ 62 := by decide
  have few := rounds.few
  have word := rounds.word
  have upper := number.scale.toInt_lt
  have distance : (number.scale - Int64.ofNat (number.droppedDigits precision)).toInt =
      number.scale.toInt - number.droppedDigits precision := by
    rw [Int64.toInt_sub, Int64.toInt_ofNat_of_lt (by omega)]
    exact Int.bmod_eq_of_le (by omega) (by omega)
  refine ⟨_, distance, ?_⟩
  rw [← setScale_eq_of_written .halfEven ?_ (by omega)]
  · unfold roundToPrecision
    exact if_neg long
  · rw [Int64.lt_iff_toInt_lt, distance]
    omega

/-- If the scale of the rounded number is no word, it is taken for a finer one and no digit is
dropped. -/
theorem roundToPrecision_of_wrapped (few : number.droppedDigits precision ≤ largestExponent)
    (beyond : number.scale.toInt - number.droppedDigits precision < -2 ^ 63) :
    ∃ target : Int64, number.roundToPrecision precision = ⟨number.alignedTo target, target⟩ := by
  have bound : largestExponent < 2 ^ 62 := by decide
  have lower := number.scale.le_toInt
  have wrapped : (number.scale.toInt - number.droppedDigits precision).bmod (2 ^ 64) =
      number.scale.toInt - number.droppedDigits precision + 2 ^ 64 := by
    rw [← Int.add_bmod_right]
    exact Int.bmod_eq_of_le (by omega) (by omega)
  refine ⟨number.scale - Int64.ofNat (number.droppedDigits precision), ?_⟩
  have long : ¬number.digitCount - max precision.toNat 1 = 0 := by
    change ¬number.droppedDigits precision = 0
    omega
  have finer : number.scale ≤ number.scale - Int64.ofNat (number.droppedDigits precision) := by
    rw [Int64.le_iff_toInt_le, Int64.toInt_sub, Int64.toInt_ofNat_of_lt (by omega), wrapped]
    omega
  unfold roundToPrecision
  simp only [long, ↓reduceIte]
  exact if_pos finer

theorem abs_value_mul_le (number : Decimal) (precision : UInt32) :
    |number.value * 10 ^ (number.scale.toInt - number.droppedDigits precision)| ≤
      10 ^ keptDigits precision := by
  have digits := Digits.lt_pow_count number.unscaled.natAbs
  have size : |(number.unscaled : ℚ)| < 10 ^ number.digitCount := by
    rw [← Int.cast_abs, Int.abs_eq_natAbs]
    exact_mod_cast digits
  have unit : (0 : ℚ) < 10 ^ number.droppedDigits precision := by positivity
  have units : number.value * 10 ^ (number.scale.toInt - number.droppedDigits precision) =
      number.unscaled / 10 ^ number.droppedDigits precision := by
    rw [unscaled_eq, zpow_sub₀ (by norm_num), zpow_natCast, mul_div_assoc]
  have enough : number.digitCount ≤ keptDigits precision + number.droppedDigits precision := by
    rw [droppedDigits]
    omega
  rw [units, abs_div, abs_of_pos unit, div_le_iff₀ unit, ← pow_add]
  exact size.le.trans (pow_le_pow_right₀ (by norm_num) enough)

namespace RoundsToPrecision

theorem value_eq_of_pos (rounds : number.RoundsToPrecision precision)
    (positive : 1 ≤ precision.toNat) :
    (number.roundToPrecision precision).value =
      roundedToDigits (keptDigits precision) number.value := by
  have kept : keptDigits precision = precision.toNat := max_eq_left positive
  obtain ⟨few, word⟩ := rounds
  rw [droppedDigits, kept] at few word
  rw [kept]
  by_cases zero : number.value = 0
  · rw [roundToPrecision_of_zero zero, zero, roundedToDigits_zero]
  · exact value_roundToPrecision positive zero (by omega) word

theorem value_eq (rounds : number.RoundsToPrecision precision) :
    (number.roundToPrecision precision).value =
      roundedToDigits (keptDigits precision) number.value := by
  by_cases none : precision = 0
  · subst none
    have single : number.RoundsToPrecision 1 := ⟨rounds.few, rounds.word⟩
    exact single.value_eq_of_pos (le_refl 1)
  · refine rounds.value_eq_of_pos (Nat.pos_of_ne_zero fun zero => none ?_)
    exact UInt32.toNat_inj.mp zero

theorem abs_unscaled_le (rounds : number.RoundsToPrecision precision) :
    |(number.roundToPrecision precision).unscaled| ≤ 10 ^ keptDigits precision := by
  have size := abs_value_mul_le number precision
  by_cases short : number.droppedDigits precision = 0
  · rw [short, Nat.cast_zero, sub_zero, ← unscaled_eq] at size
    rw [roundToPrecision_of_short short]
    exact_mod_cast size
  · obtain ⟨target, scale, rounded⟩ := rounds.exists_eq short
    have units : |number.value * 10 ^ target.toInt| ≤ (10 ^ keptDigits precision : Nat) := by
      rw [scale]
      exact_mod_cast size
    rw [rounded]
    exact_mod_cast RoundingMode.abs_round_le units

theorem digitCount_le (rounds : number.RoundsToPrecision precision) :
    (number.roundToPrecision precision).digitCount ≤ keptDigits precision + 1 := by
  have size := rounds.abs_unscaled_le
  rw [Int.abs_eq_natAbs] at size
  have few : (number.roundToPrecision precision).unscaled.natAbs ≤ 10 ^ keptDigits precision := by
    exact_mod_cast size
  by_contra long
  rw [digitCount] at long
  rcases Nat.eq_zero_or_pos (number.roundToPrecision precision).unscaled.natAbs with none | some
  · rw [none] at long
    exact long (Nat.succ_le_succ (Nat.zero_le _))
  · have atLeast : 10 ^ (keptDigits precision + 1) ≤
        (number.roundToPrecision precision).unscaled.natAbs :=
      (Nat.pow_le_pow_right (by decide) (by omega)).trans (Digits.pow_count_le some)
    have next := Nat.pow_lt_pow_succ (n := keptDigits precision) (show 1 < 10 by decide)
    omega

theorem isNearestWithDigits (rounds : number.RoundsToPrecision precision) :
    IsNearestWithDigits (keptDigits precision) number.value
      (number.roundToPrecision precision).value := by
  rw [rounds.value_eq]
  exact isNearestWithDigits_roundedToDigits (keptDigits_pos precision) number.value

theorem mono (rounds : number.RoundsToPrecision precision)
    (rounds' : other.RoundsToPrecision precision) (atMost : number.value ≤ other.value) :
    (number.roundToPrecision precision).value ≤ (other.roundToPrecision precision).value := by
  rw [rounds.value_eq, rounds'.value_eq]
  exact roundedToDigits_mono (keptDigits_pos precision) atMost

end RoundsToPrecision

/-- Rounding leaves the first digit of a number, in whatever form, as long as a power of ten can
be written for the others. -/
theorem value_roundToPrecision_ne_zero (few : number.droppedDigits precision ≤ largestExponent)
    (nonzero : number.value ≠ 0) : (number.roundToPrecision precision).value ≠ 0 := by
  by_cases word : -2 ^ 63 ≤ number.scale.toInt - number.droppedDigits precision
  · have rounds : number.RoundsToPrecision precision := ⟨few, word⟩
    rw [rounds.value_eq]
    exact roundedToDigits_ne_zero (keptDigits_pos precision) nonzero
  · obtain ⟨target, wrapped⟩ := roundToPrecision_of_wrapped few (not_le.mp word)
    rw [wrapped]
    exact mt value_eq_zero_iff.mp (alignedTo_ne_zero (mt value_eq_zero_iff.mpr nonzero) target)

theorem digitCount_lt_of_droppedDigits_le (few : number.droppedDigits precision ≤ largestExponent) :
    number.digitCount < 2 ^ 63 := by
  have room : largestExponent < 2 ^ 62 := by decide
  have kept : keptDigits precision ≤ 2 ^ 32 := max_le precision.toNat_lt.le (by decide)
  rw [droppedDigits] at few
  omega

theorem Checked.roundToPrecision_eq_ok_iff {result : Decimal}
    (few : number.droppedDigits precision ≤ largestExponent) :
    roundToPrecision number precision = .ok result ↔
      number.RoundsToPrecision precision ∧ number.roundToPrecision precision = result := by
  have upper := number.scale.toInt_lt
  rw [roundToPrecision_eq (digitCount_lt_of_droppedDigits_le few), unlessOverflow_eq_ok_iff]
  refine and_congr_left fun _ => ⟨fun word => ⟨few, word.1⟩, fun rounds => ⟨rounds.word, ?_⟩⟩
  omega

theorem Checked.roundToPrecision_eq_overflow
    (few : number.droppedDigits precision ≤ largestExponent)
    (beyond : number.scale.toInt - number.droppedDigits precision < -2 ^ 63) :
    roundToPrecision number precision = .error .overflow := by
  rw [roundToPrecision_eq (digitCount_lt_of_droppedDigits_le few)]
  exact unlessOverflow_of_not fun word => absurd word.1 (not_le.mpr beyond)

/-- Rounding to a precision gives the nearest number with so many digits, whatever the form of
the number is, unless the scale of the result is no word.  It keeps the order of the values,
also as the comparison of numbers finds it, and rounding again changes nothing. -/
theorem roundToPrecision_isMonotoneRounding (precision : UInt32)
    (few : number.droppedDigits precision ≤ largestExponent) :
    (number.scale.toInt - number.droppedDigits precision < -2 ^ 63 →
        Checked.roundToPrecision number precision = .error .overflow) ∧
      (-2 ^ 63 ≤ number.scale.toInt - number.droppedDigits precision →
        ∃ result, Checked.roundToPrecision number precision = .ok result ∧
          (∀ nearest, result.value = nearest ↔
            IsNearestWithDigits (keptDigits precision) number.value nearest) ∧
          |result.unscaled| ≤ 10 ^ keptDigits precision ∧
          (∀ again, Checked.roundToPrecision result precision = .ok again →
            again.value = result.value) ∧
          ∀ other rounded : Decimal, other.droppedDigits precision ≤ largestExponent →
            Checked.roundToPrecision other precision = .ok rounded →
            (number.value = other.value → result.value = rounded.value) ∧
            (number.value ≤ other.value → result.value ≤ rounded.value) ∧
            ∀ before after : Ordering, Checked.compare number other = .ok before →
              Checked.compare result rounded = .ok after →
              before.isLE = true → after.isLE = true) := by
  have positive := keptDigits_pos precision
  refine ⟨Checked.roundToPrecision_eq_overflow few, fun word => ?_⟩
  have rounds : number.RoundsToPrecision precision := ⟨few, word⟩
  refine ⟨_, (Checked.roundToPrecision_eq_ok_iff few).mpr ⟨rounds, rfl⟩, fun nearest => ?_,
    rounds.abs_unscaled_le, fun again reached => ?_, fun other rounded few' reached => ?_⟩
  · rw [rounds.value_eq, roundedToDigits_eq_iff positive]
  · have digits := rounds.digitCount_le
    have room : 1 ≤ largestExponent := by decide
    have fewer : (number.roundToPrecision precision).droppedDigits precision ≤ largestExponent := by
      rw [droppedDigits]
      omega
    obtain ⟨rounds', rfl⟩ := (Checked.roundToPrecision_eq_ok_iff fewer).mp reached
    rw [rounds'.value_eq]
    exact roundedToDigits_of_hasDigits positive rounds.isNearestWithDigits.hasDigits
  · obtain ⟨rounds', rfl⟩ := (Checked.roundToPrecision_eq_ok_iff few').mp reached
    refine ⟨fun same => ?_, rounds.mono rounds', fun before after first second below => ?_⟩
    · rw [rounds.value_eq, rounds'.value_eq, same]
    · obtain ⟨comparable, rfl⟩ := unlessOverflow_eq_ok_iff.mp first
      obtain ⟨comparable', rfl⟩ := unlessOverflow_eq_ok_iff.mp second
      exact (le_iff_value_le comparable').mpr
        (rounds.mono rounds' ((le_iff_value_le comparable).mp below))

/-- 9.995 lies in the middle of 9.99 and 10.00, of which the second one is even at the last
place; it is written with four digits and rounded again without a change. -/
theorem roundToPrecision_isMonotoneRounding_carried :
    (⟨9995, 3⟩ : Decimal).droppedDigits 3 ≤ largestExponent ∧
      -2 ^ 63 ≤ (⟨9995, 3⟩ : Decimal).scale.toInt - (⟨9995, 3⟩ : Decimal).droppedDigits 3 ∧
      Checked.roundToPrecision ⟨9995, 3⟩ 3 = .ok ⟨1000, 2⟩ ∧
      IsNearestWithDigits 3 (1999 / 200) 10 ∧
      Checked.roundToPrecision ⟨1000, 2⟩ 3 = .ok ⟨100, 1⟩ ∧
      (⟨100, 1⟩ : Decimal).value = (⟨1000, 2⟩ : Decimal).value ∧
      Checked.roundToPrecision 10 3 = .ok 10 ∧
      (⟨1000, 2⟩ : Decimal).value ≤ (10 : Decimal).value := by
  have few : (⟨9995, 3⟩ : Decimal).droppedDigits 3 ≤ largestExponent := by decide
  have word : -2 ^ 63 ≤
      (⟨9995, 3⟩ : Decimal).scale.toInt - (⟨9995, 3⟩ : Decimal).droppedDigits 3 := by decide
  have rounded : Checked.roundToPrecision ⟨9995, 3⟩ 3 = .ok ⟨1000, 2⟩ := by rfl
  have again : Checked.roundToPrecision ⟨1000, 2⟩ 3 = .ok ⟨100, 1⟩ := by rfl
  have other : Checked.roundToPrecision 10 3 = .ok 10 := by rfl
  have value : (⟨9995, 3⟩ : Decimal).value = 1999 / 200 := by
    change ((9995 : Int) : ℚ) / 10 ^ (3 : Int) = _
    norm_num
  have result : (⟨1000, 2⟩ : Decimal).value = 10 := by
    change ((1000 : Int) : ℚ) / 10 ^ (2 : Int) = _
    norm_num
  have ten : (10 : Decimal).value = 10 := by
    exact_mod_cast value_ofInt 10
  obtain ⟨_, same, nearest, -, kept, others⟩ :=
    (roundToPrecision_isMonotoneRounding 3 few).2 word
  rw [rounded, Except.ok.injEq] at same
  subst same
  rw [value] at nearest others
  exact ⟨few, word, rounded, (nearest 10).mp result, again, kept _ again, other,
    (others 10 10 (by decide) other).2.1 (by rw [ten]; norm_num)⟩

/-- The scale of `12 * 10 ^ 2 ^ 63` is the least word, so that of the number with one digit
less is no word. -/
theorem roundToPrecision_overflows :
    (⟨12, -9223372036854775808⟩ : Decimal).digitCount < 2 ^ 32 - 1 ∧
      Checked.roundToPrecision ⟨12, -9223372036854775808⟩ 1 = .error .overflow :=
  ⟨by decide, by rfl⟩

end Decimal
end DecimalCalculator
