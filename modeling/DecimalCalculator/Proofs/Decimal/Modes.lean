/-
What the rounding modes prescribe.

A mode that rounds to the nearest integer is told by distances, and halfway between two
integers by the one that it prefers; the other modes are told by order.  A mode prescribes
exactly one integer for a value.  It is the one that a number brought to a scale and a
quotient at a scale have as the multiple of their last place.
-/

import Mathlib
import DecimalCalculator.Proofs.Decimal.Checked
import DecimalCalculator.Proofs.Decimal.Quotient

namespace DecimalCalculator

namespace RoundingMode

variable {value : ℚ} {integer other : Int} {preferred : Int → Int → Prop}

/-! ### Nearest integers -/

/-- No integer is closer to the value, and this one is preferred to any that is as close. -/
structure IsNearest (preferred : Int → Int → Prop) (value : ℚ) (integer : Int) : Prop where
  closest : ∀ other : Int, |value - integer| ≤ |value - other|
  tie : ∀ other : Int, other ≠ integer → |value - other| = |value - integer| →
    preferred integer other

theorem one_le_abs_sub_add (value : ℚ) (different : other ≠ integer) :
    1 ≤ |value - integer| + |value - other| := by
  have apart : (1 : ℚ) ≤ |(integer : ℚ) - other| := by
    exact_mod_cast Int.one_le_abs (sub_ne_zero.mpr different.symm)
  have triangle := abs_sub_le (integer : ℚ) value other
  rw [abs_sub_comm (integer : ℚ) value] at triangle
  linarith

theorem IsNearest.of_lt_half (near : |value - integer| < 1 / 2) :
    IsNearest preferred value integer := by
  constructor
  · intro other
    by_cases same : other = integer
    · rw [same]
    · have apart := one_le_abs_sub_add value same
      linarith
  · intro other different tie
    have apart := one_le_abs_sub_add value different
    linarith

theorem IsNearest.of_half (half : |value - integer| = 1 / 2)
    (prefers : ∀ other : Int, other ≠ integer → |value - other| = 1 / 2 →
      preferred integer other) :
    IsNearest preferred value integer := by
  constructor
  · intro other
    by_cases same : other = integer
    · rw [same]
    · have apart := one_le_abs_sub_add value same
      linarith
  · intro other different tie
    exact prefers other different (tie.trans half)

theorem IsNearest.abs_sub_le (nearest : IsNearest preferred value integer) :
    |value - integer| ≤ 1 / 2 :=
  (nearest.closest (halfEven.round value)).trans (abs_sub_round_le value)

theorem IsNearest.preferred_of_ne (first : IsNearest preferred value integer)
    (second : IsNearest preferred value other) (different : other ≠ integer) :
    preferred integer other ∧ preferred other integer := by
  have tie : |value - other| = |value - integer| :=
    le_antisymm (second.closest integer) (first.closest other)
  exact ⟨first.tie other different tie, second.tie integer different.symm tie.symm⟩

/-! ### Halfway between two integers -/

theorem eq_floor_or_eq_ceil (half : Int.fract value = 1 / 2) (tie : |value - other| = 1 / 2) :
    other = ⌊value⌋ ∨ other = ⌈value⌉ := by
  have floor : value = ⌊value⌋ + 1 / 2 := by
    rw [← half, Int.floor_add_fract]
  rw [ceil_eq_of_half half]
  rcases (abs_eq (by norm_num)).mp tie with below | above
  · left
    exact_mod_cast (by linarith : (other : ℚ) = ⌊value⌋)
  · right
    exact_mod_cast (by linarith : (other : ℚ) = ⌊value⌋ + 1)

theorem abs_neighbours_lt (half : Int.fract value = 1 / 2) :
    if value < 0 then |⌈value⌉| < |⌊value⌋| else |⌊value⌋| < |⌈value⌉| := by
  have floor : value = ⌊value⌋ + 1 / 2 := by
    rw [← half, Int.floor_add_fract]
  rw [ceil_eq_of_half half]
  split
  · rename_i negative
    have below : (⌊value⌋ : ℚ) < 0 := by linarith
    have integer : ⌊value⌋ < 0 := by exact_mod_cast below
    rw [abs_of_neg integer, abs_of_nonpos (by omega)]
    omega
  · rename_i nonnegative
    have above : (-1 : ℚ) < ⌊value⌋ := by linarith
    have integer : -1 < ⌊value⌋ := by exact_mod_cast above
    rw [abs_of_nonneg (by omega), abs_of_nonneg (by omega)]
    omega

theorem isNearest_nearestOr {middle : Int}
    (prefers : Int.fract value = 1 / 2 →
      middle = ⌊value⌋ ∧ preferred ⌊value⌋ ⌈value⌉ ∨ middle = ⌈value⌉ ∧ preferred ⌈value⌉ ⌊value⌋) :
    IsNearest preferred value (nearestOr middle value) := by
  rcases abs_sub_nearestOr_lt middle value with near | ⟨half, given⟩
  · exact .of_lt_half near
  · rw [given]
    rcases prefers half with ⟨rfl, lower⟩ | ⟨rfl, upper⟩
    · refine .of_half (abs_sub_of_half half (Or.inl rfl)) fun other different tie => ?_
      rwa [(eq_floor_or_eq_ceil half tie).resolve_left different]
    · refine .of_half (abs_sub_of_half half (Or.inr rfl)) fun other different tie => ?_
      rwa [(eq_floor_or_eq_ceil half tie).resolve_right different]

/-! ### The modes -/

/-- The integer that a mode asks for, said without computing it. -/
def Prescribes (mode : RoundingMode) (value : ℚ) (integer : Int) : Prop :=
  match mode with
  | .halfEven => IsNearest (fun chosen _ => Even chosen) value integer
  | .halfUp => IsNearest (fun chosen other => |other| < |chosen|) value integer
  | .halfDown => IsNearest (fun chosen other => |chosen| < |other|) value integer
  | .down => |(integer : ℚ)| ≤ |value| ∧ |value - integer| < 1
  | .floor => IsGreatest {whole : Int | (whole : ℚ) ≤ value} integer
  | .ceiling => IsLeast {whole : Int | value ≤ (whole : ℚ)} integer

theorem isNearest_round_halfEven (value : ℚ) : halfEven.Prescribes value (halfEven.round value) := by
  have nearest := isNearestEven_round value
  rcases nearest.near.lt_or_eq with near | half
  · exact .of_lt_half near
  · exact .of_half half fun _ _ _ => nearest.even half

theorem isNearest_round_halfUp (value : ℚ) : halfUp.Prescribes value (halfUp.round value) := by
  apply isNearest_nearestOr
  intro half
  have farther := abs_neighbours_lt half
  by_cases negative : value < 0
  · rw [if_pos negative] at farther ⊢
    exact Or.inl ⟨rfl, farther⟩
  · rw [if_neg negative] at farther ⊢
    exact Or.inr ⟨rfl, farther⟩

theorem isNearest_round_halfDown (value : ℚ) : halfDown.Prescribes value (halfDown.round value) := by
  apply isNearest_nearestOr
  intro half
  have farther := abs_neighbours_lt half
  by_cases negative : value < 0
  · rw [if_pos negative] at farther ⊢
    exact Or.inr ⟨rfl, farther⟩
  · rw [if_neg negative] at farther ⊢
    exact Or.inl ⟨rfl, farther⟩

theorem round_down_eq_iff : down.round value = integer ↔ down.Prescribes value integer := by
  rw [round, Prescribes, abs_lt]
  split
  · rename_i negative
    rw [Int.ceil_eq_iff, abs_of_neg negative, abs_le]
    constructor
    · rintro ⟨close, lower⟩
      have below : integer < 1 := by exact_mod_cast (by linarith : (integer : ℚ) < 1)
      have nonpos : (integer : ℚ) ≤ 0 := by exact_mod_cast Int.lt_add_one_iff.mp below
      refine ⟨⟨?_, ?_⟩, ?_, ?_⟩
      · linarith
      · linarith
      · linarith
      · linarith
    · rintro ⟨⟨lower, -⟩, close, -⟩
      constructor
      · linarith
      · linarith
  · rename_i nonnegative
    rw [Int.floor_eq_iff, abs_of_nonneg (not_lt.mp nonnegative), abs_le]
    constructor
    · rintro ⟨upper, close⟩
      have above : -1 < integer := by exact_mod_cast (by linarith : (-1 : ℚ) < integer)
      have nonneg : (0 : ℚ) ≤ integer := by exact_mod_cast Int.add_one_le_iff.mpr above
      refine ⟨⟨?_, ?_⟩, ?_, ?_⟩
      · linarith
      · linarith
      · linarith
      · linarith
    · rintro ⟨⟨-, upper⟩, -, close⟩
      constructor
      · linarith
      · linarith

theorem prescribes_round (mode : RoundingMode) (value : ℚ) :
    mode.Prescribes value (mode.round value) := by
  cases mode with
  | halfEven => exact isNearest_round_halfEven value
  | halfUp => exact isNearest_round_halfUp value
  | halfDown => exact isNearest_round_halfDown value
  | down => exact round_down_eq_iff.mp rfl
  | floor => exact Int.gc_coe_floor.isGreatest_u
  | ceiling => exact Int.gc_ceil_coe.isLeast_l

theorem Prescribes.unique {mode : RoundingMode} (first : mode.Prescribes value integer)
    (second : mode.Prescribes value other) : other = integer := by
  cases mode with
  | halfEven =>
      by_contra different
      obtain ⟨even, even'⟩ := IsNearest.preferred_of_ne first second different
      have near := IsNearest.abs_sub_le first
      have near' := IsNearest.abs_sub_le second
      have triangle := abs_sub_le (integer : ℚ) value other
      rw [abs_sub_comm (integer : ℚ) value] at triangle
      have close : |integer - other| ≤ 1 := by
        exact_mod_cast (by linarith : |(integer : ℚ) - other| ≤ 1)
      obtain ⟨lower, upper⟩ := abs_le.mp close
      rw [Int.even_iff] at even even'
      omega
  | halfUp =>
      by_contra different
      obtain ⟨farther, closer⟩ := IsNearest.preferred_of_ne first second different
      exact lt_asymm farther closer
  | halfDown =>
      by_contra different
      obtain ⟨closer, farther⟩ := IsNearest.preferred_of_ne first second different
      exact lt_asymm farther closer
  | down => exact (round_down_eq_iff.mpr second).symm.trans (round_down_eq_iff.mpr first)
  | floor => exact IsGreatest.unique second first
  | ceiling => exact IsLeast.unique second first

theorem round_nonneg (mode : RoundingMode) (nonneg : 0 ≤ value) : 0 ≤ mode.round value := by
  have lower : 0 ≤ ⌊value⌋ := Int.floor_nonneg.mpr nonneg
  have upper : 0 ≤ ⌈value⌉ := Int.ceil_nonneg nonneg
  have nearest {middle : Int} (between : 0 ≤ middle) : 0 ≤ nearestOr middle value := by
    unfold nearestOr
    split <;> assumption
  cases mode with
  | halfEven => exact nearest (by split <;> assumption)
  | halfUp => exact nearest (by split <;> assumption)
  | halfDown => exact nearest (by split <;> assumption)
  | down =>
      rw [round, if_neg (not_lt.mpr nonneg)]
      exact lower
  | floor => exact lower
  | ceiling => exact upper

theorem round_eq_iff_prescribes {mode : RoundingMode} :
    mode.round value = integer ↔ mode.Prescribes value integer := by
  constructor
  · rintro rfl
    exact prescribes_round mode value
  · intro prescribed
    exact prescribed.unique (prescribes_round mode value)

end RoundingMode

namespace Decimal

variable {number dividend divisor : Decimal} {target scale : Int64}

theorem value_mk_eq_iff {units multiple : Int} :
    (⟨units, scale⟩ : Decimal).value = multiple / 10 ^ scale.toInt ↔ units = multiple := by
  have unit : (10 : ℚ) ^ scale.toInt ≠ 0 := zpow_ne_zero _ (by norm_num)
  rw [value, div_left_inj' unit, Int.cast_inj]

theorem isShort_of_abs_unscaled_lt (short : |number.unscaled| < 10 ^ largestExponent) :
    number.IsShort := by
  by_cases zero : number.unscaled = 0
  · rw [IsShort, digitCount, zero]
    decide
  · have size : number.unscaled.natAbs < 10 ^ largestExponent := by
      rw [Int.abs_eq_natAbs] at short
      exact_mod_cast short
    have lower := Digits.pow_count_le (Int.natAbs_pos.mpr zero)
    have digits := (Nat.pow_lt_pow_iff_right (by decide)).mp (lower.trans_lt size)
    rw [IsShort, digitCount]
    omega

/-- A number that is brought to a finer scale keeps its value; at a coarser scale it is the
multiple of the last place that the mode prescribes, however many digits are dropped.  Only a
distance whose opposite is no word is too large. -/
theorem value_setScale_eq_iff_prescribes (mode : RoundingMode)
    (short : |number.unscaled| < 10 ^ largestExponent)
    (word : IsWord (target.toInt - number.scale.toInt)) :
    (target.toInt - number.scale.toInt ≠ -2 ^ 63 →
        ∃ result, Checked.setScale number target mode = .ok result ∧ result.scale = target ∧
          (number.scale ≤ target → result.value = number.value) ∧
          (target < number.scale → ∀ multiple : Int,
            result.value = multiple / 10 ^ target.toInt ↔
              mode.Prescribes (number.value * 10 ^ target.toInt) multiple)) ∧
      (target.toInt - number.scale.toInt = -2 ^ 63 →
        Checked.setScale number target mode = .error .overflow) := by
  have reaches : number.Reaches target := Or.inr word.2
  constructor
  · intro inside
    refine ⟨_, unlessOverflow_of (.of_isWord word inside), scale_setScale number target mode,
      fun finer => ?_, fun _ multiple => ?_⟩
    · have unit : (10 : ℚ) ^ target.toInt ≠ 0 := zpow_ne_zero _ (by norm_num)
      rw [setScale, if_pos finer, value, alignedTo_eq finer reaches, mul_div_cancel_right₀ _ unit]
    · rw [setScale_eq mode reaches fun _ => isShort_of_abs_unscaled_lt short, value_mk_eq_iff,
        RoundingMode.round_eq_iff_prescribes]
  · intro least
    exact unlessOverflow_of_not fun meets => absurd meets.2 (by omega)

theorem value_setScale_eq_iff_prescribes_tie :
    |(⟨-25, 1⟩ : Decimal).unscaled| < 10 ^ largestExponent ∧
      IsWord ((0 : Int64).toInt - (⟨-25, 1⟩ : Decimal).scale.toInt) ∧
      RoundingMode.halfEven.Prescribes ((⟨-25, 1⟩ : Decimal).value * 10 ^ (0 : Int64).toInt) (-2) ∧
      RoundingMode.halfUp.Prescribes ((⟨-25, 1⟩ : Decimal).value * 10 ^ (0 : Int64).toInt) (-3) ∧
      RoundingMode.halfDown.Prescribes ((⟨-25, 1⟩ : Decimal).value * 10 ^ (0 : Int64).toInt) (-2) ∧
      RoundingMode.floor.Prescribes ((⟨-25, 1⟩ : Decimal).value * 10 ^ (0 : Int64).toInt) (-3) := by
  have short : |(⟨-25, 1⟩ : Decimal).unscaled| < 10 ^ largestExponent := by
    change |(-25 : Int)| < _
    rw [abs_neg, abs_of_pos (by decide)]
    exact (show (25 : Int) < 10 ^ 2 by decide).trans
      (pow_lt_pow_right₀ (by decide) (by decide))
  have word : IsWord ((0 : Int64).toInt - (⟨-25, 1⟩ : Decimal).scale.toInt) := by decide
  have prescribed {mode : RoundingMode} {multiple : Int}
      (rounded : Checked.setScale ⟨-25, 1⟩ 0 mode = .ok ⟨multiple, 0⟩) :
      mode.Prescribes ((⟨-25, 1⟩ : Decimal).value * 10 ^ (0 : Int64).toInt) multiple := by
    obtain ⟨result, reached, -, -, law⟩ :=
      (value_setScale_eq_iff_prescribes mode short word).1 (by decide)
    rw [rounded, Except.ok.injEq] at reached
    exact (law (by decide) multiple).mp (reached ▸ value_mk_eq_iff.mpr rfl)
  exact ⟨short, word, prescribed (by decide), prescribed (by decide), prescribed (by decide),
    prescribed (by decide)⟩

/-- The distance from the greatest scale to -1 is a word, and its opposite is none. -/
theorem value_setScale_overflows :
    |(⟨1, 9223372036854775807⟩ : Decimal).unscaled| < 10 ^ largestExponent ∧
      IsWord ((-1 : Int64).toInt - (⟨1, 9223372036854775807⟩ : Decimal).scale.toInt) ∧
      Checked.setScale ⟨1, 9223372036854775807⟩ (-1) .halfEven = .error .overflow := by
  refine ⟨?_, by decide, unlessOverflow_of_not (by decide)⟩
  change |(1 : Int)| < _
  rw [abs_one]
  exact one_lt_pow₀ (by norm_num) (by decide)

/-- A quotient at a scale is refused if the divisor is zero or if its power of ten would have
too many zeros, and broken off if the words do not hold the exponent of this power, a sum on the
way to it or its opposite.  Any other is the multiple of its last place that the mode prescribes
for the quotient of the values. -/
theorem divideAtScale_eq_iff_prescribes (dividend divisor : Decimal) (scale : Int64)
    (mode : RoundingMode) :
    (dividend.divideAtScale divisor scale mode = .error .divisionByZero ↔ divisor.value = 0) ∧
      (dividend.divideAtScale divisor scale mode = .error .overflow ↔
        divisor.value ≠ 0 ∧ ¬DividesAt dividend divisor scale) ∧
      ((∃ size, dividend.divideAtScale divisor scale mode = .error (.exponentTooLarge size)) ↔
        divisor.value ≠ 0 ∧ DividesAt dividend divisor scale ∧
          largestExponent < |quotientExponent dividend divisor scale|) ∧
      (divisor.value ≠ 0 → DividesAt dividend divisor scale →
        |quotientExponent dividend divisor scale| ≤ largestExponent →
        ∃ quotient, dividend.divideAtScale divisor scale mode = .ok quotient ∧
          quotient.scale = scale ∧
          ∀ multiple : Int, quotient.value = multiple / 10 ^ scale.toInt ↔
            mode.Prescribes (dividend.value / divisor.value * 10 ^ scale.toInt) multiple) := by
  by_cases zero : divisor.value = 0
  · have refused : dividend.divideAtScale divisor scale mode = .error .divisionByZero :=
      divideAtScale_of_zero mode zero
    rw [refused]
    refine ⟨iff_of_true rfl zero, iff_of_false ?_ fun both => both.1 zero,
      iff_of_false ?_ fun both => both.1 zero, fun nonzero => absurd zero nonzero⟩
    · intro impossible
      cases impossible
    · rintro ⟨size, impossible⟩
      cases impossible
  · rcases divideAtScale_cases dividend scale mode zero with
      ⟨breaks, broken⟩ | ⟨fits, far, refused⟩ | ⟨fits, near, divided⟩
    · rw [broken]
      refine ⟨iff_of_false ?_ zero, iff_of_true rfl ⟨zero, breaks⟩,
        iff_of_false ?_ fun both => breaks both.2.1, fun _ fits => absurd fits breaks⟩
      · intro impossible
        cases impossible
      · rintro ⟨size, impossible⟩
        cases impossible
    · rw [refused]
      refine ⟨iff_of_false ?_ zero, iff_of_false ?_ fun both => both.2 fits,
        iff_of_true ⟨_, rfl⟩ ⟨zero, fits, far⟩, fun _ _ near => absurd near (not_le.mpr far)⟩
      · intro impossible
        cases impossible
      · intro impossible
        cases impossible
    · rw [divided]
      refine ⟨iff_of_false ?_ zero, iff_of_false ?_ fun both => both.2 fits,
        iff_of_false ?_ fun both => not_lt.mpr near both.2.2, fun _ _ _ => ?_⟩
      · intro impossible
        cases impossible
      · intro impossible
        cases impossible
      · rintro ⟨size, impossible⟩
        cases impossible
      · refine ⟨_, rfl, rfl, fun multiple => ?_⟩
        rw [value_mk_eq_iff, RoundingMode.round_eq_iff_prescribes]

example : divideAtScale 700 (-3) (-1) .ceiling = .ok ⟨-23, -1⟩ := by rfl

/-- The exponent of a power of ten may be the least word, whose opposite is none. -/
theorem divideAtScale_overflows :
    IsWord ((-1 : Int64).toInt + (1 : Decimal).scale.toInt) ∧
      IsWord (quotientExponent ⟨1, 9223372036854775807⟩ 1 (-1)) ∧ (1 : Decimal).value ≠ 0 ∧
      largestExponent < |quotientExponent ⟨1, 9223372036854775807⟩ 1 (-1)| ∧
      divideAtScale ⟨1, 9223372036854775807⟩ 1 (-1) .halfEven = .error .overflow := by
  have one : (1 : Decimal).value ≠ 0 := mt value_eq_zero_iff.mp (by decide)
  exact ⟨by decide, by decide, one, by decide, divideAtScale_of_not_fits .halfEven one (by decide)⟩

end Decimal
end DecimalCalculator
