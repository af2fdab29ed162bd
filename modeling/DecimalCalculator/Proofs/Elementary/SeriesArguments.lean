/-
The arguments that sums of odd powers are computed for.

They are reciprocals of integers, the ratio that belongs to a logarithm after its halvings, and the
tangent of a quarter of an angle.  None of them exceeds one third, and each is written at the scale
of its sum, so that every sum that is asked for converges.
-/

import Mathlib
import DecimalCalculator.Proofs.Elementary.HalfAngle
import DecimalCalculator.Proofs.Elementary.Logarithm
import DecimalCalculator.Proofs.Elementary.SeriesCalls
import DecimalCalculator.Proofs.Elementary.SeriesLimits

namespace DecimalCalculator

open Decimal

/-! ### Calls that converge -/

/-- A call for a sum of an argument of at most one third that is written at the scale of the sum. -/
structure SeriesCall.Converges (call : SeriesCall) : Prop where
  positive : 1 ≤ call.scale.toInt
  few : call.scale.toInt ≤ largestExponent
  written : call.argument.scale = call.scale
  small : |call.argument.value| ≤ 1 / 3

namespace SeriesCall

variable {signs : Series.Signs} {argument : Decimal} {scale : Int64}

theorem Converges.word_double {call : SeriesCall} (converges : call.Converges) :
    IsWord (2 * call.scale.toInt) := by
  have room : largestExponent < 2 ^ 32 := by decide
  obtain ⟨positive, few, -, -⟩ := converges
  exact ⟨by omega, by omega⟩

theorem Converges.isWithinLimits {call : SeriesCall} (converges : call.Converges) :
    Series.IsWithinLimits call.argument call.scale := by
  obtain ⟨positive, few, written, -⟩ := converges
  exact ⟨Or.inl few, Or.inl (by rw [written]; omega)⟩

theorem converges_of_le_quarter {value : ℚ} (positive : 1 ≤ scale.toInt)
    (few : |scale.toInt| ≤ largestExponent) (small : |value| ≤ 1 / 4) :
    Converges ⟨signs, ⟨RoundingMode.halfEven.round (value * 10 ^ scale.toInt), scale⟩, scale⟩ := by
  have written := (le_abs_self _).trans few
  have unit := IsFractionalScale.lastUnit_le ⟨positive, written⟩
  have near := abs_sub_round_mul_le value scale
  have triangle := abs_sub_abs_le_abs_sub
    (⟨RoundingMode.halfEven.round (value * 10 ^ scale.toInt), scale⟩ : Decimal).value value
  rw [abs_sub_comm] at triangle
  exact ⟨positive, written, rfl, by linarith⟩

theorem converges_of_reciprocal {integer : Nat} (positive : 1 ≤ scale.toInt) (least : 3 ≤ integer)
    (divided : divideAtScale 1 (ofInt integer) scale .halfEven = .ok argument) :
    Converges ⟨signs, argument, scale⟩ := by
  have exponent : quotientExponent 1 (ofInt integer) scale = scale.toInt := by
    change scale.toInt + 0 - 0 = scale.toInt
    omega
  obtain ⟨-, -, near, rfl⟩ := divideAtScale_eq_ok_iff.mp divided
  rw [exponent] at near
  rw [value_one, value_ofInt, Int.cast_natCast]
  have written := (le_abs_self _).trans near
  by_cases third : integer = 3
  · rw [third]
    exact ⟨positive, written, rfl, Elementary.abs_third_le ⟨positive, written⟩ rfl
      (by exact_mod_cast abs_sub_round_mul_le (1 / 3) scale)⟩
  · have more : (4 : ℚ) ≤ integer := by exact_mod_cast (by omega : 4 ≤ integer)
    apply converges_of_le_quarter positive near
    rw [abs_of_pos (by positivity)]
    exact one_div_le_one_div_of_le (by norm_num) more

theorem converges_of_ratio {number : ℚ} {factor ratio : Decimal} {halvings : Nat} {decade : Int}
    (positive : 1 ≤ scale.toInt) (parts : Elementary.HasParts number factor halvings decade)
    (divided : (factor - 1).divideAtScale (factor + 1) scale .halfEven = .ok ratio) :
    Converges ⟨.positive, ratio, scale⟩ := by
  have exponent : quotientExponent (factor - 1) (factor + 1) scale = scale.toInt := by
    rw [quotientExponent]
    exact add_sub_cancel_right _ _
  obtain ⟨-, -, near, rfl⟩ := divideAtScale_eq_ok_iff.mp divided
  rw [exponent] at near
  rw [parts.value_sub_one, parts.value_add_one]
  exact converges_of_le_quarter positive near (parts.abs_ratio_le.trans (by norm_num))

theorem converges_of_quarter {tangent halved quartered : Decimal} (positive : 1 ≤ scale.toInt)
    (small : |tangent.value| ≤ 1)
    (first : Elementary.halfAngleTangent tangent scale = .ok halved)
    (second : Elementary.halfAngleTangent halved scale = .ok quartered) :
    Converges ⟨signs, quartered, scale⟩ where
  positive := positive
  few := Elementary.scale_le_of_halved (zero_le_one.trans positive)
    (Elementary.scale_of_halfAngleTangent first) second
  written := Elementary.scale_of_halfAngleTangent second
  small := Elementary.abs_halved_twice_le positive small first second

end SeriesCall

/-! ### Tangents and scales -/

section Tangents

variable {size reciprocal : Decimal} {scale : Int64}

theorem abs_value_le_one (comparable : Comparable 1 size.abs) (small : ¬1 < size.abs) :
    |size.abs.value| ≤ 1 := by
  rw [lt_iff_value_lt comparable, value_one, not_lt, value_abs] at small
  rw [value_abs, abs_abs]
  exact small

theorem abs_reciprocal_le_one (positive : 1 ≤ scale.toInt) (comparable : Comparable 1 size.abs)
    (large : 1 < size.abs) (divided : divideAtScale 1 size.abs scale .halfEven = .ok reciprocal) :
    |reciprocal.value| ≤ 1 := by
  rw [lt_iff_value_lt comparable, value_one] at large
  obtain ⟨-, -, -, rfl⟩ := divideAtScale_eq_ok_iff.mp divided
  obtain ⟨places, digits⟩ := Int.eq_ofNat_of_zero_le (show 0 ≤ scale.toInt by omega)
  have unit : (0 : ℚ) < 10 ^ scale.toInt := zpow_pos (by norm_num) _
  have whole : ((10 ^ places : Nat) : ℚ) = 10 ^ scale.toInt := by
    rw [digits, zpow_natCast]
    norm_cast
  have quotient : |value 1 / size.abs.value * 10 ^ scale.toInt| ≤ (10 ^ places : Nat) := by
    rw [whole, value_one, abs_mul, abs_of_pos unit, abs_of_pos (by positivity)]
    exact mul_le_of_le_one_left unit.le (div_le_one_of_le₀ large.le (by linarith))
  have rounded := RoundingMode.abs_round_le quotient
  change |(RoundingMode.halfEven.round _ : ℚ) / 10 ^ scale.toInt| ≤ 1
  rw [abs_div, abs_of_pos unit, div_le_one unit]
  refine (?_ : |(RoundingMode.halfEven.round _ : ℚ)| ≤ (10 ^ places : Nat)).trans_eq whole
  rw [← Int.cast_abs, ← Int.cast_natCast]
  exact Int.cast_le.mpr rounded

theorem Precision.one_le_seriesScale {precision : Precision} (guards : precision.Guards) :
    1 ≤ precision.seriesScale.toInt := by
  rw [Elementary.toInt_seriesScale guards]
  omega

theorem Precision.one_le_scaleNear {precision : Precision}
    (found : precision.scaleNear size = .ok scale) : 1 ≤ scale.toInt := by
  obtain ⟨-, -, -, places⟩ := Precision.scaleNear_eq_ok_iff.mp found
  omega

end Tangents

/-! ### Computations all of whose calls have a property -/

namespace Recorded

variable {α β : Type} {property : SeriesCall → Prop}

def Asks (property : SeriesCall → Prop) (computed : Recorded α) : Prop :=
  ∀ call ∈ computed.calls, property call

theorem asks_pure (result : α) : Asks property (pure result) := by
  intro call listed
  cases listed

theorem asks_lift (outcome : Outcome α) : Asks property (liftM outcome) := by
  intro call listed
  cases listed

theorem asks_oddPowers {signs : Series.Signs} {argument : Decimal} {scale : Int64}
    (convergent : property ⟨signs, argument, scale⟩) :
    Asks property (oddPowers signs argument scale) := by
  intro call listed
  rw [List.mem_singleton.mp listed]
  exact convergent

theorem Asks.bind {computed : Recorded α} {next : α → Recorded β} (asks : Asks property computed)
    (later : ∀ result, computed.outcome = .ok result → Asks property (next result)) :
    Asks property (computed >>= next) := by
  intro call listed
  rcases List.mem_append.mp listed with first | second
  · exact asks call first
  · cases ended : computed.outcome with
    | error fault =>
        rw [ended] at second
        cases second
    | ok result =>
        rw [ended] at second
        exact later result ended call second

theorem asks_lift_bind {outcome : Outcome α} {next : α → Recorded β}
    (later : ∀ result, outcome = .ok result → Asks property (next result)) :
    Asks property (liftM outcome >>= next) :=
  (asks_lift outcome).bind later

theorem asks_fail_bind (fault : EvaluationError) (next : α → Recorded β) :
    Asks property (fail fault >>= next) := by
  intro call listed
  cases listed

theorem Asks.ite {condition : Prop} [Decidable condition] {first second : Recorded α}
    (yes : condition → Asks property first) (no : ¬condition → Asks property second) :
    Asks property (if condition then first else second) := by
  split
  · exact yes ‹_›
  · exact no ‹_›

theorem asks_check {condition : Prop} [Decidable condition] {fault : EvaluationError}
    {next : α → Recorded β} {rest : Recorded β} (passed : ¬condition → Asks property rest) :
    Asks property (if condition then fail fault >>= next else rest) :=
  Asks.ite (fun _ => asks_fail_bind fault next) passed

/-! ### Pi and the trigonometric functions -/

variable {argument tangent sine : Decimal} {scale : Int64} {precision : Precision}

theorem asks_requireWords_bind {words : Prop} [Decidable words] {next : Recorded β}
    (later : words → Asks property next) :
    Asks property (liftM (requireWords words) >>= fun _ => next) :=
  asks_lift_bind fun _ passed => later (unlessOverflow_eq_ok_iff.mp passed).1

theorem asks_guarded {next : Recorded β}
    (later : 1 ≤ precision.seriesScale.toInt → Asks property next) :
    Asks property (liftM (requireWords precision.Guards) >>= fun _ => next) :=
  asks_requireWords_bind fun guards => later (Precision.one_le_seriesScale guards)

theorem asks_piAtScale (positive : 1 ≤ scale.toInt) :
    Asks SeriesCall.Converges (piAtScale scale) := by
  rw [piAtScale]
  apply asks_requireWords_bind
  intro word
  have inner : (scale + 5).toInt = scale.toInt + 5 := toInt_add_of_isWord word
  apply asks_lift_bind
  intro fifth divided
  apply asks_lift_bind
  intro small divided'
  apply (asks_oddPowers (SeriesCall.converges_of_reciprocal (by omega) (by decide) divided)).bind
  intro first summed
  apply (asks_oddPowers (SeriesCall.converges_of_reciprocal (by omega) (by decide) divided')).bind
  intro second summed'
  exact asks_pure _

theorem asks_pi (precision : Precision) : Asks SeriesCall.Converges (pi precision) := by
  rw [pi]
  apply asks_guarded
  intro positive
  exact (asks_piAtScale positive).bind fun _ _ => asks_pure _

theorem asks_reducedAngle (positive : 1 ≤ scale.toInt) (angle : Decimal) :
    Asks SeriesCall.Converges (reducedAngle angle scale) := by
  rw [reducedAngle]
  apply asks_requireWords_bind
  intro comparable
  apply Asks.ite
  · intro small
    exact asks_lift _
  · intro large
    apply asks_lift_bind
    intro leading first
    apply asks_lift_bind
    intro inner placed
    have places := (Checked.word_eq_ok_iff.mp placed).2
    apply (asks_piAtScale (by omega)).bind
    intro half known
    apply asks_lift_bind
    intro turns divided
    apply asks_lift_bind
    intro rest taken
    exact asks_lift _

theorem asks_sinAtScale (positive : 1 ≤ scale.toInt) (angle : Decimal) :
    Asks SeriesCall.Converges (sinAtScale angle scale) :=
  (asks_reducedAngle positive angle).bind fun _ _ => asks_lift _

theorem asks_cosAtScale (positive : 1 ≤ scale.toInt) (angle : Decimal) :
    Asks SeriesCall.Converges (cosAtScale angle scale) :=
  (asks_reducedAngle positive angle).bind fun _ _ => asks_lift _

/-! ### Logarithms -/

theorem asks_doubledArtanhOfReciprocal {integer : Nat} (least : 3 ≤ integer)
    (positive : 1 ≤ scale.toInt) :
    Asks SeriesCall.Converges (doubledArtanhOfReciprocal (ofInt integer) scale) := by
  rw [doubledArtanhOfReciprocal]
  apply asks_lift_bind
  intro reciprocal divided
  apply (asks_oddPowers (SeriesCall.converges_of_reciprocal positive least divided)).bind
  intro sum summed
  exact asks_pure _

theorem asks_lnOfTwo (positive : 1 ≤ scale.toInt) :
    Asks SeriesCall.Converges (lnOfTwo scale) :=
  asks_doubledArtanhOfReciprocal (le_refl 3) positive

theorem asks_lnOfTen (positive : 1 ≤ scale.toInt) :
    Asks SeriesCall.Converges (lnOfTen scale) := by
  rw [lnOfTen]
  apply (asks_lnOfTwo positive).bind
  intro two known
  apply (asks_doubledArtanhOfReciprocal (show 3 ≤ 9 by decide) positive).bind
  intro rest known'
  exact asks_pure _

theorem asks_lnOfDecade (positive : 1 ≤ scale.toInt) (decade : Int64) (rest : Decimal)
    (precision : Precision) :
    Asks SeriesCall.Converges (if decade ≠ 0 then do
        let ten ← lnOfTen scale
        pure ((rest + ofInt decade.toInt * ten).roundToPrecision precision)
      else pure (rest.roundToPrecision precision)) := by
  apply Asks.ite
  · intro some
    exact (asks_lnOfTen positive).bind fun _ _ => asks_pure _
  · intro none
    exact asks_pure _

theorem asks_ln (few : argument.digitCount < 2 ^ 61) (precision : Precision) :
    Asks SeriesCall.Converges (ln argument precision) := by
  rw [ln]
  apply Asks.ite
  · intro nonpos
    exact asks_lift _
  · intro positive
    have above := not_le.mp (mt sign_le_zero_iff.mpr positive)
    apply asks_lift_bind
    intro isOne compared
    apply Asks.ite
    · intro one
      exact asks_pure _
    · intro other
      apply asks_lift_bind
      intro decade first
      apply asks_lift_bind
      intro scale placed
      have behind := Precision.one_le_scaleNear placed
      apply asks_lift_bind
      rintro ⟨factor, halvings⟩ halved
      obtain ⟨-, rfl⟩ := unlessOverflow_eq_ok_iff.mp (Checked.leadingExponent_eq _ ▸ first)
      obtain ⟨-, halved⟩ := unlessOverflow_eq_ok_iff.mp halved
      have parts := Elementary.hasParts few above
      rw [Elementary.mantissa, halved] at parts
      apply asks_lift_bind
      intro ratio divided
      apply (asks_oddPowers (SeriesCall.converges_of_ratio behind parts divided)).bind
      intro sum summed
      apply Asks.ite
      · intro some
        exact (asks_lnOfTwo behind).bind fun _ _ => asks_lnOfDecade behind _ _ precision
      · intro none
        exact asks_lnOfDecade behind _ _ precision

theorem asks_logToBase {base : Decimal} (few : argument.digitCount < 2 ^ 61)
    (few' : base.digitCount < 2 ^ 61) (precision : Precision) :
    Asks SeriesCall.Converges (logToBase argument base precision) := by
  rw [logToBase]
  apply Asks.ite
  · intro nonpos
    exact asks_lift _
  · intro positive
    apply asks_requireWords_bind
    intro guards
    apply (asks_ln few _).bind
    intro lnArgument known
    apply (asks_ln few' _).bind
    intro lnBase known'
    exact asks_lift _

theorem asks_rootOfDegree (few : argument.digitCount < 2 ^ 61) (degree : Decimal)
    (precision : Precision) :
    Asks SeriesCall.Converges (rootOfDegree argument degree precision) := by
  rw [rootOfDegree]
  apply asks_check
  intro some
  apply Asks.ite
  · intro zero
    exact asks_pure _
  · intro nonzero
    apply asks_lift_bind
    intro word known
    cases word with
    | some integerDegree =>
        apply asks_lift_bind
        intro result rooted
        apply Asks.ite
        · intro negative
          exact asks_lift _
        · intro positive
          exact asks_pure _
    | none =>
        apply asks_requireWords_bind
        intro guards
        apply (asks_ln few _).bind
        intro logarithm reached
        apply asks_lift_bind
        intro quotient divided
        exact asks_lift _

/-! ### Inverse trigonometric functions -/

/-- A quarter of the angle of a tangent of at most one has a small tangent. -/
theorem asks_atanOfUnit (positive : 1 ≤ scale.toInt) (small : |tangent.value| ≤ 1) :
    Asks SeriesCall.Converges (atanOfUnit tangent scale) := by
  rw [atanOfUnit]
  apply asks_lift_bind
  intro halved first
  apply asks_lift_bind
  intro quartered second
  apply (asks_oddPowers (SeriesCall.converges_of_quarter positive small first second)).bind
  intro sum summed
  exact asks_pure _

theorem asks_rightAngle (positive : 1 ≤ scale.toInt) :
    Asks SeriesCall.Converges (rightAngle scale) :=
  (asks_piAtScale positive).bind fun _ _ => asks_pure _

theorem asks_atanAtScale (positive : 1 ≤ scale.toInt) (tangent : Decimal) :
    Asks SeriesCall.Converges (atanAtScale tangent scale) := by
  rw [atanAtScale]
  apply Asks.ite
  · intro zero
    exact asks_pure _
  · intro some
    apply asks_requireWords_bind
    intro comparable
    apply Asks.ite
    · intro large
      apply asks_lift_bind
      intro reciprocal divided
      apply (asks_rightAngle positive).bind
      intro right known
      apply (asks_atanOfUnit positive
        (abs_reciprocal_le_one positive comparable large divided)).bind
      intro angle known'
      exact asks_pure _
    · intro small
      apply (asks_atanOfUnit positive (abs_value_le_one comparable small)).bind
      intro angle known
      exact asks_pure _

theorem asks_asinAtScale (positive : 1 ≤ scale.toInt) (sine : Decimal) :
    Asks SeriesCall.Converges (asinAtScale sine scale) := by
  rw [asinAtScale]
  apply asks_requireWords_bind
  intro comparable
  apply asks_check
  intro small
  apply Asks.ite
  · intro one
    apply (asks_rightAngle positive).bind
    intro right known
    exact asks_pure _
  · intro other
    apply asks_lift_bind
    intro square squared
    apply asks_lift_bind
    intro rest taken
    apply asks_lift_bind
    intro cosine rooted
    apply asks_lift_bind
    intro tangent divided
    apply (asks_atanAtScale positive tangent).bind
    intro angle known
    exact asks_pure _

theorem asks_asin (sine : Decimal) (precision : Precision) :
    Asks SeriesCall.Converges (asin sine precision) := by
  rw [asin]
  apply asks_lift_bind
  intro scale placed
  exact (asks_asinAtScale (Precision.one_le_scaleNear placed) sine).bind fun _ _ => asks_pure _

theorem asks_acos (cosine : Decimal) (precision : Precision) :
    Asks SeriesCall.Converges (acos cosine precision) := by
  rw [acos]
  apply asks_guarded
  intro positive
  apply (asks_rightAngle positive).bind
  intro right known
  apply (asks_asinAtScale positive cosine).bind
  intro angle known'
  exact asks_pure _

theorem asks_halfTurn (unit : AngleUnit) (precision : Precision) :
    Asks SeriesCall.Converges (halfTurn unit precision) := by
  cases unit with
  | degrees => exact asks_pure _
  | radians => exact asks_requireWords_bind fun _ => asks_pi _
  | gradians => exact asks_pure _

end Recorded

/-! ### Functions of the calculator -/

namespace SeriesFunction

/-- The digits of the numbers whose logarithm is taken are counted by a word, with room for the
halvings. -/
def HasCountedDigits : SeriesFunction → Prop
  | ln argument => argument.digitCount < 2 ^ 61
  | logToBase argument base => argument.digitCount < 2 ^ 61 ∧ base.digitCount < 2 ^ 61
  | log10 argument => argument.digitCount < 2 ^ 61
  | rootOfDegree radicand _ => radicand.digitCount < 2 ^ 61
  | _ => True

theorem asks_record (function : SeriesFunction) (counted : function.HasCountedDigits)
    (precision : Precision) : (function.record precision).Asks SeriesCall.Converges := by
  cases function with
  | pi => exact Recorded.asks_pi precision
  | ln argument => exact Recorded.asks_ln counted precision
  | logToBase argument base => exact Recorded.asks_logToBase counted.1 counted.2 precision
  | log10 argument => exact Recorded.asks_logToBase counted (by decide) precision
  | rootOfDegree radicand degree => exact Recorded.asks_rootOfDegree counted degree precision
  | sin angle =>
      apply Recorded.asks_guarded
      intro positive
      exact (Recorded.asks_sinAtScale positive angle).bind fun _ _ => Recorded.asks_pure _
  | cos angle =>
      apply Recorded.asks_guarded
      intro positive
      exact (Recorded.asks_cosAtScale positive angle).bind fun _ _ => Recorded.asks_pure _
  | tan angle =>
      apply Recorded.asks_guarded
      intro positive
      apply (Recorded.asks_cosAtScale positive angle).bind
      intro cosine known
      apply Recorded.asks_check
      intro regular
      exact (Recorded.asks_sinAtScale positive angle).bind fun _ _ => Recorded.asks_lift _
  | cot angle =>
      apply Recorded.asks_guarded
      intro positive
      apply (Recorded.asks_sinAtScale positive angle).bind
      intro sine known
      apply Recorded.asks_check
      intro regular
      exact (Recorded.asks_cosAtScale positive angle).bind fun _ _ => Recorded.asks_lift _
  | sec angle =>
      apply Recorded.asks_guarded
      intro positive
      apply (Recorded.asks_cosAtScale positive angle).bind
      intro cosine known
      apply Recorded.asks_check
      intro regular
      exact Recorded.asks_lift _
  | csc angle =>
      apply Recorded.asks_guarded
      intro positive
      apply (Recorded.asks_sinAtScale positive angle).bind
      intro sine known
      apply Recorded.asks_check
      intro regular
      exact Recorded.asks_lift _
  | atan tangent =>
      apply Recorded.asks_lift_bind
      intro scale placed
      exact (Recorded.asks_atanAtScale (Precision.one_le_scaleNear placed) tangent).bind
        fun _ _ => Recorded.asks_pure _
  | acot cotangent =>
      apply Recorded.asks_guarded
      intro positive
      apply (Recorded.asks_rightAngle positive).bind
      intro right known
      exact (Recorded.asks_atanAtScale positive cotangent).bind fun _ _ => Recorded.asks_pure _
  | asin sine => exact Recorded.asks_asin sine precision
  | acos cosine => exact Recorded.asks_acos cosine precision
  | asec secant =>
      apply Recorded.asks_lift_bind
      intro cosine divided
      exact Recorded.asks_acos cosine precision
  | acsc cosecant =>
      apply Recorded.asks_lift_bind
      intro sine divided
      exact Recorded.asks_asin sine precision
  | convert source target angle =>
      apply Recorded.Asks.ite
      · intro same
        exact Recorded.asks_pure _
      · intro different
        apply (Recorded.asks_halfTurn target precision).bind
        intro turn known
        apply Recorded.asks_lift_bind
        intro scaled multiplied
        apply (Recorded.asks_halfTurn source precision).bind
        intro turn' known'
        exact Recorded.asks_lift _

end SeriesFunction

/-! ### Convergence -/

namespace Series

/-- A sum of odd powers of an argument of at most one third is broken off exactly if twice its
scale or twice that of the argument is no word.  Any other one ends in at most two steps for every
digit after the point and two more, and if the powers of ten in its roundings may be written out, it
is off by a few units from every late partial sum.  The sums that the functions of the calculator
ask for are all of this last kind. -/
theorem oddPowers_converges :
    (∀ (signs : Signs) (argument : Decimal) (scale : Int64), 1 ≤ scale.toInt →
      |argument.value| ≤ 1 / 3 →
        (oddPowers signs argument scale = .error .overflow ↔
          ¬(IsWord (2 * argument.scale.toInt) ∧ IsWord (2 * scale.toInt))) ∧
        (IsWord (2 * argument.scale.toInt) → IsWord (2 * scale.toInt) → ∃ result,
          oddPowersWithin (2 * scale.toInt + 2).toNat signs argument scale = some (.ok result) ∧
          oddPowers signs argument scale = .ok result ∧ result.scale = scale ∧
          (IsWithinLimits argument scale → ∀ last : Nat, 2 * scale.toInt + 2 ≤ last →
            |result.value - oddSum signs argument.value (last + 1)| ≤
              (2 * scale.toInt + 5) * lastUnit scale))) ∧
      ∀ (function : SeriesFunction) (precision : Precision), function.HasCountedDigits →
        (function.record precision).outcome = function.evaluate precision ∧
          ∀ call ∈ (function.record precision).calls, 1 ≤ call.scale.toInt ∧
            |call.argument.value| ≤ 1 / 3 ∧ IsWord (2 * call.argument.scale.toInt) ∧
              IsWord (2 * call.scale.toInt) ∧ IsWithinLimits call.argument call.scale := by
  constructor
  · intro signs argument scale positive small
    constructor
    · refine ⟨?_, fun breaks => oddPowers_eq_overflow positive small breaks signs⟩
      rintro broken ⟨begun, word⟩
      obtain ⟨result, reached, -⟩ := exists_oddPowersWithin_eq_ok positive begun word small signs
      rw [broken] at reached
      cases reached
    · intro begun word
      obtain ⟨result, reached, counted, written, near⟩ :=
        exists_oddPowersWithin_eq_ok positive begun word small signs
      have unit := lastUnit_pos scale
      refine ⟨result, counted _ (by omega), reached, written, fun limits last later => ?_⟩
      have close := (near limits (last + 1) (by omega)).near
      rw [abs_sub_comm]
      exact close.trans (by nlinarith)
  · intro function precision counted
    refine ⟨function.outcome_record precision, fun call listed => ?_⟩
    have converges := function.asks_record counted precision call listed
    have word := converges.word_double
    exact ⟨converges.positive, converges.small, converges.written ▸ word, word,
      converges.isWithinLimits⟩

theorem oddPowers_converges_fifth :
    (oddPowersWithin 8 .alternating ⟨2, 1⟩ 3 = some (.ok ⟨197, 3⟩) ∧
      ∀ last : Nat, 8 ≤ last →
        |(⟨197, 3⟩ : Decimal).value - oddSum .alternating (⟨2, 1⟩ : Decimal).value (last + 1)| ≤
          11 * lastUnit 3) ∧
      (SeriesFunction.record 10 (.ln 3)).calls.head? =
        some ⟨.positive, ⟨20000000000000000000, 20⟩, 20⟩ ∧
      |(⟨20000000000000000000, 20⟩ : Decimal).value| ≤ 1 / 3 := by
  have small : |(⟨2, 1⟩ : Decimal).value| ≤ 1 / 3 := by
    change |((2 : Int) : ℚ) / 10 ^ (1 : Int)| ≤ 1 / 3
    norm_num [abs_of_pos]
  have limits : IsWithinLimits ⟨2, 1⟩ 3 :=
    ⟨Or.inl (by decide), Or.inl (by decide)⟩
  have computed : oddPowersWithin 8 .alternating ⟨2, 1⟩ 3 = some (.ok ⟨197, 3⟩) := by
    decide +kernel
  have listed : (SeriesFunction.record 10 (.ln 3)).calls.head? =
      some ⟨.positive, ⟨20000000000000000000, 20⟩, 20⟩ := by
    decide +kernel
  have digits : SeriesFunction.HasCountedDigits (.ln 3) :=
    show digitCount 3 < 2 ^ 61 by decide
  obtain ⟨-, ends⟩ := oddPowers_converges.1 .alternating ⟨2, 1⟩ 3 (by decide) small
  obtain ⟨result, counted, -, -, near⟩ := ends (by decide) (by decide)
  have same : result = ⟨197, 3⟩ := by
    have twice := counted.symm.trans computed
    exact Except.ok.inj (Option.some.inj twice)
  obtain ⟨-, calls⟩ := oddPowers_converges.2 (.ln 3) 10 digits
  have three : (3 : Int64).toInt = 3 := by decide
  refine ⟨⟨computed, fun last later => ?_⟩, listed, (calls _ (List.mem_of_head? listed)).2.1⟩
  have close := near limits last (by omega)
  rw [same, three] at close
  exact close.trans_eq (by norm_num)

theorem value_three_tenths : (⟨3, 1⟩ : Decimal).value = 3 / 10 := by
  change ((3 : Int) : ℚ) / 10 ^ (1 : Int) = _
  norm_num

theorem oddPowers_three_tenths : oddPowers .alternating ⟨3, 1⟩ 4294967296 =
    .ok ((⟨3, 1⟩ : Decimal).setScale 4294967296 .halfEven) := by
  have small : |(⟨3, 1⟩ : Decimal).value| ≤ 1 / 3 := by
    rw [value_three_tenths]
    norm_num [abs_of_pos]
  have word : IsWord (2 * (4294967296 : Int64).toInt) := by decide
  have lost : (roundedCube ⟨3, 1⟩ 4294967296).isZero = true :=
    isZero_roundedCube_of_far word (by decide)
  exact (endsWithin_of_lost (by decide) small (by decide) word .alternating lost).1

theorem oddSum_three_tenths_lt {count : Nat} (late : 2 ≤ count) :
    oddSum .alternating (3 / 10) count < 292 / 1000 := by
  have small : |(3 / 10 : ℚ)| ≤ 1 / 3 := by norm_num [abs_of_pos]
  have near := abs_oddSum_sub_le .alternating small late
  have two : oddSum .alternating (3 / 10) 2 = 291 / 1000 := by
    rw [oddSum, Finset.sum_range_succ, Finset.sum_range_one, oddTerm, oddTerm]
    norm_num
  have third : |oddTerm .alternating (3 / 10) 2| = 486 / 1000000 := by
    rw [abs_oddTerm]
    norm_num [abs_of_pos]
  have rest := abs_nonneg (oddTerm .alternating (3 / 10) count)
  rw [two, third] at near
  have above := le_abs_self (oddSum .alternating (3 / 10) count - 291 / 1000)
  linarith

/-- At the scale `2 ^ 32` the first power of 0.3 is taken for zero, and twice the scale of
`10 ^ -(2 ^ 62)` is no word. -/
theorem oddPowers_beyond_limits :
    (|(⟨3, 1⟩ : Decimal).value| ≤ 1 / 3 ∧
      ∃ result, oddPowers .alternating ⟨3, 1⟩ 4294967296 = .ok result ∧
        ¬∀ last : Nat, 2 * (4294967296 : Int64).toInt + 2 ≤ last →
          |result.value - oddSum .alternating (⟨3, 1⟩ : Decimal).value (last + 1)| ≤
            (2 * (4294967296 : Int64).toInt + 5) * lastUnit 4294967296) ∧
      |(⟨1, 4611686018427387904⟩ : Decimal).value| ≤ 1 / 3 ∧
        oddPowers .positive ⟨1, 4611686018427387904⟩ 1 = .error .overflow := by
  have tiny : |(⟨1, 4611686018427387904⟩ : Decimal).value| ≤ 1 / 3 := by
    have unit : |(⟨1, 4611686018427387904⟩ : Decimal).value| = lastUnit 4611686018427387904 := by
      rw [abs_value_of_scale rfl, Int.natAbs_one, Nat.cast_one, one_mul]
    have small := lastUnit_le_one_div_pow (show (1 : Nat) ≤ (4611686018427387904 : Int64).toInt by
      decide)
    rw [unit]
    linarith
  refine ⟨⟨?_, _, oddPowers_three_tenths, fun near => ?_⟩, tiny,
    oddPowers_eq_overflow (by decide) tiny (by decide) .positive⟩
  · rw [value_three_tenths]
    norm_num [abs_of_pos]
  · have kept : ((⟨3, 1⟩ : Decimal).setScale 4294967296 .halfEven).value = 3 / 10 := by
      have finer : (⟨3, 1⟩ : Decimal).scale ≤ 4294967296 := show (1 : Int64) ≤ _ by decide
      have unit : (10 : ℚ) ^ (4294967296 : Int64).toInt ≠ 0 := zpow_ne_zero _ (by norm_num)
      rw [setScale, if_pos finer, value, alignedTo_eq finer (Or.inr (by decide)),
        mul_div_cancel_right₀ _ unit, value_three_tenths]
    have unit := lastUnit_le_one_div_pow (show (20 : Nat) ≤ (4294967296 : Int64).toInt by decide)
    have below := oddSum_three_tenths_lt (show 2 ≤ 8589934594 + 1 by decide)
    have close := near 8589934594 (by decide)
    have scale : (4294967296 : Int64).toInt = 4294967296 := by decide
    rw [kept, value_three_tenths, scale] at close
    have apart := le_abs_self (3 / 10 - oddSum .alternating (3 / 10) (8589934594 + 1))
    have bound : (2 * (4294967296 : Int) + 5) * lastUnit 4294967296 ≤
        (2 * (4294967296 : Int) + 5) * (1 / 10 ^ 20 : ℚ) := by
      refine mul_le_mul_of_nonneg_left unit ?_
      norm_num
    have tiny : (2 * (4294967296 : Int) + 5) * (1 / 10 ^ 20 : ℚ) < 1 / 1000 := by norm_num
    linarith

end Series
end DecimalCalculator
