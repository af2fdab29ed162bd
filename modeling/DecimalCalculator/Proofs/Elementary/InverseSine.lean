/-
The domain of the inverse sine and cosine.

Every step of the inverse tangent succeeds at a scale whose powers of ten can be written
out.  The inverse sine divides by a root of `1 - x ^ 2` that is truncated at a scale, and
that root is zero for a number that is close enough to 1: the quotient is refused, although
the number is inside the domain.
-/

import Mathlib
import DecimalCalculator.Proofs.Elementary.Angle
import DecimalCalculator.Proofs.Elementary.ArctangentSeries
import DecimalCalculator.Proofs.Elementary.Root

namespace DecimalCalculator

open Decimal

/-! ### Sums of odd powers -/

namespace Series

section Words

variable {scale : Int64} (nonneg : 0 ≤ scale.toInt) (word : IsWord (2 * scale.toInt))
include nonneg word

theorem exists_oddPowersAfter (signs : Signs) {square power : Decimal}
    (squared : square.scale = scale) (written : power.scale = scale) (index : Nat) (sum : Decimal) :
    ∃ result, oddPowersAfter signs scale square index power sum = .ok result := by
  induction size : power.unscaled.natAbs using Nat.strong_induction_on
    generalizing index power sum with
  | _ size ih =>
      have computed := productAt_eq_of_scale nonneg word written squared
      rw [oddPowersAfter, computed]
      have places : ((power * square).setScale scale .halfEven).scale = scale :=
        scale_setScale _ _ _
      generalize (power * square).setScale scale .halfEven = higher at places
      have divisor : (ofInt (2 * index + 1)).value ≠ 0 := by
        rw [value_ofInt]
        exact_mod_cast (by omega : (2 * index + 1 : Int) ≠ 0)
      have unmoved : quotientExponent higher (ofInt (2 * index + 1)) scale = 0 := by
        rw [quotientExponent, places]
        change scale.toInt + 0 - scale.toInt = 0
        omega
      have divided := divideAtScale_eq_ok .halfEven divisor (isWord_add_scale_ofInt scale _)
        (by rw [unmoved, abs_zero]; exact Int.natCast_nonneg _)
      change ∃ result, (if higher.isZero = true then _ else _) = _
      cases higher.isZero with
      | true => exact ⟨sum, rfl⟩
      | false =>
          simp only [Bool.false_eq_true, ↓reduceIte]
          rw [divided]
          generalize Decimal.mk (RoundingMode.halfEven.round _) scale = term
          change ∃ result, (if term.isZero = true then _ else _) = _
          cases term.isZero with
          | true => exact ⟨sum, rfl⟩
          | false =>
              by_cases shrinks : higher.unscaled.natAbs < power.unscaled.natAbs
              · simp only [Bool.false_eq_true, ↓reduceIte, ↓reduceDIte, shrinks]
                exact ih _ (size ▸ shrinks) places _ _ rfl
              · simp only [Bool.false_eq_true, ↓reduceIte, ↓reduceDIte, shrinks]
                exact ⟨_, rfl⟩

theorem exists_oddPowers (signs : Signs) {argument : Decimal} (written : argument.scale = scale) :
    ∃ result, oddPowers signs argument scale = .ok result := by
  rw [(begins_of_scale nonneg word written).oddPowers_eq signs]
  exact exists_oddPowersAfter nonneg word signs (scale_setScale _ _ _) (scale_setScale _ _ _) 1 _

end Words

end Series

namespace Elementary

variable {tangent sine : Decimal} {scale : Int64} {precision : Precision}

/-! ### Steps of the inverse tangent -/

/-- A scale with room for every power of ten that the inverse functions take. -/
structure IsWorkingScale (scale : Int64) : Prop where
  nonneg : 0 ≤ scale.toInt
  small : scale.toInt ≤ 10 ^ 7

theorem IsWorkingScale.word_double (working : IsWorkingScale scale) :
    IsWord (2 * scale.toInt) := by
  obtain ⟨nonneg, small⟩ := working
  exact ⟨by omega, by omega⟩

theorem aligned_one {number : Decimal} (lower : -2 ^ 62 ≤ number.scale.toInt) :
    Aligned 1 number := by
  have upper := number.scale.toInt_lt
  have one : (1 : Decimal).scale.toInt = 0 := by decide
  refine ⟨Or.inr ?_, Or.inr ?_⟩
  · rw [toInt_commonScale, one]
    omega
  · rw [toInt_commonScale, one]
    omega

theorem toInt_scale_one_add (number : Decimal) :
    (1 + number).scale.toInt = max 0 number.scale.toInt :=
  toInt_commonScale 1 number

theorem toInt_scale_one_sub (number : Decimal) :
    (1 - number).scale.toInt = max 0 number.scale.toInt :=
  toInt_commonScale 1 number

theorem toInt_scale_square {number : Decimal} (lower : -2 ^ 62 ≤ number.scale.toInt)
    (upper : number.scale.toInt < 2 ^ 62) :
    (number * number).scale.toInt = number.scale.toInt + number.scale.toInt :=
  toInt_add_of_isWord ⟨by omega, by omega⟩

section Working

variable (working : IsWorkingScale scale)
include working

section Halving

variable (own : IsWorkingScale tangent.scale)
include own

theorem rootAtScale_hypotenuse :
    rootAtScale (1 + tangent * tangent) 2 scale =
      .ok ⟨IntegerRoot.floorRoot 2 ⌊(1 + tangent.value ^ 2) * 10 ^ (2 * scale.toInt)⌋₊, scale⟩ := by
  have room : 10 ^ 7 * 4 ≤ largestExponent := by decide
  obtain ⟨nonneg, small⟩ := working
  obtain ⟨nonneg', small'⟩ := own
  have squareScale := toInt_scale_square (show -2 ^ 62 ≤ tangent.scale.toInt by omega) (by omega)
  have value : (1 + tangent * tangent).value = 1 + tangent.value ^ 2 := by
    have word : IsWord (tangent.scale.toInt + tangent.scale.toInt) := ⟨by omega, by omega⟩
    have aligned : Aligned 1 (tangent * tangent) := aligned_one (by omega)
    rw [value_add aligned, value_one, value_mul word, sq]
  have nonnegative : 0 ≤ (1 + tangent * tangent).value := by
    rw [value]
    positivity
  have near : |(2 : Nat) * scale.toInt - (1 + tangent * tangent).scale.toInt| ≤ largestExponent := by
    rw [toInt_scale_one_add, squareScale, abs_le]
    omega
  rw [rootAtScale_eq_ok nonnegative ⟨by omega, by omega⟩ near, value]
  rfl

omit working in
theorem halfAngleTangent_eq :
    halfAngleTangent tangent scale = (do
      let hypotenuse ← rootAtScale (1 + tangent * tangent) 2 scale
      tangent.divideAtScale (1 + hypotenuse) scale .halfEven) := by
  obtain ⟨nonneg, small⟩ := own
  have word : IsWord (tangent.scale.toInt + tangent.scale.toInt) := ⟨by omega, by omega⟩
  have square := toInt_scale_square (show -2 ^ 62 ≤ tangent.scale.toInt by omega) (by omega)
  rw [halfAngleTangent, Checked.mul, unlessOverflow_of word]
  change Checked.add 1 (tangent * tangent) >>= _ = _
  rw [Checked.add, unlessOverflow_of (aligned_one (by omega))]
  rfl

theorem exists_halfAngleTangent :
    ∃ halved, halfAngleTangent tangent scale = .ok halved ∧ halved.scale = scale ∧
      |tangent.value / (1 + truncatedRoot 2 scale.toInt (1 + tangent.value ^ 2)) - halved.value| ≤
        lastUnit scale / 2 := by
  have root := rootAtScale_hypotenuse working own
  have steps : halfAngleTangent tangent scale = _ := halfAngleTangent_eq own
  obtain ⟨nonneg, small⟩ := working
  obtain ⟨nonneg', small'⟩ := own
  have room : 10 ^ 7 * 4 ≤ largestExponent := by decide
  obtain ⟨hypotenuse, root, written, truncated⟩ : ∃ hypotenuse : Decimal,
      rootAtScale (1 + tangent * tangent) 2 scale = .ok hypotenuse ∧ hypotenuse.scale = scale ∧
        hypotenuse.value = truncatedRoot 2 scale.toInt (1 + tangent.value ^ 2) :=
    ⟨_, root, rfl, rfl⟩
  have sum : (1 + hypotenuse).value =
      1 + truncatedRoot 2 scale.toInt (1 + tangent.value ^ 2) := by
    have aligned : Aligned 1 hypotenuse := aligned_one (by rw [written]; omega)
    rw [value_add aligned, value_one, truncated]
  have some : (1 + hypotenuse).value ≠ 0 := by
    have size := truncatedRoot_nonneg 2 scale.toInt (1 + tangent.value ^ 2)
    rw [sum]
    linarith
  have hypotenuseScale := toInt_scale_one_add hypotenuse
  rw [written] at hypotenuseScale
  have few : |quotientExponent tangent (1 + hypotenuse) scale| ≤ largestExponent := by
    rw [quotientExponent, hypotenuseScale, abs_le]
    omega
  have divided := divideAtScale_eq_ok .halfEven some ⟨by omega, by omega⟩ few
  rw [sum] at divided
  refine ⟨_, ?_, rfl, abs_sub_round_mul_le _ scale⟩
  rw [steps, root]
  exact divided

end Halving

omit working in
theorem atanOfUnit_eq_ok {halved quartered sum : Decimal}
    (first : halfAngleTangent tangent scale = .ok halved)
    (second : halfAngleTangent halved scale = .ok quartered)
    (summed : Series.oddPowers .alternating quartered scale = .ok sum) :
    atanOfUnit tangent scale = .ok (4 * sum) := by
  rw [atanOfUnit, first]
  change halfAngleTangent halved scale >>= _ = _
  rw [second]
  change Series.oddPowers .alternating quartered scale >>= _ = _
  rw [summed]
  rfl

theorem exists_atanOfUnit (own : IsWorkingScale tangent.scale) :
    ∃ angle, atanOfUnit tangent scale = .ok angle := by
  obtain ⟨halved, first, written, -⟩ := exists_halfAngleTangent working own
  obtain ⟨quartered, second, written', -⟩ := exists_halfAngleTangent working (written ▸ working)
  obtain ⟨sum, summed⟩ := Series.exists_oddPowers working.nonneg working.word_double .alternating
    written'
  exact ⟨_, atanOfUnit_eq_ok first second summed⟩

theorem exists_piAtScale : ∃ result, piAtScale scale = .ok result := by
  have room : 10 ^ 7 + 5 ≤ largestExponent := by decide
  have small := working.small
  obtain ⟨-, fractional⟩ := isFractionalScale_add_five working.nonneg (by omega)
  have nonneg := fractional.nonneg
  have word := fractional.word_double
  obtain ⟨fifth, divided, written, -⟩ := exists_reciprocal 5 fractional (by decide)
  obtain ⟨tiny, divided', written', -⟩ := exists_reciprocal 239 fractional (by decide)
  obtain ⟨first, summed⟩ := Series.exists_oddPowers nonneg word .alternating written
  obtain ⟨second, summed'⟩ := Series.exists_oddPowers nonneg word .alternating written'
  have nonneg' := working.nonneg
  exact ⟨_, piAtScale_eq_ok ⟨by omega, by omega⟩ divided divided' summed summed'⟩

theorem exists_rightAngle : ∃ result, rightAngle scale = .ok result :=
  exists_bind_eq_ok (exists_piAtScale working) fun _ _ => ⟨_, rfl⟩

theorem exists_atanAtScale (own : IsWorkingScale tangent.scale) :
    ∃ angle, atanAtScale tangent scale = .ok angle := by
  have room : 10 ^ 7 * 2 ≤ largestExponent := by decide
  have nonneg := working.nonneg
  have small := working.small
  have nonneg' := own.nonneg
  have small' := own.small
  have comparable : Comparable 1 tangent.abs := by
    refine fun _ => aligned_one ?_
    change _ ≤ tangent.scale.toInt
    omega
  rw [atanAtScale]
  cases zero : tangent.isZero with
  | true => exact ⟨0, rfl⟩
  | false =>
      simp only [Bool.false_eq_true, ↓reduceIte, requireWords_of comparable]
      refine exists_bind_eq_ok ⟨_, rfl⟩ fun _ _ => ?_
      by_cases above : 1 < tangent.abs
      · have nonzero : tangent.abs.value ≠ 0 := by
          rw [value_abs]
          exact abs_ne_zero.mpr (isZero_eq_false_iff.mp zero)
        have few : |quotientExponent 1 tangent.abs scale| ≤ largestExponent := by
          rw [quotientExponent, abs_le]
          change -_ ≤ scale.toInt + tangent.scale.toInt - 0 ∧ scale.toInt + tangent.scale.toInt - 0 ≤ _
          omega
        have sum : IsWord (scale.toInt + tangent.abs.scale.toInt) := by
          change IsWord (scale.toInt + tangent.scale.toInt)
          exact ⟨by omega, by omega⟩
        simp only [above, ↓reduceIte]
        refine exists_bind_eq_ok ⟨_, divideAtScale_eq_ok .halfEven nonzero sum few⟩
          fun inverse found => ?_
        refine exists_bind_eq_ok (exists_rightAngle working) fun _ _ => ?_
        have written : IsWorkingScale inverse.scale := scale_of_divideAtScale found ▸ working
        exact exists_bind_eq_ok (exists_atanOfUnit working written) fun _ _ => ⟨_, rfl⟩
      · simp only [above, ↓reduceIte]
        have same : IsWorkingScale tangent.abs.scale := own
        exact exists_bind_eq_ok (exists_atanOfUnit working same) fun _ _ => ⟨_, rfl⟩

end Working

/-! ### Near the ends of the domain -/

/-- The number is closer to 1 or -1 than a scale tells: the root of `1 - x ^ 2` has no
digit at so many places behind the point. -/
def CosineVanishes (places : Int) (sine : ℚ) : Prop :=
  |sine| < 1 ∧ (1 - sine ^ 2) * 10 ^ (2 * places) < 1

theorem not_cosineVanishes_of_scale_le {places : Int} (nonneg : 0 ≤ places)
    (short : sine.scale.toInt ≤ 2 * places) : ¬CosineVanishes places sine.value := by
  rintro ⟨inside, vanishes⟩
  obtain ⟨room, places'⟩ := Int.eq_ofNat_of_zero_le (show 0 ≤ 2 * places by omega)
  obtain ⟨zeros, appended⟩ := Int.eq_ofNat_of_zero_le (show 0 ≤ room - sine.scale.toInt by omega)
  -- in units of the last place the number is an integer, so it is a whole unit away from 1
  have units : |sine.value| * 10 ^ room = (sine.unscaled.natAbs * 10 ^ zeros : Nat) := by
    have unit : (0 : ℚ) < 10 ^ sine.scale.toInt := zpow_pos (by norm_num) _
    have ten : (10 : ℚ) ^ room = 10 ^ zeros * 10 ^ sine.scale.toInt := by
      rw [← zpow_natCast, ← zpow_natCast, ← zpow_add₀ (by norm_num), ← appended, sub_add_cancel]
    rw [value, abs_div, abs_of_pos unit, ten, Nat.cast_mul, Nat.cast_natAbs]
    push_cast
    field_simp
  have power : (0 : ℚ) < 10 ^ room := pow_pos (by norm_num) _
  have below : |sine.value| * 10 ^ room < (10 ^ room : Nat) := by
    push_cast
    exact mul_lt_of_lt_one_left power inside
  rw [units, Nat.cast_lt, ← Nat.succ_le_iff, ← Nat.cast_le (α := ℚ), Nat.cast_succ, ← units] at below
  push_cast at below
  have square : 1 - sine.value ^ 2 = (1 - |sine.value|) * (1 + |sine.value|) := by
    rw [← sq_abs]
    ring
  rw [places', zpow_natCast, square] at vanishes
  nlinarith [abs_nonneg sine.value]

/-- The number below 1 that is written with so many nines behind the point. -/
def nines (count : Nat) : Decimal :=
  ⟨10 ^ count - 1, Int64.ofNat count⟩

theorem value_nines {count : Nat} (few : count < 2 ^ 63) :
    (nines count).value = 1 - 1 / 10 ^ count := by
  change ((10 ^ count - 1 : Int) : ℚ) / 10 ^ (Int64.ofNat count).toInt = _
  rw [Int64.toInt_ofNat_of_lt few, zpow_natCast]
  push_cast
  field_simp

/-- How an inverse sine or cosine that takes a root at so many places ends: the only
refusals are those of numbers outside of the domain and of numbers too close to its ends. -/
structure HasDomain (places : Int) (sine : Decimal) (outcome : Outcome Decimal) : Prop where
  outside : outcome = .error (.sineOutOfRange sine) ↔ 1 < |sine.value|
  vanishing : outcome = .error .divisionByZero ↔ CosineVanishes places sine.value
  inside : (∃ result, outcome = .ok result) ↔
    |sine.value| ≤ 1 ∧ ¬CosineVanishes places sine.value

theorem HasDomain.of_outside {places : Int} (outside : 1 < |sine.value|) :
    HasDomain places sine (.error (.sineOutOfRange sine)) := by
  have apart : ¬CosineVanishes places sine.value := fun vanishes => lt_asymm vanishes.1 outside
  refine ⟨iff_of_true rfl outside, iff_of_false ?_ apart, iff_of_false ?_ ?_⟩
  · intro impossible
    cases impossible
  · rintro ⟨result, impossible⟩
    cases impossible
  · exact fun within => not_lt.mpr within.1 outside

theorem HasDomain.of_vanishing {places : Int} (vanishes : CosineVanishes places sine.value) :
    HasDomain places sine (.error .divisionByZero) := by
  refine ⟨iff_of_false ?_ (lt_asymm vanishes.1), iff_of_true rfl vanishes, iff_of_false ?_ ?_⟩
  · intro impossible
    cases impossible
  · rintro ⟨result, impossible⟩
    cases impossible
  · exact fun within => within.2 vanishes

theorem HasDomain.of_inside {places : Int} {outcome : Outcome Decimal}
    (succeeds : ∃ result, outcome = .ok result) (within : |sine.value| ≤ 1)
    (apart : ¬CosineVanishes places sine.value) : HasDomain places sine outcome := by
  obtain ⟨result, rfl⟩ := succeeds
  refine ⟨iff_of_false ?_ (not_lt.mpr within), iff_of_false ?_ apart,
    iff_of_true ⟨result, rfl⟩ ⟨within, apart⟩⟩
  · intro impossible
    cases impossible
  · intro impossible
    cases impossible

theorem HasDomain.map {places : Int} {outcome : Outcome Decimal} (finish : Decimal → Decimal)
    (domain : HasDomain places sine outcome) :
    HasDomain places sine (outcome >>= fun angle => pure (finish angle)) := by
  have errors (error : EvaluationError) :
      (outcome >>= fun angle => pure (finish angle)) = .error error ↔ outcome = .error error := by
    rw [bind_eq_error_iff, or_iff_left]
    rintro ⟨angle, -, impossible⟩
    cases impossible
  have results : (∃ result, (outcome >>= fun angle => pure (finish angle)) = .ok result) ↔
      ∃ result, outcome = .ok result := by
    constructor
    · rintro ⟨result, reached⟩
      obtain ⟨angle, found, -⟩ := bind_eq_ok_iff.mp reached
      exact ⟨angle, found⟩
    · intro succeeds
      exact exists_bind_eq_ok succeeds fun _ _ => ⟨_, rfl⟩
  exact ⟨(errors _).trans domain.outside, (errors _).trans domain.vanishing,
    results.trans domain.inside⟩

/-! ### The inverse sine at a scale -/

/-- A number with at most a million digits, a million places away from the point. -/
structure IsModerate (number : Decimal) : Prop where
  digits : number.digitCount ≤ 10 ^ 6
  lower : -10 ^ 6 ≤ number.scale.toInt
  upper : number.scale.toInt ≤ 10 ^ 6

/-- A number that is written within ten million places of the point. -/
structure IsPlaced (number : Decimal) : Prop where
  lower : -10 ^ 7 ≤ number.scale.toInt
  upper : number.scale.toInt ≤ 10 ^ 7

theorem IsModerate.isPlaced {number : Decimal} (moderate : IsModerate number) :
    IsPlaced number := by
  obtain ⟨-, lower, upper⟩ := moderate
  exact ⟨by omega, by omega⟩

theorem IsPlaced.comparable {number : Decimal} (placed : IsPlaced number) :
    Comparable 1 number.abs := by
  have lower := placed.lower
  refine fun _ => aligned_one ?_
  change -2 ^ 62 ≤ number.scale.toInt
  omega

theorem IsModerate.comparable {number : Decimal} (moderate : IsModerate number) :
    Comparable 1 number.abs :=
  moderate.isPlaced.comparable

section Placed

variable (placed : IsPlaced sine)
include placed

theorem IsPlaced.toInt_scale_square :
    (sine.abs * sine.abs).scale.toInt = sine.scale.toInt + sine.scale.toInt := by
  obtain ⟨lower, upper⟩ := placed
  apply Elementary.toInt_scale_square
  · change -2 ^ 62 ≤ sine.scale.toInt
    omega
  · change sine.scale.toInt < 2 ^ 62
    omega

theorem IsPlaced.mul_abs : Checked.mul sine.abs sine.abs = .ok (sine.abs * sine.abs) := by
  obtain ⟨lower, upper⟩ := placed
  apply unlessOverflow_of
  change IsWord (sine.scale.toInt + sine.scale.toInt)
  exact ⟨by omega, by omega⟩

theorem IsPlaced.one_sub_square :
    Checked.sub 1 (sine.abs * sine.abs) = .ok (1 - sine.abs * sine.abs) := by
  have square := placed.toInt_scale_square
  obtain ⟨lower, upper⟩ := placed
  exact unlessOverflow_of (aligned_one (by omega))

theorem rootAtScale_cosine (working : IsWorkingScale scale) (within : |sine.value| ≤ 1) :
    rootAtScale (1 - sine.abs * sine.abs) 2 scale =
      .ok ⟨IntegerRoot.floorRoot 2 ⌊(1 - sine.value ^ 2) * 10 ^ (2 * scale.toInt)⌋₊, scale⟩ := by
  have room : 10 ^ 7 * 4 ≤ largestExponent := by decide
  have squareScale := placed.toInt_scale_square
  have value : (1 - sine.abs * sine.abs).value = 1 - sine.value ^ 2 := by
    rw [value_cosine placed.mul_abs placed.one_sub_square, value_abs, abs_mul_abs_self, sq]
  obtain ⟨lower, upper⟩ := placed
  obtain ⟨nonneg, small⟩ := working
  have nonnegative : 0 ≤ (1 - sine.abs * sine.abs).value := by
    rw [value, sub_nonneg, sq_le_one_iff_abs_le_one]
    exact within
  have near : |(2 : Nat) * scale.toInt - (1 - sine.abs * sine.abs).scale.toInt| ≤
      largestExponent := by
    rw [toInt_scale_one_sub, squareScale, abs_le]
    omega
  rw [rootAtScale_eq_ok nonnegative ⟨by omega, by omega⟩ near, value]
  rfl

theorem exists_tangentOfSine {cosine : Decimal} (working : IsWorkingScale scale)
    (written : cosine.scale = scale) (nonzero : cosine.value ≠ 0) :
    ∃ tangent, sine.abs.divideAtScale cosine scale .halfEven = .ok tangent := by
  have room : 10 ^ 7 * 4 ≤ largestExponent := by decide
  obtain ⟨lower, upper⟩ := placed
  obtain ⟨nonneg, small⟩ := working
  refine ⟨_, divideAtScale_eq_ok .halfEven nonzero ?_ ?_⟩
  · rw [written]
    exact ⟨by omega, by omega⟩
  · rw [quotientExponent, written, abs_le]
    change -_ ≤ scale.toInt + scale.toInt - sine.scale.toInt ∧
      scale.toInt + scale.toInt - sine.scale.toInt ≤ _
    omega

theorem IsPlaced.hasDomain_asinAtScale (working : IsWorkingScale scale) :
    HasDomain scale.toInt sine (asinAtScale sine scale) := by
  have size : sine.abs.value = |sine.value| := value_abs sine
  have order : 1 < sine.abs ↔ 1 < |sine.value| := by
    rw [lt_iff_value_lt placed.comparable, value_one, size]
  have equality : sine.abs.sameValue 1 = true ↔ |sine.value| = 1 := by
    rw [sameValue_iff placed.comparable.symm, value_one, size]
  rw [asinAtScale, requireWords_bind_of placed.comparable]
  rcases lt_trichotomy |sine.value| 1 with inside | unit | outside
  · have root := rootAtScale_cosine placed working inside.le
    have other : sine.abs.sameValue 1 = false := by
      rw [← Bool.not_eq_true, equality]
      exact inside.ne
    simp only [mt order.mp (lt_asymm inside), other, Bool.false_eq_true, ↓reduceIte]
    rw [placed.mul_abs]
    change HasDomain _ _ (Checked.sub 1 (sine.abs * sine.abs) >>= _)
    rw [placed.one_sub_square]
    change HasDomain _ _ (rootAtScale (1 - sine.abs * sine.abs) 2 scale >>= _)
    rw [root]
    set cosine : Decimal :=
      ⟨IntegerRoot.floorRoot 2 ⌊(1 - sine.value ^ 2) * 10 ^ (2 * scale.toInt)⌋₊, scale⟩ with known
    have zero : cosine.value = 0 ↔ (1 - sine.value ^ 2) * 10 ^ (2 * scale.toInt) < 1 := by
      rw [value_eq_zero_iff, known, ← Nat.floor_eq_zero,
        ← IntegerRoot.floorRoot_eq_zero_iff two_ne_zero]
      exact Int.natCast_eq_zero
    change HasDomain _ _ (sine.abs.divideAtScale cosine scale .halfEven >>= _)
    by_cases vanishes : cosine.value = 0
    · rw [divideAtScale_of_zero .halfEven vanishes]
      exact .of_vanishing ⟨inside, zero.mp vanishes⟩
    · refine .of_inside ?_ inside.le fun near => vanishes (zero.mpr near.2)
      have divides := exists_tangentOfSine placed working rfl vanishes
      refine exists_bind_eq_ok divides fun tangent found => ?_
      have written : IsWorkingScale tangent.scale := scale_of_divideAtScale found ▸ working
      exact exists_bind_eq_ok (exists_atanAtScale working written) fun _ _ => ⟨_, rfl⟩
  · have equal := equality.mpr unit
    have within : ¬1 < sine.abs := mt order.mp (not_lt.mpr unit.le)
    simp only [within, equal, ↓reduceIte]
    refine .of_inside ?_ unit.le fun near => near.1.ne unit
    exact exists_bind_eq_ok (exists_rightAngle working) fun _ _ => ⟨_, rfl⟩
  · simp only [order.mpr outside, ↓reduceIte]
    exact .of_outside outside

end Placed

theorem hasDomain_asinAtScale (working : IsWorkingScale scale) (moderate : IsModerate sine) :
    HasDomain scale.toInt sine (asinAtScale sine scale) :=
  moderate.isPlaced.hasDomain_asinAtScale working

/-! ### Inverse sine and cosine to a precision -/

theorem isWorkingScale_seriesScale (few : precision.toNat ≤ 10 ^ 6) :
    IsWorkingScale precision.seriesScale := by
  have places := toInt_seriesScale (show precision.toNat + 10 < 2 ^ 32 by omega)
  exact ⟨by omega, by omega⟩

theorem exists_scaleNear_of_firstPlace (guards : precision.Guards) (nonzero : sine.value ≠ 0)
    (near : |firstPlace sine.value| ≤ 2 ^ 61) :
    ∃ scale, precision.scaleNear sine = .ok scale ∧
      scale.toInt = precision.toNat + 10 + max (-firstPlace sine.value) 0 := by
  have few : precision.toNat + 10 < 2 ^ 32 := guards
  obtain ⟨lower, upper⟩ := abs_le.mp near
  obtain ⟨scale, -, known⟩ := Checked.exists_word
    (show IsWord (precision.toNat + 10 + max (-firstPlace sine.value) 0) from
      ⟨by omega, by omega⟩)
  refine ⟨scale, Precision.scaleNear_eq_ok_iff.mpr ⟨guards, ?_⟩, known⟩
  rw [← firstPlace_value nonzero]
  exact ⟨⟨by omega, by omega⟩, ⟨by omega, by omega⟩, known⟩

theorem exists_scaleNear (few : precision.toNat ≤ 10 ^ 6) (moderate : IsModerate sine) :
    ∃ scale, precision.scaleNear sine = .ok scale ∧
      scale.toInt = precision.toNat + 10 + max (sine.scale.toInt + 1 - sine.digitCount) 0 := by
  obtain ⟨digits, lower, upper⟩ := moderate
  have places : IsWord (precision.toNat + 10 + max (sine.scale.toInt + 1 - sine.digitCount) 0) :=
    ⟨by omega, by omega⟩
  obtain ⟨scale, -, known⟩ := Checked.exists_word places
  refine ⟨scale, Precision.scaleNear_eq_ok_iff.mpr ⟨Precision.guards_of_lt (by omega),
    ⟨by omega, by omega⟩, ⟨by omega, by omega⟩, ?_⟩, known⟩
  rw [known]
  congr 2
  ring

theorem isWorkingScale_of_scaleNear (few : precision.toNat ≤ 10 ^ 6) (moderate : IsModerate sine)
    (places : scale.toInt = precision.toNat + 10 + max (sine.scale.toInt + 1 - sine.digitCount) 0) :
    IsWorkingScale scale := by
  have upper := moderate.upper
  exact ⟨by omega, by omega⟩

theorem cast_lastUnit_eq {digits : Nat} {zeros : Int} (places : scale.toInt = digits + 10 + zeros) :
    (lastUnit scale : ℝ) = 10 ^ (1 - digits : Int) * 10 ^ (-11 : Int) * 10 ^ (-zeros) := by
  rw [lastUnit, places, ← zpow_add₀ (by norm_num), ← zpow_add₀ (by norm_num)]
  push_cast
  congr 1
  ring

theorem not_cosineVanishes_of_small {places : Int} {value : ℚ} (behind : 1 ≤ places)
    (small : |value| < 1 / 10) : ¬CosineVanishes places value := by
  rintro ⟨-, vanishes⟩
  have power : (10 : ℚ) ^ (2 : Int) ≤ 10 ^ (2 * places) :=
    zpow_le_zpow_right₀ (by norm_num) (by omega)
  have square : value ^ 2 < 1 / 100 := by
    rw [← sq_abs]
    nlinarith [abs_nonneg value]
  norm_num at power
  nlinarith

/-- Only an argument whose first digit stands right behind the point is close to 1, and
there the scale near zero has one place more than that of the series. -/
theorem cosineVanishes_of_scaleNear_iff
    (places : scale.toInt = precision.toNat + 10 + max (sine.scale.toInt + 1 - sine.digitCount) 0) :
    CosineVanishes scale.toInt sine.value ↔ CosineVanishes (precision.toNat + 11) sine.value := by
  by_cases small : |sine.value| < 1 / 10
  · exact iff_of_false (not_cosineVanishes_of_small (by omega) small)
      (not_cosineVanishes_of_small (by omega) small)
  · by_cases inside : |sine.value| < 1
    · have tenth := not_lt.mp small
      have nonzero : sine.value ≠ 0 := abs_pos.mp (lt_of_lt_of_le (by norm_num) tenth)
      have first : firstPlace sine.value = -1 := by
        refine firstPlace_eq ?_ ?_
        · norm_num at tenth ⊢
          exact tenth
        · norm_num
          exact inside
      rw [firstPlace_value nonzero] at first
      have same : scale.toInt = precision.toNat + 11 := by omega
      rw [same]
    · exact iff_of_false (fun vanishes => inside vanishes.1) fun vanishes => inside vanishes.1

theorem acos_eq_of_rightAngle {right : Decimal} (guards : precision.Guards)
    (found : rightAngle precision.seriesScale = .ok right) :
    acos sine precision = (asinAtScale sine precision.seriesScale >>= fun angle =>
      pure ((right - angle).roundToPrecision precision)) := by
  rw [acos, requireWords_bind_of guards]
  change rightAngle precision.seriesScale >>= _ = _
  rw [found]
  rfl

/-- The inverse sine and cosine refuse, besides the numbers outside of the domain, exactly
those numbers inside it for which the root of `1 - x ^ 2` has no digit at the scale of the
series, with one place more for the sine. -/
theorem asin_acos_hasDomain (few : precision.toNat ≤ 10 ^ 6) (moderate : IsModerate sine) :
    HasDomain (precision.toNat + 11) sine (asin sine precision) ∧
      HasDomain (precision.toNat + 10) sine (acos sine precision) := by
  constructor
  · obtain ⟨scale, found, places⟩ := exists_scaleNear few moderate
    obtain ⟨outside, vanishing, inside⟩ :=
      hasDomain_asinAtScale (isWorkingScale_of_scaleNear few moderate places) moderate
    rw [cosineVanishes_of_scaleNear_iff places] at vanishing inside
    rw [asin, found]
    exact HasDomain.map (fun angle => angle.roundToPrecision precision) ⟨outside, vanishing, inside⟩
  · have working := isWorkingScale_seriesScale few
    obtain ⟨right, found⟩ := exists_rightAngle working
    have domain := hasDomain_asinAtScale working moderate
    rw [toInt_seriesScale (show precision.toNat + 10 < 2 ^ 32 by omega)] at domain
    rw [acos_eq_of_rightAngle (Precision.guards_of_lt (by omega)) found]
    exact domain.map fun angle => (right - angle).roundToPrecision precision

/-- At a precision of 20 digits the inverse sine takes 62 nines behind the point, and the
inverse cosine does not take 61. -/
theorem asin_acos_nines :
    (∃ angle, asin (nines 62) 20 = .ok angle) ∧ acos (nines 61) 20 = .error .divisionByZero := by
  have first : (nines 62).value = 1 - 1 / 10 ^ 62 := value_nines (by decide)
  have second : (nines 61).value = 1 - 1 / 10 ^ 61 := value_nines (by decide)
  have moderate : IsModerate (nines 62) := ⟨by decide, by decide, by decide⟩
  have moderate' : IsModerate (nines 61) := ⟨by decide, by decide, by decide⟩
  refine ⟨(asin_acos_hasDomain (by decide) moderate).1.inside.mpr ⟨?_, ?_⟩,
    (asin_acos_hasDomain (by decide) moderate').2.vanishing.mpr ⟨?_, ?_⟩⟩
  · rw [first]
    norm_num [abs_of_pos]
  · rintro ⟨-, vanishes⟩
    rw [first] at vanishes
    change (1 - (1 - 1 / 10 ^ 62) ^ 2) * (10 : ℚ) ^ (62 : Int) < 1 at vanishes
    norm_num at vanishes
  · rw [second]
    norm_num [abs_of_pos]
  · rw [second]
    change (1 - (1 - 1 / 10 ^ 61) ^ 2) * (10 : ℚ) ^ (60 : Int) < 1
    norm_num

/-- With 63 nines behind the point the inverse sine divides by zero, although the number is
below 1. -/
theorem asin_nines_eq_divisionByZero :
    |(nines 63).value| < 1 ∧ asin (nines 63) 20 = .error .divisionByZero := by
  refine ⟨?_, by rfl⟩
  rw [value_nines (by decide)]
  norm_num [abs_of_pos]

end Elementary
end DecimalCalculator
