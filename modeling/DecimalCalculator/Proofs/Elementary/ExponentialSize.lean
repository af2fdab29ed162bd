/-
The size of an exponential.

The sum for an argument of at most one half is between one and two at every scale, for each
term has at most half of the units of the one before it.  Squaring it as often as the argument
was halved leaves it above one, and a billion in the argument makes fewer digits than a power
of ten has zeros at most.  So the exponential of a positive number is never rounded to zero, and
the reciprocal that stands for the exponential of a negative one exists.
-/

import Mathlib
import DecimalCalculator.Proofs.Decimal.NearestDigits
import DecimalCalculator.Proofs.Elementary.FactorSeries
import DecimalCalculator.Proofs.Elementary.TooLarge

namespace DecimalCalculator

/-! ### Rounding to a scale -/

namespace Decimal

variable {number : Decimal} {scale : Int64} {value : ℚ}

theorem units_le_of_near (units : Int) (written : number.scale = scale)
    (atLeast : units * lastUnit scale ≤ value) (near : |value - number.value| ≤ lastUnit scale / 2) :
    units * lastUnit scale ≤ number.value := by
  have unit := lastUnit_pos scale
  obtain ⟨-, upper⟩ := abs_le.mp near
  rw [value_of_scale written] at upper ⊢
  have below : (units : ℚ) - 1 < number.unscaled := by
    refine lt_of_mul_lt_mul_right ?_ unit.le
    linarith
  have whole : units - 1 < number.unscaled := by exact_mod_cast below
  refine mul_le_mul_of_nonneg_right ?_ unit.le
  exact_mod_cast (by omega : units ≤ number.unscaled)

theorem le_units_of_near (units : Int) (written : number.scale = scale)
    (atMost : value ≤ units * lastUnit scale) (near : |value - number.value| ≤ lastUnit scale / 2) :
    number.value ≤ units * lastUnit scale := by
  have unit := lastUnit_pos scale
  obtain ⟨lower, -⟩ := abs_le.mp near
  rw [value_of_scale written] at lower ⊢
  have above : (number.unscaled : ℚ) < units + 1 := by
    refine lt_of_mul_lt_mul_right ?_ unit.le
    linarith
  have whole : number.unscaled < units + 1 := by exact_mod_cast above
  refine mul_le_mul_of_nonneg_right ?_ unit.le
  exact_mod_cast (by omega : number.unscaled ≤ units)

theorem nonneg_of_near (written : number.scale = scale) (nonneg : 0 ≤ value)
    (near : |value - number.value| ≤ lastUnit scale / 2) : 0 ≤ number.value := by
  have bound := units_le_of_near 0 written (by simpa using nonneg) near
  simpa using bound

theorem exists_units_of_one (positive : 1 ≤ scale.toInt) :
    ∃ units : Int, 1 = 2 * units * lastUnit scale := by
  obtain ⟨places, known⟩ := Int.eq_ofNat_of_zero_le (show 0 ≤ scale.toInt - 1 by omega)
  refine ⟨5 * 10 ^ places, ?_⟩
  have exponent : -scale.toInt = -(places + 1 : Int) := by omega
  have ten : (10 : ℚ) ^ places ≠ 0 := pow_ne_zero _ (by norm_num)
  rw [lastUnit, exponent, zpow_neg, zpow_add_one₀ (by norm_num), zpow_natCast]
  push_cast
  field_simp
  norm_num

theorem one_le_of_near (positive : 1 ≤ scale.toInt) (written : number.scale = scale)
    (atLeast : 1 ≤ value) (near : |value - number.value| ≤ lastUnit scale / 2) :
    1 ≤ number.value := by
  obtain ⟨units, one⟩ := exists_units_of_one positive
  have bound := units_le_of_near (2 * units) written (by push_cast; linarith) near
  push_cast at bound
  linarith

theorem le_half_of_near (positive : 1 ≤ scale.toInt) (written : number.scale = scale)
    (atMost : value ≤ 1 / 2) (near : |value - number.value| ≤ lastUnit scale / 2) :
    number.value ≤ 1 / 2 := by
  obtain ⟨units, one⟩ := exists_units_of_one positive
  have bound := le_units_of_near units written (by linarith) near
  linarith

theorem abs_sub_setScale_le (reaches : number.Reaches scale)
    (written : number.scale.toInt - scale.toInt ≤ largestExponent) :
    |number.value - (number.setScale scale .halfEven).value| ≤ lastUnit scale / 2 := by
  rw [setScale_eq .halfEven reaches fun far => absurd far (by omega)]
  exact abs_sub_round_mul_le _ scale

theorem value_setScale_of_far (far : largestExponent < number.scale.toInt - scale.toInt) :
    (number.setScale scale .halfEven).value = 0 := by
  have coarser := lt_scale_of_far far
  rw [value_eq_zero_iff, setScale, if_neg (Int64.not_le.mpr coarser),
    writableExponent?_sub_eq_none far]
  change RoundingMode.halfEven.quotient number.unscaled.sign 10 = 0
  rcases Int.sign_trichotomy number.unscaled with positive | zero | negative
  · rw [positive]
    rfl
  · rw [zero]
    rfl
  · rw [negative]
    rfl

end Decimal

open Decimal

/-! ### Arguments that are halved -/

namespace Series

variable {argument : Decimal} {scale : Int64}

/-- An argument that is positive but not very large, with few enough digits. -/
structure IsHalvable (argument : Decimal) : Prop where
  short : argument.IsShort
  positive : 0 < argument.value
  atMost : argument.value ≤ 10 ^ 9

namespace IsHalvable

theorem scale_ge (halvable : IsHalvable argument) : -9 ≤ argument.scale.toInt := by
  have count : 1 ≤ argument.digitCount := Digits.count_pos _
  have first := firstPlace_value halvable.positive.ne'
  have few : firstPlace argument.value ≤ 9 := by
    refine firstPlace_le_of_abs_le halvable.positive.ne' ?_
    rw [abs_of_pos halvable.positive]
    exact_mod_cast halvable.atMost
  omega

theorem scale_le (halvable : IsHalvable argument) (above : 1 / 2 < argument.value) :
    argument.scale.toInt ≤ argument.digitCount := by
  have first := firstPlace_value halvable.positive.ne'
  have least : -1 ≤ firstPlace argument.value := by
    apply le_firstPlace_of_le_abs
    rw [abs_of_pos halvable.positive]
    norm_num
    linarith
  omega

theorem le_half_mul_pow (halvable : IsHalvable argument) :
    argument.value ≤ half.value * 2 ^ 31 := by
  have size := halvable.atMost
  norm_num [value_half]
  linarith

theorem comparable (halvable : IsHalvable argument) : Comparable half argument := by
  have lower := halvable.scale_ge
  have upper := argument.scale.toInt_lt
  have one : half.scale.toInt = 1 := by decide
  have common := toInt_commonScale half argument
  exact fun _ => ⟨Or.inr (by omega), Or.inr (by omega)⟩

theorem half_lt_iff (halvable : IsHalvable argument) : half < argument ↔ 1 / 2 < argument.value := by
  rw [lt_iff_value_lt halvable.comparable, value_half]

theorem halves (halvable : IsHalvable argument) : Halves half argument := by
  have room : largestExponent < 2 ^ 61 := by decide
  have digits : argument.digitCount ≤ largestExponent := halvable.short
  by_cases exceeds : half < argument
  · have lower := halvable.scale_ge
    have upper := halvable.scale_le (halvable.half_lt_iff.mp exceeds)
    exact halves_of_near (by decide) (by decide) (by omega) (by omega) halvable.le_half_mul_pow
  · exact ⟨halvable.comparable, fun above => absurd above exceeds⟩

theorem isHalved (halvable : IsHalvable argument) :
    IsHalved (1 / 2) argument.value (halveTo half argument) := by
  have halved := isHalved_halveTo halvable.positive (by decide) value_half.ge halvable.halves
  rwa [value_half] at halved

theorem few_halvings (halvable : IsHalvable argument) : (halveTo half argument).2 ≤ 31 := by
  have small := halvable.le_half_mul_pow
  rw [value_half] at small
  exact halvable.isHalved.halvings_le (by norm_num) small

theorem halveTo_eq (halvable : IsHalvable argument) (atMost : argument.value ≤ 1 / 2) :
    halveTo half argument = (argument, 0) := by
  rw [halveTo, mostHalvings, halveWithin, if_neg (mt halvable.half_lt_iff.mp (not_lt.mpr atMost))]

theorem half_lt_of_halved (halvable : IsHalvable argument)
    (halved : (halveTo half argument).2 ≠ 0) : 1 / 2 < argument.value := by
  by_contra atMost
  rw [halvable.halveTo_eq (not_lt.mp atMost)] at halved
  exact halved rfl

theorem scale_halved (halvable : IsHalvable argument) :
    -9 ≤ (halveTo half argument).1.scale.toInt ∧
      (1 / 2 < argument.value →
        (halveTo half argument).1.scale.toInt ≤ argument.digitCount + 31) := by
  have lower := halvable.scale_ge
  have few := halvable.few_halvings
  have halved : (halveTo half argument).1.scale.toInt =
      argument.scale.toInt + (halveTo half argument).2 :=
    toInt_scale_halveWithin halvable.halves
  refine ⟨by omega, fun above => ?_⟩
  have upper := halvable.scale_le above
  omega

section Rounded

variable (halvable : IsHalvable argument) (positive : 1 ≤ scale.toInt)
  (narrow : scale.toInt < 2 ^ 61)
include halvable positive narrow

theorem setScale_between :
    0 ≤ ((halveTo half argument).1.setScale scale .halfEven).value ∧
      ((halveTo half argument).1.setScale scale .halfEven).value ≤ 1 / 2 := by
  have lower := halvable.scale_halved.1
  have within := halvable.isHalved.within
  have above : 0 < (halveTo half argument).1.value := halveWithin_pos halvable.positive _
  rcases le_or_gt ((halveTo half argument).1.scale.toInt - scale.toInt) largestExponent with
    written | far
  · have near := abs_sub_setScale_le (Or.inr (by omega)) written
    exact ⟨nonneg_of_near (scale_setScale _ _ _) above.le near,
      le_half_of_near positive (scale_setScale _ _ _) within near⟩
  · rw [value_setScale_of_far far]
    norm_num

/-- An argument that was halved is more than a quarter, which is not rounded to zero at a scale
with so many digits. -/
theorem setScale_pos (fine : largestExponent < scale.toInt)
    (halved : (halveTo half argument).2 ≠ 0) :
    0 < ((halveTo half argument).1.setScale scale .halfEven).value := by
  have room : 31 ≤ largestExponent := by decide
  have digits : argument.digitCount ≤ largestExponent := halvable.short
  have lower := halvable.scale_halved.1
  have upper := halvable.scale_halved.2 (halvable.half_lt_of_halved halved)
  have quarter := halvable.isHalved.above.resolve_left halved
  have near := abs_sub_setScale_le
    (show (halveTo half argument).1.Reaches scale from Or.inr (by omega)) (by omega)
  have unit := lastUnit_le_one_div_pow (show ((1 : Nat) : Int) ≤ scale.toInt by omega)
  obtain ⟨-, bound⟩ := abs_le.mp near
  norm_num at unit
  linarith

end Rounded

end IsHalvable

/-! ### Sums between one and two -/

variable {next : Nat → Decimal → Outcome Decimal} {term sum : Decimal} {index : Nat}

/-- A sum that stays between one and two if the terms behind a term are together not more than
this term. -/
structure HasRoom (scale : Int64) (term sum : Decimal) : Prop where
  written : term.scale = scale
  nonneg : 0 ≤ term.value
  isWithin : IsWithin scale sum
  atLeast : 1 ≤ sum.value
  room : sum.value + term.value ≤ 2

structure IsBetweenOneAndTwo (scale : Int64) (sum : Decimal) : Prop where
  isWithin : IsWithin scale sum
  atLeast : 1 ≤ sum.value
  atMost : sum.value ≤ 2

theorem HasRoom.isBetween (given : HasRoom scale term sum) : IsBetweenOneAndTwo scale sum := by
  have nonneg := given.nonneg
  have room := given.room
  exact ⟨given.isWithin, given.atLeast, by linarith⟩

theorem HasRoom.extend {following : Decimal} (given : HasRoom scale term sum)
    (written : following.scale = scale) (nonneg : 0 ≤ following.value)
    (small : 2 * following.value ≤ term.value) : HasRoom scale following (sum + following) := by
  have value := given.isWithin.value_add written
  have atLeast := given.atLeast
  have room := given.room
  exact ⟨written, nonneg, given.isWithin.add written, by linarith, by linarith⟩

theorem ends_sumAfter_between
    (halves : ∀ index term, 1 ≤ index → term.scale = scale → 0 ≤ term.value →
      Ends (fun following => following.scale = scale ∧ 0 ≤ following.value ∧
        2 * following.value ≤ term.value) IsTooLarge (next index term))
    (late : 1 ≤ index) (given : HasRoom scale term sum) :
    Ends (IsBetweenOneAndTwo scale) IsTooLarge (sumAfter next index term sum) := by
  have terms : ∀ index term sum, 1 ≤ index ∧ HasRoom scale term sum →
      Ends (fun following => 1 ≤ index + 1 ∧ HasRoom scale following (sum + following)) IsTooLarge
        (next index term) := by
    rintro index term sum ⟨late, given⟩
    refine (halves index term late given.written given.nonneg).mono ?_
    rintro following ⟨written, nonneg, small⟩
    exact ⟨by omega, given.extend written nonneg small⟩
  refine (ends_sumAfter (fun index term sum => 1 ≤ index ∧ HasRoom scale term sum) terms
    ⟨late, given⟩).mono ?_
  rintro total ⟨_, _, -, extended⟩
  exact extended.isBetween

end Series

namespace Elementary

open Series

/-! ### The Taylor sum -/

variable {argument term : Decimal} {scale : Int64}

section Taylor

variable (positive : 1 ≤ scale.toInt) (narrow : scale.toInt < 2 ^ 61)
  (written : argument.scale = scale)
include positive narrow written

theorem ends_expTerm (isWithin : IsWithin scale term) (index : Nat) :
    Ends (fun following => following.scale = scale ∧
        |term.value * argument.value / (index + 1) - following.value| ≤ lastUnit scale / 2)
      IsTooLarge ((term * argument).divideAtScale (ofInt (index + 1)) scale .halfEven) := by
  have nonneg := isWithin.nonneg
  have within := isWithin.within
  have word : IsWord (term.scale.toInt + argument.scale.toInt) := by
    rw [written]
    exact ⟨by omega, by omega⟩
  rcases divideAtScale_cases (term * argument) scale .halfEven
    (value_ofInt_ne_zero (show (index + 1 : Int) ≠ 0 by omega)) with
    ⟨-, broken⟩ | ⟨-, -, refused⟩ | ⟨-, -, reached⟩
  · rw [broken]
    exact .error .overflow
  · rw [refused]
    exact .error (.intro _)
  · rw [reached, value_mul word, value_ofInt]
    push_cast
    exact .ok ⟨rfl, abs_sub_round_mul_le _ scale⟩

variable (nonneg : 0 ≤ argument.value) (small : argument.value ≤ 1 / 2)
include nonneg small

theorem ends_expTerm_half (isTerm : term.scale = scale) (above : 0 ≤ term.value) {index : Nat}
    (late : 1 ≤ index) :
    Ends (fun following => following.scale = scale ∧ 0 ≤ following.value ∧
        2 * following.value ≤ term.value)
      IsTooLarge ((term * argument).divideAtScale (ofInt (index + 1)) scale .halfEven) := by
  have isWithin : IsWithin scale term := by
    rw [← isTerm]
    exact ⟨by rw [isTerm]; omega, le_rfl⟩
  refine (ends_expTerm positive narrow written isWithin index).mono ?_
  rintro following ⟨same, near⟩
  have divisor : (2 : ℚ) ≤ index + 1 := by exact_mod_cast Nat.succ_le_succ late
  have quotient : 0 ≤ term.value * argument.value / (index + 1) := by positivity
  have quarter : term.value * argument.value / (index + 1) ≤ 1 / 3 * term.value := by
    rw [div_le_iff₀ (by linarith)]
    nlinarith
  have follows := nonneg_of_near same quotient near
  obtain ⟨lower, -⟩ := abs_le.mp near
  have units := two_mul_natAbs_le isTerm same (by
    rw [abs_of_nonneg follows, abs_of_nonneg above]
    linarith)
  refine ⟨same, follows, ?_⟩
  rw [← abs_of_nonneg follows, ← abs_of_nonneg above, abs_value_of_scale same,
    abs_value_of_scale isTerm, ← mul_assoc]
  refine mul_le_mul_of_nonneg_right ?_ (lastUnit_pos scale).le
  exact_mod_cast units

theorem ends_expSeries : Ends (IsBetweenOneAndTwo scale) IsTooLarge (expSeries argument scale) := by
  have one : IsWithin scale 1 := ⟨le_refl 0, show 0 ≤ scale.toInt by omega⟩
  unfold expSeries sumFrom
  refine (ends_expTerm positive narrow written one 0).bind ?_
  rintro second ⟨same, near⟩
  rw [value_one, one_mul, Nat.cast_zero, zero_add, div_one] at near
  have above := nonneg_of_near same nonneg near
  have half := le_half_of_near positive same small near
  have value := one.value_add same
  rw [value_one] at value
  cases second.isZero with
  | true => exact .ok ⟨one, value_one.ge, by rw [value_one]; norm_num⟩
  | false =>
      refine ends_sumAfter_between ?_ (le_refl 1)
        ⟨same, above, one.add same, by linarith, by linarith⟩
      intro index term late isTerm nonneg'
      exact ends_expTerm_half positive narrow written nonneg small isTerm nonneg' late

omit positive nonneg small

theorem exists_expTerm_eq_error (fine : largestExponent < scale.toInt) (same : term.scale = scale)
    {divisor : Int} (nonzero : divisor ≠ 0) :
    ∃ exponent, (term * argument).divideAtScale (ofInt divisor) scale .halfEven =
      .error (.exponentTooLarge exponent) := by
  have product : (term * argument).scale.toInt = scale.toInt + scale.toInt := by
    change (term.scale + argument.scale).toInt = _
    rw [same, written]
    exact toInt_add_of_isWord ⟨by omega, by omega⟩
  have exponent : quotientExponent (term * argument) (ofInt divisor) scale = -scale.toInt := by
    rw [quotientExponent, product]
    change scale.toInt + 0 - _ = _
    omega
  refine ⟨_, divideAtScale_of_far .halfEven (value_ofInt_ne_zero nonzero)
    ⟨isWord_add_scale_ofInt scale divisor, ?_, ?_⟩ ?_⟩
  · rw [exponent]
    exact ⟨by omega, by omega⟩
  · rw [exponent]
    exact ⟨by omega, by omega⟩
  · rw [exponent, abs_neg, abs_of_nonneg (by omega)]
    exact fine

theorem expSeries_of_fine (fine : largestExponent < scale.toInt) (above : 0 < argument.value) :
    ∃ exponent, expSeries argument scale = .error (.exponentTooLarge exponent) := by
  have one : IsWithin scale 1 := ⟨le_refl 0, show 0 ≤ scale.toInt by omega⟩
  have ends := ends_expTerm (by omega) narrow written one 0
  cases reached : (1 * argument).divideAtScale (ofInt ((0 : Nat) + 1)) scale .halfEven with
  | error fault =>
      cases ends.of_eq_error reached with
      | intro exponent =>
          refine ⟨exponent, ?_⟩
          rw [expSeries, sumFrom, reached]
          rfl
      | overflow =>
          have exponent : quotientExponent (1 * argument) (ofInt ((0 : Nat) + 1)) scale = 0 := by
            have product : (1 * argument).scale = argument.scale := Int64.zero_add _
            have unit : (ofInt ((0 : Nat) + 1)).scale.toInt = 0 := rfl
            rw [quotientExponent, product, written, unit]
            omega
          have divided := @divideAtScale_eq_ok (1 * argument) _ _ .halfEven
            (value_ofInt_ne_zero (show ((0 : Nat) + 1 : Int) ≠ 0 by decide))
            (isWord_add_scale_ofInt scale _) (by rw [exponent]; decide)
          rw [reached] at divided
          cases divided
  | ok second =>
      obtain ⟨same, near⟩ := ends.of_eq_ok reached
      rw [value_one, one_mul, Nat.cast_zero, zero_add, div_one] at near
      have unit := lastUnit_pos scale
      have some : second.isZero = false := by
        have least : ((1 : Int) : ℚ) * lastUnit scale ≤ argument.value := by
          rw [value_of_scale written]
          refine mul_le_mul_of_nonneg_right ?_ unit.le
          exact_mod_cast value_pos_iff.mp above
        have kept := units_le_of_near 1 same least near
        rw [Int.cast_one, one_mul] at kept
        exact isZero_eq_false_iff.mpr (unit.trans_le kept).ne'
      obtain ⟨size, refused⟩ := exists_expTerm_eq_error narrow written fine same
        (show ((1 : Nat) + 1 : Int) ≠ 0 by decide)
      refine ⟨size, ?_⟩
      rw [expSeries, sumFrom, reached]
      change (if second.isZero = true then _ else _) = _
      rw [some, sumAfter, refused]
      rfl

end Taylor

/-! ### Squares of the sum -/

variable {number total : Decimal} {power : Nat}

/-- Each square of a number between one and a power of ten doubles the exponent of the latter. -/
theorem squareRepeatedly_between (fractional : IsFractionalScale scale) (times : Nat)
    (isWithin : IsWithin scale number) (atLeast : 1 ≤ number.value)
    (below : number.value + 1 ≤ 10 ^ power) :
    IsWithin scale (squareRepeatedly scale times number) ∧
      1 ≤ (squareRepeatedly scale times number).value ∧
      (squareRepeatedly scale times number).value + 1 ≤ 10 ^ (power * 2 ^ times) := by
  induction times generalizing number power with
  | zero =>
      rw [pow_zero, mul_one]
      exact ⟨isWithin, atLeast, below⟩
  | succ times ih =>
      have near := isWithin.abs_mul_sub_setScale_le fractional isWithin
      have unit := fractional.lastUnit_le
      have same : ((number * number).setScale scale .halfEven).scale = scale := scale_setScale _ _ _
      have square : 1 ≤ number.value * number.value := one_le_mul_of_one_le_of_one_le atLeast atLeast
      have squared := one_le_of_near fractional.positive same square near
      obtain ⟨lower, -⟩ := abs_le.mp near
      have doubled : ((number * number).setScale scale .halfEven).value + 1 ≤ 10 ^ (power * 2) := by
        rw [pow_mul, sq]
        have product := mul_le_mul below below (by linarith) (by positivity)
        nlinarith
      have rest := ih (fractional.isWithin same) squared doubled
      rw [mul_assoc, ← pow_succ'] at rest
      exact rest

/-! ### Exponentials that are not zero -/

variable {precision : Precision}

theorem toInt_expScale_eq (precision : Precision) {halvings : Nat} (few : halvings ≤ 31) :
    (expScale precision halvings).toInt =
      precision.guarded.toNat + (halvings * 3 / 10 : Nat) + 1 := by
  have bound := precision.guarded.toNat_lt
  have series := toInt_seriesScale_eq precision
  have more : (Int64.ofNat (halvings * 3 / 10)).toInt = (halvings * 3 / 10 : Nat) :=
    Int64.toInt_ofNat_of_lt (by omega)
  have one : (1 : Int64).toInt = 1 := by decide
  have sum : (precision.seriesScale + Int64.ofNat (halvings * 3 / 10)).toInt =
      precision.guarded.toNat + (halvings * 3 / 10 : Nat) := by
    rw [toInt_add_of_isWord, series, more]
    rw [series, more]
    exact ⟨by omega, by omega⟩
  rw [expScale, toInt_add_of_isWord, sum, one]
  rw [sum, one]
  exact ⟨by omega, by omega⟩

theorem roundToPrecision_total_ne_zero (isWithin : IsWithin scale total) (atLeast : 1 ≤ total.value)
    (atMost : total.value ≤ 10 ^ power) (few : power ≤ 2 ^ 31)
    (places : scale.toInt ≤ precision.toNat + 20) :
    (total.roundToPrecision precision).value ≠ 0 := by
  have some : total.value ≠ 0 := by linarith
  have room : 2 ^ 31 + 21 ≤ largestExponent := by decide
  have first := firstPlace_value some
  have small : firstPlace total.value ≤ power := by
    refine firstPlace_le_of_abs_le some ?_
    rw [abs_of_pos (by linarith), zpow_natCast]
    exact atMost
  have within := isWithin.within
  have kept : precision.toNat ≤ keptDigits precision := le_max_left _ _
  refine value_roundToPrecision_ne_zero ?_ some
  rw [droppedDigits]
  omega

theorem ends_expOfPositive (halvable : IsHalvable argument) (precision : Precision) :
    Ends (fun result => result.value ≠ 0) IsTooLarge (expOfPositive argument precision) := by
  by_cases words : ExpWords argument precision
  case neg =>
    rw [expOfPositive_of_not_words words]
    exact .error .overflow
  have halvings := halvable.few_halvings
  have places := toInt_expScale_eq precision halvings
  have bound := precision.guarded.toNat_lt
  have guard : precision.guarded.toNat ≤ precision.toNat + 10 := by
    rw [Precision.guarded, UInt32.toNat_add]
    exact Nat.mod_le _ _
  have written := scale_setScale (halveTo half argument).1
    (expScale precision (halveTo half argument).2) .halfEven
  have between := halvable.setScale_between
    (show 1 ≤ (expScale precision (halveTo half argument).2).toInt by omega) (by omega)
  have above := halvable.setScale_pos
    (show 1 ≤ (expScale precision (halveTo half argument).2).toInt by omega) (by omega)
  have sums := ends_expSeries (by omega) (by omega) written between.1 between.2
  have positive : 1 ≤ (expScale precision (halveTo half argument).2).toInt := by omega
  have digits : (expScale precision (halveTo half argument).2).toInt ≤ precision.toNat + 20 := by
    omega
  rw [expOfPositive_eq_expOfHalved words, expOfHalved]
  refine (Checked.ends_setScale _ _ _).bind fun reduced known => ?_
  subst known
  generalize expScale precision (halveTo half argument).2 = scale at *
  generalize halveTo half argument = halved at *
  by_cases fine : scale.toInt ≤ largestExponent
  · refine sums.bind fun sum isBetween => .ok ?_
    have tenth : sum.value + 1 ≤ 10 ^ 1 := by
      have atMost := isBetween.atMost
      linarith
    obtain ⟨isWithin, atLeast, below⟩ := squareRepeatedly_between ⟨positive, fine⟩ halved.2
      isBetween.isWithin isBetween.atLeast tenth
    refine roundToPrecision_total_ne_zero isWithin atLeast (by linarith) ?_ digits
    rw [one_mul]
    exact Nat.pow_le_pow_right (by decide) halvings
  · have wide : largestExponent < scale.toInt := not_le.mp fine
    by_cases none : halved.2 = 0
    · rw [none]
      refine sums.bind fun sum isBetween => .ok ?_
      have tenth : sum.value ≤ 10 ^ 1 := by
        have atMost := isBetween.atMost
        linarith
      exact roundToPrecision_total_ne_zero isBetween.isWithin isBetween.atLeast tenth (by decide)
        digits
    · obtain ⟨exponent, refused⟩ := expSeries_of_fine (by omega) written wide (above wide none)
      rw [refused]
      exact .error (.intro exponent)

/-- An argument that is not below minus a billion has an exponential, as far as powers of ten
can be written for it. -/
theorem succeeds_exp (argument : Decimal) (precision : Precision)
    (moderate : argument.value < 0 → argument.IsShort ∧ -10 ^ 9 ≤ argument.value) :
    SucceedsUnlessTooLarge (exp argument precision) := by
  rcases lt_trichotomy argument.value 0 with negative | zero | positive
  · obtain ⟨short, size⟩ := moderate negative
    have digits : (-argument).digitCount = argument.digitCount :=
      congrArg Digits.count (Int.natAbs_neg argument.unscaled)
    have halvable : IsHalvable (-argument) := by
      refine ⟨digits.trans_le short, ?_, ?_⟩
      · rw [value_neg]
        exact neg_pos.mpr negative
      · rw [value_neg]
        linarith
    rw [exp_of_neg negative]
    refine .requireWords .overflow fun _ => ?_
    refine (ends_expOfPositive halvable precision.guarded).bind fun opposite nonzero => ?_
    exact succeeds_divideToPrecision nonzero precision
  · rw [exp_of_zero zero]
    exact .ok trivial
  · rw [exp_of_pos positive]
    exact succeeds_expOfPositive argument precision

end Elementary
end DecimalCalculator
