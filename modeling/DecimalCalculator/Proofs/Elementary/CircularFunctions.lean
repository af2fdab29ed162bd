/-
The errors of sine and cosine.

An angle that is reduced by whole turns is off by as many times the error of a turn, and the
scale of the turn has the digits of the angle in front of the point for that.  The Taylor terms
of an angle of at most half a turn do not grow after the second one, and what the rounded square
of the angle is off by is divided by more than the term is large.
-/

import Mathlib
import DecimalCalculator.Proofs.Elementary.Angle
import DecimalCalculator.Proofs.Elementary.Approximation
import DecimalCalculator.Proofs.Elementary.ArctangentSeries
import DecimalCalculator.Proofs.Elementary.FactorSeries
import DecimalCalculator.Proofs.Elementary.Root

namespace DecimalCalculator
namespace Elementary

open Decimal Series

variable {angle first square term following : Decimal} {scale : Int64} {precision : Precision}
  {offset index : Nat}

/-! ### Taylor terms -/

/-- What the square of the angle is divided by behind the term of an index. -/
def circularDenominator (offset index : Nat) : Nat :=
  (2 * index + offset) * (2 * index + offset + 1)

def circularFactor (offset : Nat) (angle : ℚ) (index : Nat) : ℚ :=
  -(angle ^ 2 / circularDenominator offset index)

theorem factorTerm_one_circularFactor (angle : ℚ) (index : Nat) :
    factorTerm 1 (circularFactor 1 angle) index =
      (-1) ^ index * angle ^ (2 * index) / (2 * index).factorial := by
  induction index with
  | zero => rw [factorTerm_zero, pow_zero, mul_zero, pow_zero, Nat.factorial_zero]; norm_num
  | succ index ih =>
      rw [factorTerm_succ, ih, circularFactor, circularDenominator,
        show 2 * (index + 1) = 2 * index + 1 + 1 by ring, Nat.factorial_succ, Nat.factorial_succ]
      push_cast
      field_simp
      ring

theorem factorTerm_circularFactor (angle : ℚ) (index : Nat) :
    factorTerm angle (circularFactor 2 angle) index =
      (-1) ^ index * angle ^ (2 * index + 1) / (2 * index + 1).factorial := by
  induction index with
  | zero => rw [factorTerm_zero, pow_zero, mul_zero, zero_add, pow_one, Nat.factorial_one]; norm_num
  | succ index ih =>
      rw [factorTerm_succ, ih, circularFactor, circularDenominator,
        show 2 * (index + 1) + 1 = 2 * index + 1 + 1 + 1 by ring, Nat.factorial_succ (2 * index + 1 + 1),
        Nat.factorial_succ (2 * index + 1)]
      push_cast
      field_simp
      ring

theorem tendsto_factorSum_cos (angle : ℚ) :
    Filter.Tendsto (fun count => (factorSum 1 (circularFactor 1 angle) count : ℝ)) Filter.atTop
      (nhds (Real.cos angle)) := by
  refine (Real.hasSum_cos angle).tendsto_sum_nat.congr fun count => ?_
  rw [factorSum, Rat.cast_sum]
  refine Finset.sum_congr rfl fun index _ => ?_
  rw [factorTerm_one_circularFactor]
  push_cast
  rfl

theorem tendsto_factorSum_sin (angle : ℚ) :
    Filter.Tendsto (fun count => (factorSum angle (circularFactor 2 angle) count : ℝ)) Filter.atTop
      (nhds (Real.sin angle)) := by
  refine (Real.hasSum_sin angle).tendsto_sum_nat.congr fun count => ?_
  rw [factorSum, Rat.cast_sum]
  refine Finset.sum_congr rfl fun index _ => ?_
  rw [factorTerm_circularFactor]
  push_cast
  rfl

theorem le_circularDenominator (least : 1 ≤ offset) (index : Nat) :
    (2 * index + 1) * (2 * index + 2) ≤ circularDenominator offset index :=
  Nat.mul_le_mul (by omega) (by omega)

/-- The beginning of a series for an angle of at most half a turn: the second term has one digit
in front of the point, and counts if the square of the angle is large. -/
structure IsCircular (offset : Nat) (angle first : ℚ) : Prop where
  least : 1 ≤ offset
  small : |angle| ≤ 63 / 20
  start : |first| ≤ circularDenominator offset 0
  most : |first| * angle ^ 2 ≤ 11 / 2 * circularDenominator offset 0
  counts : 7 / 2 ≤ angle ^ 2 → circularDenominator offset 0 ≤ |first| * angle ^ 2

theorem isCircular_cos {angle : ℚ} (small : |angle| ≤ 63 / 20) : IsCircular 1 angle 1 := by
  have square : angle ^ 2 ≤ 11 := by
    rw [← sq_abs]
    nlinarith [abs_nonneg angle]
  have denominator : circularDenominator 1 0 = 2 := rfl
  refine ⟨le_refl 1, small, ?_, ?_, fun large => ?_⟩
  · rw [denominator]
    norm_num
  · rw [denominator, abs_one, one_mul]
    norm_num
    linarith
  · rw [denominator, abs_one, one_mul]
    norm_num
    linarith

theorem isCircular_sin {angle : ℚ} (small : |angle| ≤ 63 / 20) : IsCircular 2 angle angle := by
  have nonneg := abs_nonneg angle
  have denominator : circularDenominator 2 0 = 6 := rfl
  refine ⟨one_le_two, small, ?_, ?_, fun large => ?_⟩
  · rw [denominator]
    norm_num
    linarith
  · have square : |angle| ^ 2 ≤ (63 / 20) ^ 2 := pow_le_pow_left₀ nonneg small 2
    rw [denominator, ← sq_abs]
    norm_num at square ⊢
    nlinarith
  · have above : 9 / 5 ≤ |angle| := by
      rw [← sq_abs] at large
      nlinarith
    rw [denominator]
    norm_num
    nlinarith

namespace IsCircular

variable {exact start : ℚ} (circular : IsCircular offset exact start)
include circular

theorem denominator_pos (index : Nat) : 0 < (circularDenominator offset index : ℚ) := by
  have least := le_circularDenominator circular.least index
  have positive : 0 < (2 * index + 1) * (2 * index + 2) := by positivity
  exact_mod_cast positive.trans_le least

theorem sq_le : exact ^ 2 ≤ 3969 / 400 := by
  have square := pow_le_pow_left₀ (abs_nonneg exact) circular.small 2
  rw [sq_abs] at square
  norm_num at square
  exact square

theorem abs_factor_le {bound : Nat} {ratio : ℚ} (least : bound ≤ circularDenominator offset index)
    (some : 0 < bound) (small : 3969 / 400 ≤ ratio * bound) :
    |circularFactor offset exact index| ≤ ratio := by
  have positive := circular.denominator_pos index
  have size : (bound : ℚ) ≤ circularDenominator offset index := by exact_mod_cast least
  have some' : (0 : ℚ) < bound := by exact_mod_cast some
  have square := circular.sq_le
  have nonneg : 0 ≤ ratio := by nlinarith
  rw [circularFactor, abs_neg, abs_of_nonneg (by positivity), div_le_iff₀ positive]
  nlinarith

theorem twelve_le (late : 1 ≤ index) : 12 ≤ circularDenominator offset index := by
  refine le_trans ?_ (le_circularDenominator circular.least index)
  nlinarith

theorem thirty_le (late : 2 ≤ index) : 30 ≤ circularDenominator offset index := by
  refine le_trans ?_ (le_circularDenominator circular.least index)
  nlinarith

theorem settles : Settles (circularFactor offset exact) := by
  refine ⟨circular.abs_factor_le (circular.twelve_le (le_refl 1)) (by norm_num) (by norm_num),
    fun index late => ?_⟩
  exact circular.abs_factor_le (circular.thirty_le late) (by norm_num) (by norm_num)

theorem abs_factorTerm_one :
    |factorTerm start (circularFactor offset exact) 1| * circularDenominator offset 0 =
      |start| * exact ^ 2 := by
  have positive := circular.denominator_pos 0
  rw [factorTerm_succ, factorTerm_zero, circularFactor, abs_mul, abs_neg,
    abs_of_nonneg (show 0 ≤ exact ^ 2 / circularDenominator offset 0 by positivity)]
  field_simp

theorem abs_factorTerm_le (late : 1 ≤ index) :
    |factorTerm start (circularFactor offset exact) index| ≤ 11 / 2 := by
  induction index, late using Nat.le_induction with
  | base =>
      have positive := circular.denominator_pos 0
      have most := circular.most
      rw [← circular.abs_factorTerm_one] at most
      exact le_of_mul_le_mul_right most positive
  | succ index late ih =>
      have factor : |circularFactor offset exact index| ≤ 1 :=
        circular.abs_factor_le (circular.twelve_le late) (by norm_num) (by norm_num)
      rw [factorTerm_succ, abs_mul]
      nlinarith [abs_nonneg (factorTerm start (circularFactor offset exact) index)]

theorem one_le_abs_factorTerm (large : 7 / 2 ≤ exact ^ 2) :
    1 ≤ |factorTerm start (circularFactor offset exact) 1| := by
  have positive := circular.denominator_pos 0
  have counts := circular.counts large
  rw [← circular.abs_factorTerm_one] at counts
  refine le_of_mul_le_mul_right ?_ positive
  rwa [one_mul]

end IsCircular

/-! ### Computed terms -/

def nextCircular (square : Decimal) (offset : Nat) (scale : Int64) (index : Nat)
    (term : Decimal) : Outcome Decimal := do
  return -(← (term * square).divideAtScale (ofInt (circularDenominator offset index)) scale .halfEven)

theorem circularSeries_eq (angle first : Decimal) (offset : Nat) (scale : Int64) :
    circularSeries angle first offset scale =
      sumFrom (nextCircular ((angle * angle).setScale scale .halfEven) offset scale) first :=
  rfl

section Terms

variable {exact start : ℚ} (fractional : IsFractionalScale scale)
  (circular : IsCircular offset exact start) (squared : IsSquare scale exact square)
include fractional circular squared

theorem exists_nextCircular (isWithin : IsWithin scale term) (index : Nat) :
    ∃ following, nextCircular square offset scale index term = .ok following ∧
      following.scale = scale ∧
      |term.value * -(square.value / circularDenominator offset index) - following.value| ≤
        lastUnit scale / 2 := by
  have nonzero : (circularDenominator offset index : Int) ≠ 0 := by
    have positive := circular.denominator_pos index
    exact_mod_cast positive.ne'
  obtain ⟨quotient, divided, written, near⟩ :=
    isWithin.exists_divideAtScale_mul fractional squared.written nonzero
  refine ⟨-quotient, ?_, written, ?_⟩
  · rw [nextCircular, divided]
    rfl
  · rw [Int.cast_natCast, abs_sub_comm] at near
    rw [value_neg, mul_neg, neg_sub_neg, ← mul_div_assoc]
    exact near

omit fractional in
theorem isStep_of_near (within : |term.value| ≤ circularDenominator offset index)
    (written : following.scale = scale)
    (near : |term.value * -(square.value / circularDenominator offset index) - following.value| ≤
      lastUnit scale / 2) :
    IsStep scale (circularFactor offset exact index) term following := by
  have positive := circular.denominator_pos index
  have unit := lastUnit_pos scale
  have off := squared.near
  refine ⟨written, ?_⟩
  have split : term.value * circularFactor offset exact index - following.value =
      -(term.value * (exact ^ 2 - square.value) / circularDenominator offset index) +
        (term.value * -(square.value / circularDenominator offset index) - following.value) := by
    rw [circularFactor]
    field_simp
    ring
  have shared : |term.value * (exact ^ 2 - square.value) / circularDenominator offset index| ≤
      lastUnit scale / 2 := by
    rw [abs_div, abs_mul, abs_of_pos positive, div_le_iff₀ positive, mul_comm]
    exact mul_le_mul off within (abs_nonneg _) (by linarith)
  rw [split]
  refine (abs_add_le _ _).trans ?_
  rw [abs_neg]
  linarith

theorem abs_square_le : |square.value| ≤ 399 / 40 := by
  have unit := fractional.lastUnit_le
  have exactSquare := circular.sq_le
  have nonneg := sq_nonneg exact
  obtain ⟨lower, upper⟩ := abs_le.mp squared.near
  rw [abs_le]
  constructor
  · linarith
  · linarith

theorem shrinks_of_near (late : 1 ≤ index)
    (isTerm : IsTerm scale start (circularFactor offset exact) index term)
    (written : following.scale = scale)
    (near : |term.value * -(square.value / circularDenominator offset index) - following.value| ≤
      lastUnit scale / 2) : Shrinks index term following := by
  have unit := fractional.lastUnit_le
  have positive := circular.denominator_pos index
  have last := lastUnit_pos scale
  have size := abs_square_le fractional circular squared
  have ratio : |(-(square.value / circularDenominator offset index) : ℚ)| =
      |square.value| / circularDenominator offset index := by
    rw [abs_neg, abs_div, abs_of_pos positive]
  by_cases third : 3 * |square.value| ≤ circularDenominator offset index
  · refine .of_third isTerm.written written ?_ near
    rw [ratio, div_le_iff₀ positive]
    linarith
  · have single : index = 1 := by
      by_contra other
      have many : (30 : ℚ) ≤ circularDenominator offset index := by
        exact_mod_cast circular.thirty_le (show 2 ≤ index by omega)
      linarith
    subst single
    have twelve : (12 : ℚ) ≤ circularDenominator offset 1 := by
      exact_mod_cast circular.twelve_le (le_refl 1)
    have large : 7 / 2 ≤ exact ^ 2 := by
      obtain ⟨lower, upper⟩ := abs_le.mp squared.near
      rcases lt_abs.mp (show 4 < |square.value| by linarith) with above | below
      · linarith
      · linarith [sq_nonneg exact]
    have counts := circular.one_le_abs_factorTerm large
    have close := isTerm.near
    norm_num at close
    have above : 9 / 10 ≤ |term.value| := by
      have triangle := abs_sub_abs_le_abs_sub
        (factorTerm start (circularFactor offset exact) 1) term.value
      linarith
    have less : |following.value| < |term.value| := by
      have triangle := abs_sub_abs_le_abs_sub following.value
        (term.value * -(square.value / circularDenominator offset 1))
      have part : |square.value| / circularDenominator offset 1 ≤ 5 / 6 := by
        rw [div_le_iff₀ positive]
        linarith
      rw [abs_sub_comm, abs_mul, ratio] at triangle
      nlinarith [abs_nonneg term.value]
    exact .of_lt isTerm.written written less

theorem computes_circularSeries (isWithin : IsWithin scale first) (same : first.value = start) :
    Computes scale first (circularFactor offset exact) (nextCircular square offset scale) := by
  subst same
  constructor
  · obtain ⟨following, reached, written, near⟩ :=
      exists_nextCircular fractional circular squared isWithin 0
    exact ⟨following, reached, isStep_of_near circular squared circular.start written near⟩
  · intro index term late isTerm
    obtain ⟨following, reached, written, near⟩ := exists_nextCircular fractional circular squared
      (fractional.isWithin isTerm.written) index
    have within : |term.value| ≤ circularDenominator offset index := by
      have unit := fractional.lastUnit_le
      have many : (12 : ℚ) ≤ circularDenominator offset index := by
        exact_mod_cast circular.twelve_le late
      have size := circular.abs_factorTerm_le late
      have close := isTerm.near
      have two : ((min index 2 : Nat) : ℚ) ≤ 2 := by exact_mod_cast min_le_right index 2
      have last := lastUnit_pos scale
      have triangle := abs_sub_abs_le_abs_sub term.value
        (factorTerm first.value (circularFactor offset exact) index)
      rw [abs_sub_comm] at triangle
      nlinarith
    exact ⟨following, reached, isStep_of_near circular squared within written near,
      shrinks_of_near fractional circular squared late isTerm written near⟩

end Terms

theorem exists_circularSeries (fractional : IsFractionalScale scale)
    (circular : IsCircular offset angle.value first.value) (written : angle.scale = scale)
    (isWithin : IsWithin scale first) :
    ∃ sum, circularSeries angle first offset scale = .ok sum ∧
      SumsFrom (nextCircular ((angle * angle).setScale scale .halfEven) offset scale)
        (4 * scale.toInt.toNat + 7) first sum ∧
      SumsTo scale first.value (circularFactor offset angle.value) sum := by
  have squared : IsSquare scale angle.value ((angle * angle).setScale scale .halfEven) := by
    refine ⟨scale_setScale _ _ _, ?_⟩
    rw [sq]
    exact abs_mul_sub_setScale_le fractional written written
  have second := circular.abs_factorTerm_le (le_refl 1)
  obtain ⟨sum, ended, sums⟩ := exists_sumFrom fractional isWithin circular.settles
    (computes_circularSeries fractional circular squared isWithin rfl) (by linarith)
  refine ⟨sum, ?_, ended, sums⟩
  rw [circularSeries_eq]
  exact ended.reached

/-! ### Whole turns -/

/-- An angle with a million digits at most, of which no more stand in front of the point. -/
structure IsAngle (angle : Decimal) : Prop where
  digits : angle.digitCount ≤ 10 ^ 6
  size : |angle.value| < 10 ^ (10 ^ 6 : Nat)

/-- An angle between minus pi and pi, almost, that differs from another one by whole turns, up to
so many units of the scale. -/
structure IsReducedAngle (scale : Int64) (units : ℝ) (angle : ℚ) (reduced : Decimal) : Prop where
  written : reduced.scale = scale
  small : |reduced.value| ≤ 63 / 20
  near : ∃ turns : Int,
    |(angle : ℝ) - turns * (2 * Real.pi) - reduced.value| ≤ units * lastUnit scale

theorem IsReducedAngle.mono {units more : ℝ} {angle : ℚ} {reduced : Decimal} (fewer : units ≤ more)
    (isReduced : IsReducedAngle scale units angle reduced) :
    IsReducedAngle scale more angle reduced := by
  obtain ⟨turns, near⟩ := isReduced.near
  refine ⟨isReduced.written, isReduced.small, turns, near.trans ?_⟩
  exact mul_le_mul_of_nonneg_right fewer (cast_lastUnit_pos scale).le

def wholeTurns (angle halfTurn : ℚ) : Int :=
  RoundingMode.halfEven.round (angle / (2 * halfTurn))

theorem abs_wholeTurns_le {angle halfTurn : ℚ} {place : Int} (front : 0 ≤ place)
    (size : |angle| < 10 ^ (place + 1)) (large : 3 ≤ halfTurn) :
    |(wholeTurns angle halfTurn : ℚ)| ≤ 9 / 4 * 10 ^ place := by
  have near := RoundingMode.abs_sub_round_le (angle / (2 * halfTurn))
  have unit : (1 : ℚ) ≤ 10 ^ place := one_le_zpow₀ (by norm_num) front
  have quotient : |angle / (2 * halfTurn)| ≤ 10 / 6 * 10 ^ place := by
    rw [zpow_add_one₀ (by norm_num)] at size
    rw [abs_div, abs_of_pos (show 0 < 2 * halfTurn by linarith), div_le_iff₀ (by linarith)]
    nlinarith
  have triangle := abs_sub_abs_le_abs_sub (wholeTurns angle halfTurn : ℚ)
    (angle / (2 * halfTurn))
  rw [abs_sub_comm] at triangle
  rw [wholeTurns] at triangle ⊢
  linarith

theorem abs_sub_wholeTurns_le (angle : ℚ) {halfTurn : ℚ} (positive : 0 < halfTurn) :
    |angle - wholeTurns angle halfTurn * (2 * halfTurn)| ≤ halfTurn := by
  have near := RoundingMode.abs_sub_round_le (angle / (2 * halfTurn))
  have turn : 0 < 2 * halfTurn := by linarith
  have scaled : angle - wholeTurns angle halfTurn * (2 * halfTurn) =
      (angle / (2 * halfTurn) - wholeTurns angle halfTurn) * (2 * halfTurn) := by
    rw [sub_mul, div_mul_cancel₀ _ turn.ne']
  rw [scaled, abs_mul, abs_of_pos turn, wholeTurns]
  nlinarith

theorem isHalfTurn_of_near {half : ℚ} {units : ℝ} (fine : 13 ≤ scale.toInt)
    (few : units ≤ 2 * 10 ^ 6) (near : |Real.pi - half| ≤ units * lastUnit scale) :
    3 ≤ half ∧ half ≤ 629 / 200 := by
  have power : lastUnit scale ≤ 1 / 10 ^ 13 := lastUnit_le_one_div_pow fine
  have unit := (Rat.cast_le (K := ℝ)).mpr power
  have above := Real.pi_gt_d4
  have below := Real.pi_lt_d4
  have most := mul_le_mul_of_nonneg_right few (cast_lastUnit_pos scale).le
  obtain ⟨lower, upper⟩ := abs_le.mp near
  norm_num at unit
  have least : (3 : ℝ) ≤ half := by linarith
  have greatest : (half : ℝ) ≤ (629 / 200 : ℚ) := by
    push_cast
    linarith
  exact ⟨by exact_mod_cast least, by exact_mod_cast greatest⟩

theorem lastUnit_mul_zpow {fine : Int64} {place : Int}
    (digits : fine.toInt = scale.toInt + place + 2) :
    lastUnit fine * 10 ^ place = lastUnit scale / 100 := by
  have ten : (10 : ℚ) ≠ 0 := by norm_num
  have split : -fine.toInt = -scale.toInt + -2 + -place := by
    rw [digits]
    ring
  have cancel : (10 : ℚ) ^ (-place) * 10 ^ place = 1 := by
    rw [← zpow_add₀ ten, neg_add_cancel, zpow_zero]
  rw [lastUnit, lastUnit, split, zpow_add₀ ten, zpow_add₀ ten, mul_assoc, cancel, mul_one]
  norm_num
  ring

section Turns

variable {fine : Int64} {exact half : ℚ} {units : ℝ} {place : Int} {reduced : Decimal}
  (front : 0 ≤ place) (size : |exact| < 10 ^ (place + 1))
  (digits : fine.toInt = scale.toInt + place + 2)
  (near : |Real.pi - half| ≤ units * lastUnit fine)
  (rounded : |exact - wholeTurns exact half * (2 * half) - reduced.value| ≤ lastUnit scale / 2)

/-- What the nearest number of turns leaves, rounded to a scale, is about half a turn at most. -/
theorem abs_le_of_rounded (bounds : 3 ≤ half ∧ half ≤ 629 / 200) (coarse : lastUnit scale ≤ 1 / 10 ^ 2)
    (rounded : |exact - wholeTurns exact half * (2 * half) - reduced.value| ≤ lastUnit scale / 2) :
    |reduced.value| ≤ 63 / 20 := by
  obtain ⟨lower, upper⟩ := bounds
  have left := abs_sub_wholeTurns_le exact (show 0 < half by linarith)
  have triangle := abs_sub_abs_le_abs_sub reduced.value (exact - wholeTurns exact half * (2 * half))
  rw [abs_sub_comm reduced.value] at triangle
  linarith

include front size digits near rounded

theorem abs_sub_turns_le (large : 3 ≤ half) :
    |(exact : ℝ) - wholeTurns exact half * (2 * Real.pi) - reduced.value| ≤
      (9 / 200 * units + 1 / 2) * lastUnit scale := by
  have turns := abs_wholeTurns_le front size large
  have apart : (exact : ℝ) - wholeTurns exact half * (2 * Real.pi) - reduced.value =
      (exact - wholeTurns exact half * (2 * half) - reduced.value) -
        2 * wholeTurns exact half * (Real.pi - half) := by
    ring
  have real := (Rat.cast_le (K := ℝ)).mpr rounded
  have real' := (Rat.cast_le (K := ℝ)).mpr turns
  push_cast at real real'
  have unit := congrArg (Rat.cast (K := ℝ)) (lastUnit_mul_zpow digits)
  push_cast at unit
  have product : |2 * (wholeTurns exact half : ℝ) * (Real.pi - half)| ≤
      9 / 200 * units * lastUnit scale := by
    rw [abs_mul, abs_mul, abs_of_pos two_pos]
    calc
      2 * |(wholeTurns exact half : ℝ)| * |Real.pi - half| ≤
          2 * (9 / 4 * 10 ^ place) * (units * lastUnit fine) := by
        gcongr
      _ = 9 / 2 * units * (lastUnit fine * 10 ^ place) := by
        ring
      _ = 9 / 200 * units * lastUnit scale := by
        rw [unit]
        ring
  rw [apart]
  refine (abs_sub _ _).trans ?_
  linarith

end Turns

theorem isReducedAngle_of_near {fine : Int64} {angle half : ℚ} {units : ℝ} {place : Int}
    {reduced : Decimal} (written : reduced.scale = scale) (least : 11 ≤ scale.toInt)
    (front : 0 ≤ place) (size : |angle| < 10 ^ (place + 1))
    (digits : fine.toInt = scale.toInt + place + 2) (few : units ≤ 2 * 10 ^ 6)
    (near : |Real.pi - half| ≤ units * lastUnit fine)
    (rounded : |angle - wholeTurns angle half * (2 * half) - reduced.value| ≤
      lastUnit scale / 2) :
    IsReducedAngle scale (9 / 200 * units + 1 / 2) angle reduced := by
  have bounds := isHalfTurn_of_near (by omega) few near
  have coarse : lastUnit scale ≤ 1 / 10 ^ 2 := lastUnit_le_one_div_pow (by omega)
  refine ⟨written, abs_le_of_rounded bounds coarse rounded, wholeTurns angle half, ?_⟩
  exact abs_sub_turns_le front size digits near rounded bounds.1

theorem divideAtScale_turn {turn : Decimal} {half : ℚ} (value : turn.value = 2 * half)
    (positive : 0 < half)
    (few : |angle.scale.toInt - turn.scale.toInt| ≤ largestExponent) :
    angle.divideAtScale turn 0 .halfEven = .ok (ofInt (wholeTurns angle.value half)) := by
  have some : turn.value ≠ 0 := by
    rw [value]
    linarith
  have exponent : |quotientExponent angle turn 0| ≤ largestExponent := by
    rw [quotientExponent, Int64.toInt_zero, zero_add, abs_sub_comm]
    exact few
  rw [divideAtScale_eq_ok .halfEven some (by rw [Int64.toInt_zero, zero_add]; exact isWord_toInt _)
    exponent, value, Int64.toInt_zero, zpow_zero, mul_one]
  rfl

theorem le_three_iff (comparable : Comparable angle.abs 3) : angle.abs ≤ 3 ↔ |angle.value| ≤ 3 := by
  have three : (3 : Decimal).value = 3 := by exact_mod_cast value_ofInt 3
  rw [le_iff_value_le comparable, value_abs, three]

theorem reducedAngle_of_small (comparable : Comparable angle.abs 3) (small : |angle.value| ≤ 3) :
    reducedAngle angle scale = Checked.setScale angle scale .halfEven := by
  rw [reducedAngle, requireWords_bind_of comparable, if_pos ((le_three_iff comparable).mpr small)]

/-- Turns that are taken off an angle.  Half of one has as many digits behind the scale as the angle
has in front of the point, and two more. -/
structure TakesOff (angle : Decimal) (scale inner : Int64) (half turns : Decimal) : Prop where
  places : inner.toInt = scale.toInt + firstPlace angle.value + 2
  found : piAtScale inner = .ok half
  divided : angle.divideAtScale (2 * half) 0 .halfEven = .ok turns
  aligned : Aligned angle (turns * (2 * half))
  meets : (angle - turns * (2 * half)).Meets scale

theorem firstPlace_nonneg_of_large {exact : ℚ} (large : 3 < |exact|) : 0 ≤ firstPlace exact := by
  apply le_firstPlace_of_le_abs
  rw [zpow_zero]
  linarith

section Large

variable (comparable : Comparable angle.abs 3) (large : 3 < |angle.value|)
include comparable large

theorem reducedAngle_eq_ok {half turns : Decimal} {inner : Int64}
    (leading : IsWord (firstPlace angle.value)) (takesOff : TakesOff angle scale inner half turns) :
    reducedAngle angle scale = .ok ((angle - turns * (2 * half)).setScale scale .halfEven) := by
  have nonzero : angle.value ≠ 0 := abs_pos.mp (by linarith)
  have front := firstPlace_nonneg_of_large large
  obtain ⟨first, counted, place⟩ := Checked.exists_word leading
  have counted' := (Checked.leadingExponent_eq_ok_iff nonzero).mpr place
  have placed : Checked.word (scale.toInt + max first.toInt 0 + 2) = .ok inner := by
    refine Checked.word_eq_ok_iff.mpr ?_
    rw [place, max_eq_left front, ← takesOff.places]
    exact ⟨isWord_toInt inner, rfl⟩
  rw [reducedAngle, requireWords_bind_of comparable,
    if_neg (mt (le_three_iff comparable).mp (not_le.mpr large)), counted']
  change Checked.word _ >>= _ = _
  rw [placed]
  change piAtScale inner >>= _ = _
  rw [takesOff.found]
  change angle.divideAtScale (2 * half) 0 .halfEven >>= _ = _
  rw [takesOff.divided]
  change Checked.sub angle (turns * (2 * half)) >>= _ = _
  rw [Checked.sub, unlessOverflow_of takesOff.aligned]
  exact unlessOverflow_of takesOff.meets

theorem exists_takesOff {reduced : Decimal} (reached : reducedAngle angle scale = .ok reduced) :
    ∃ (inner : Int64) (half turns : Decimal), TakesOff angle scale inner half turns ∧
      reduced = (angle - turns * (2 * half)).setScale scale .halfEven := by
  have nonzero : angle.value ≠ 0 := abs_pos.mp (by linarith)
  have front := firstPlace_nonneg_of_large large
  rw [reducedAngle, requireWords_bind_of comparable,
    if_neg (mt (le_three_iff comparable).mp (not_le.mpr large))] at reached
  obtain ⟨first, counted, reached⟩ := bind_eq_ok_iff.mp reached
  obtain ⟨inner, placed, reached⟩ := bind_eq_ok_iff.mp reached
  obtain ⟨half, found, reached⟩ := bind_eq_ok_iff.mp reached
  obtain ⟨turns, divided, reached⟩ := bind_eq_ok_iff.mp reached
  obtain ⟨rest, subtracted, reached⟩ := bind_eq_ok_iff.mp reached
  obtain ⟨aligned, rfl⟩ := unlessOverflow_eq_ok_iff.mp subtracted
  obtain ⟨meets, rfl⟩ := unlessOverflow_eq_ok_iff.mp reached
  have places := (Checked.word_eq_ok_iff.mp placed).2
  rw [(Checked.leadingExponent_eq_ok_iff nonzero).mp counted, max_eq_left front] at places
  exact ⟨inner, half, turns, ⟨places, found, divided, aligned, meets⟩, rfl⟩

end Large

section Reduces

variable {half : Decimal}

theorem isReducedAngle_setScale (reaches : angle.Reaches scale) (short : angle.IsShort)
    (least : 1 ≤ scale.toInt) (small : |angle.value| ≤ 3) :
    IsReducedAngle scale (1 / 2) angle.value (angle.setScale scale .halfEven) := by
  have rounded := abs_sub_round_mul_le angle.value scale
  rw [← setScale_eq .halfEven reaches fun _ => short] at rounded
  have unit : lastUnit scale ≤ 1 / 10 ^ 1 := lastUnit_le_one_div_pow least
  refine ⟨scale_setScale _ _ _, ?_, 0, ?_⟩
  · have triangle := abs_sub_abs_le_abs_sub (angle.setScale scale .halfEven).value angle.value
    rw [abs_sub_comm] at triangle
    linarith
  · have real := (Rat.cast_le (K := ℝ)).mpr rounded
    have positive := cast_lastUnit_pos scale
    push_cast at real
    rw [Int.cast_zero, zero_mul, sub_zero]
    linarith

/-- Large angles lose the nearest number of turns at the scale of a turn, and what is left is
rounded to the scale. -/
theorem exists_reducedAngle_of_halfTurn {inner : Int64} (comparable : Comparable angle.abs 3)
    (large : 3 < |angle.value|) (leading : firstPlace angle.value ≤ largestExponent)
    (places : inner.toInt = scale.toInt + firstPlace angle.value + 2)
    (found : piAtScale inner = .ok half) (written : half.scale = inner) (positive : 0 < half.value)
    (few : inner.toInt ≤ scale.toInt + largestExponent)
    (upper : angle.scale.toInt ≤ largestExponent) (least : 0 ≤ scale.toInt)
    (near : |angle.scale.toInt - inner.toInt| ≤ largestExponent) :
    ∃ reduced, reducedAngle angle scale = .ok reduced ∧ reduced.scale = scale ∧
      |angle.value - wholeTurns angle.value half.value * (2 * half.value) - reduced.value| ≤
        lastUnit scale / 2 := by
  have room : largestExponent < 2 ^ 61 := by decide
  have front := firstPlace_nonneg_of_large large
  have turnValue : (2 * half).value = 2 * half.value := by exact_mod_cast value_ofInt_mul 2 half
  have turnWritten : (2 * half).scale = inner := (scale_ofInt_mul 2 half).trans written
  have divided := divideAtScale_turn turnValue positive
    (show |angle.scale.toInt - (2 * half).scale.toInt| ≤ largestExponent by rwa [turnWritten])
  have whole := (scale_ofInt_mul (wholeTurns angle.value half.value) (2 * half)).trans turnWritten
  have wholeValue := value_ofInt_mul (wholeTurns angle.value half.value) (2 * half)
  obtain ⟨below, above⟩ := abs_le.mp near
  have common := toInt_commonScale angle (ofInt (wholeTurns angle.value half.value) * (2 * half))
  rw [whole] at common
  have aligned : Aligned angle (ofInt (wholeTurns angle.value half.value) * (2 * half)) :=
    ⟨Or.inr (by omega), Or.inr (by rw [whole]; omega)⟩
  have restScale : (angle - ofInt (wholeTurns angle.value half.value) * (2 * half)).scale.toInt =
      max angle.scale.toInt inner.toInt := common
  have rest := value_sub aligned
  rw [wholeValue, turnValue] at rest
  have rounded := abs_sub_round_mul_le
    (angle - ofInt (wholeTurns angle.value half.value) * (2 * half)).value scale
  rw [← setScale_eq .halfEven (Or.inr (by omega)) (by omega), rest] at rounded
  refine ⟨_, reducedAngle_eq_ok comparable large ⟨by omega, leading.trans_lt (by decide)⟩
    ⟨places, found, divided, aligned, Or.inr (by omega), by omega⟩, scale_setScale _ _ _, rounded⟩

end Reduces

namespace IsAngle

theorem firstPlace_lt (isAngle : IsAngle angle) (nonzero : angle.value ≠ 0) :
    firstPlace angle.value < 10 ^ 6 := by
  have size := isAngle.size
  rw [← zpow_natCast] at size
  exact firstPlace_lt_of_abs_lt nonzero size

theorem scale_ge (isAngle : IsAngle angle) (nonzero : angle.value ≠ 0) :
    -10 ^ 6 ≤ angle.scale.toInt := by
  have first := isAngle.firstPlace_lt nonzero
  have places := firstPlace_value nonzero
  have count : 1 ≤ angle.digitCount := Digits.count_pos _
  omega

theorem reaches (isAngle : IsAngle angle) (target : Int64) (far : target.toInt < 2 ^ 63 - 10 ^ 6) :
    angle.Reaches target := by
  by_cases zero : angle.value = 0
  · exact Or.inl (value_eq_zero_iff.mp zero)
  · have lower := isAngle.scale_ge zero
    exact Or.inr (by omega)

theorem comparable (isAngle : IsAngle angle) : Comparable angle.abs 3 := by
  intro same
  have common := toInt_commonScale angle.abs 3
  have three : (3 : Decimal).scale.toInt = 0 := by decide
  have abs : angle.abs.scale.toInt = angle.scale.toInt := rfl
  have upper := angle.scale.toInt_lt
  have nonzero : angle.value ≠ 0 := by
    intro zero
    have sign : angle.abs.sign = 0 := by
      rw [sign, show angle.abs.unscaled = angle.unscaled.natAbs from rfl,
        value_eq_zero_iff.mp zero]
      rfl
    rw [sign] at same
    exact absurd same (by decide)
  have lower := isAngle.scale_ge nonzero
  exact ⟨Or.inr (by omega), Or.inr (by omega)⟩

section Reduction

variable (isAngle : IsAngle angle) (least : 11 ≤ scale.toInt) (few : scale.toInt ≤ 2 * 10 ^ 6)
include isAngle least few

theorem exists_reducedAngle_of_small (small : |angle.value| ≤ 3) :
    ∃ reduced, reducedAngle angle scale = .ok reduced ∧
      IsReducedAngle scale 100 angle.value reduced := by
  refine ⟨angle.setScale scale .halfEven, ?_, .mono (by norm_num) <| isReducedAngle_setScale
    (isAngle.reaches scale (by omega)) (isAngle.digits.trans (by decide)) (by omega) small⟩
  have upper := angle.scale.toInt_lt
  rw [reducedAngle_of_small isAngle.comparable small]
  exact unlessOverflow_of ⟨isAngle.reaches scale (by omega), by omega⟩

/-- Large angles lose whole turns, and a turn has a digit more for each digit of their number. -/
theorem exists_reducedAngle_of_large (large : 3 < |angle.value|) :
    ∃ reduced, reducedAngle angle scale = .ok reduced ∧
      IsReducedAngle scale 100 angle.value reduced := by
  have room : 10 ^ 7 ≤ largestExponent := by decide
  have nonzero : angle.value ≠ 0 := abs_pos.mp (by linarith)
  have digits := isAngle.digits
  have count : 1 ≤ angle.digitCount := Digits.count_pos _
  have places := firstPlace_value nonzero
  have below := isAngle.firstPlace_lt nonzero
  have front := firstPlace_nonneg_of_large large
  obtain ⟨inner, -, inside⟩ : ∃ inner : Int64, _ ∧
      inner.toInt = scale.toInt + firstPlace angle.value + 2 :=
    Checked.exists_word ⟨by omega, by omega⟩
  obtain ⟨half, found, written, near⟩ :=
    exists_piAtScale_near (show 0 ≤ inner.toInt by omega) (by omega)
  have positive : 0 < half.value := by
    linarith [(isHalfTurn_of_near (by omega) (by norm_num) near).1]
  have close : |angle.scale.toInt - inner.toInt| ≤ largestExponent := by
    rw [inside, abs_le]
    omega
  obtain ⟨reduced, reached, writtenAt, rounded⟩ := exists_reducedAngle_of_halfTurn
    isAngle.comparable large (by omega) inside found written positive (by omega) (by omega)
    (by omega) close
  refine ⟨reduced, reached, .mono (by norm_num) <| isReducedAngle_of_near writtenAt least front
    (lt_zpow_firstPlace angle.value) inside (by norm_num) near rounded⟩

theorem exists_reducedAngle :
    ∃ reduced, reducedAngle angle scale = .ok reduced ∧
      IsReducedAngle scale 100 angle.value reduced := by
  rcases le_or_gt |angle.value| 3 with small | large
  · exact isAngle.exists_reducedAngle_of_small least few small
  · exact isAngle.exists_reducedAngle_of_large least few large

end Reduction

end IsAngle

/-! ### Sine and cosine -/

/-- A function that repeats itself after a turn, and moves by no more than the angle, takes almost
the same value at a reduced angle. -/
theorem IsReducedAngle.abs_sub_le {function : ℝ → ℝ} {units : ℝ} {angle : ℚ} {reduced : Decimal}
    (periodic : ∀ (angle : ℝ) (turns : Int), function (angle - turns * (2 * Real.pi)) = function angle)
    (slow : ∀ first second : ℝ, |function first - function second| ≤ |first - second|)
    (isReduced : IsReducedAngle scale units angle reduced) :
    |function angle - function reduced.value| ≤ units * lastUnit scale := by
  obtain ⟨turns, near⟩ := isReduced.near
  rw [← periodic angle turns]
  exact (slow _ _).trans near

/-- A sum at a scale that is so close to the value of a function that rounding it to the digits
of a precision is all that counts. -/
structure IsCircularSum (scale : Int64) (exact : ℝ) (sum : Decimal) : Prop where
  isWithin : IsWithin scale sum
  near : |exact - sum.value| ≤ (8 * scale.toInt + 114) * lastUnit scale

theorem isCircularSum_of_sumsTo {start : ℚ} {factor : Nat → ℚ} {sum : Decimal} {exact limit : ℝ}
    (sums : SumsTo scale start factor sum)
    (tends : Filter.Tendsto (fun count => (factorSum start factor count : ℝ)) Filter.atTop
      (nhds limit))
    (moved : |exact - limit| ≤ 100 * lastUnit scale) : IsCircularSum scale exact sum := by
  have close := sums.abs_limit_sub_le tends
  have triangle := abs_sub_le exact limit sum.value
  exact ⟨sums.isWithin, by linarith⟩

section Scale

variable (isAngle : IsAngle angle) (least : 11 ≤ scale.toInt) (few : scale.toInt ≤ 2 * 10 ^ 6)
include isAngle least few

theorem exists_sinAtScale :
    ∃ sum, sinAtScale angle scale = .ok sum ∧ IsCircularSum scale (Real.sin angle.value) sum := by
  have fractional := isFractionalScale_of_le (by omega) (few.trans (by norm_num))
  obtain ⟨reduced, found, isReduced⟩ := isAngle.exists_reducedAngle least few
  obtain ⟨sum, summed, -, sums⟩ := exists_circularSeries fractional (isCircular_sin isReduced.small)
    isReduced.written (fractional.isWithin isReduced.written)
  refine ⟨sum, ?_, isCircularSum_of_sumsTo sums (tendsto_factorSum_sin _) ?_⟩
  · rw [sinAtScale, found]
    exact summed
  · exact isReduced.abs_sub_le Real.sin_sub_int_mul_two_pi Real.abs_sin_sub_sin_le

theorem exists_cosAtScale :
    ∃ sum, cosAtScale angle scale = .ok sum ∧ IsCircularSum scale (Real.cos angle.value) sum := by
  have fractional := isFractionalScale_of_le (by omega) (few.trans (by norm_num))
  obtain ⟨reduced, found, isReduced⟩ := isAngle.exists_reducedAngle least few
  have circular := isCircular_cos isReduced.small
  rw [← value_one] at circular
  obtain ⟨sum, summed, -, sums⟩ := exists_circularSeries fractional circular isReduced.written
    (isWithin_one fractional)
  rw [value_one] at sums
  refine ⟨sum, ?_, isCircularSum_of_sumsTo sums (tendsto_factorSum_cos _) ?_⟩
  · rw [cosAtScale, found]
    exact summed
  · exact isReduced.abs_sub_le Real.cos_sub_int_mul_two_pi Real.abs_cos_sub_cos_le

end Scale

theorem IsCircularSum.abs_sub_roundToPrecision_le {exact : ℝ} {sum : Decimal}
    (least : 1 ≤ precision.toNat) (few : precision.toNat ≤ 10 ^ 6) (bounded : |exact| ≤ 1)
    (summed : IsCircularSum precision.seriesScale exact sum) :
    |exact - (sum.roundToPrecision precision).value| ≤ 10 ^ (-precision.toNat : Int) := by
  have places := toInt_seriesScale (show precision.toNat + 10 < 2 ^ 32 by omega)
  obtain ⟨⟨nonneg, within⟩, near⟩ := summed
  refine Elementary.abs_sub_roundToPrecision_le least (by omega) nonneg (by omega) bounded
    (near.trans ?_)
  have unit : (lastUnit precision.seriesScale : ℝ) = 10 ^ (-precision.toNat : Int) / 10 ^ 10 := by
    rw [lastUnit, places, neg_add, Rat.cast_zpow, zpow_add₀ (by norm_num)]
    norm_num
    ring
  have positive : (0 : ℝ) < 10 ^ (-precision.toNat : Int) := zpow_pos (by norm_num) _
  have steps : (8 * precision.seriesScale.toInt + 114 : ℝ) ≤ 10 ^ 9 := by
    have most : (precision.seriesScale.toInt : ℝ) ≤ 10 ^ 6 + 10 := by
      exact_mod_cast (by omega : precision.seriesScale.toInt ≤ 10 ^ 6 + 10)
    linarith
  rw [unit]
  nlinarith

theorem exists_roundToPrecision {exact : ℝ} {outcome : Outcome Decimal}
    (least : 1 ≤ precision.toNat) (few : precision.toNat ≤ 10 ^ 6) (bounded : |exact| ≤ 1)
    (computed : ∃ sum, outcome = .ok sum ∧ IsCircularSum precision.seriesScale exact sum) :
    ∃ result, (requireWords precision.Guards >>= fun _ => outcome >>= fun sum =>
        pure (sum.roundToPrecision precision)) = .ok result ∧
      |(result.value : ℝ) - exact| ≤ 10 ^ (-precision.toNat : Int) := by
  obtain ⟨sum, rfl, summed⟩ := computed
  have guards : precision.Guards := Precision.guards_of_lt (by omega)
  refine ⟨sum.roundToPrecision precision, requireWords_bind_of guards, ?_⟩
  rw [abs_sub_comm]
  exact summed.abs_sub_roundToPrecision_le least few bounded

/-- Sine and cosine of an angle are right to the last place behind the point that the precision
counts, however many turns the angle has. -/
theorem sin_cos_approximate (angle : Decimal) (precision : Precision) (least : 1 ≤ precision.toNat)
    (few : precision.toNat ≤ 10 ^ 6) (isAngle : IsAngle angle) :
    (∃ result, sin angle precision = .ok result ∧
      |(result.value : ℝ) - Real.sin angle.value| ≤ 10 ^ (-precision.toNat : Int)) ∧
    ∃ result, cos angle precision = .ok result ∧
      |(result.value : ℝ) - Real.cos angle.value| ≤ 10 ^ (-precision.toNat : Int) := by
  have places := toInt_seriesScale (show precision.toNat + 10 < 2 ^ 32 by omega)
  have least' : 11 ≤ precision.seriesScale.toInt := by omega
  have few' : precision.seriesScale.toInt ≤ 2 * 10 ^ 6 := by omega
  constructor
  · exact exists_roundToPrecision least few (Real.abs_sin_le_one _)
      (exists_sinAtScale isAngle least' few')
  · exact exists_roundToPrecision least few (Real.abs_cos_le_one _)
      (exists_cosAtScale isAngle least' few')

theorem sin_cos_approximate_large :
    (∃ result, sin ⟨1, -999999⟩ 1000000 = .ok result ∧
      |(result.value : ℝ) - Real.sin (⟨1, -999999⟩ : Decimal).value| ≤
        10 ^ (-(1000000 : Precision).toNat : Int)) ∧
    ∃ result, cos ⟨1, -999999⟩ 1000000 = .ok result ∧
      |(result.value : ℝ) - Real.cos (⟨1, -999999⟩ : Decimal).value| ≤
        10 ^ (-(1000000 : Precision).toNat : Int) := by
  refine sin_cos_approximate ⟨1, -999999⟩ 1000000 (by decide) (by decide) ⟨by decide, ?_⟩
  have nonzero : (⟨1, -999999⟩ : Decimal).value ≠ 0 := mt value_eq_zero_iff.mp (by decide)
  have place : firstPlace (⟨1, -999999⟩ : Decimal).value = 999999 := firstPlace_value nonzero
  have below := lt_zpow_firstPlace (⟨1, -999999⟩ : Decimal).value
  rw [place, show (999999 + 1 : Int) = (10 ^ 6 : Nat) by norm_num, zpow_natCast] at below
  exact below

end Elementary
end DecimalCalculator
