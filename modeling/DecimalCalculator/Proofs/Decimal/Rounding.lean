/-
Rounding is rounding of the value.

The quotient of two integers is rounded as the rational number that they stand for,
so a number that is brought to a scale depends on its value alone.
-/

import Mathlib
import DecimalCalculator.Decimal.Rounding
import DecimalCalculator.Proofs.Decimal.Rational

namespace DecimalCalculator

/-! ### The rule on rational numbers -/

namespace RoundingMode

/-- The nearest integer, or the given one halfway between two integers. -/
def nearestOr (middle : Int) (value : ℚ) : Int :=
  match cmp (Int.fract value) (1 / 2) with
  | .lt => ⌊value⌋
  | .eq => middle
  | .gt => ⌈value⌉

def round (mode : RoundingMode) (value : ℚ) : Int :=
  match mode with
  | .halfEven => nearestOr (if ⌊value⌋ % 2 = 0 then ⌊value⌋ else ⌈value⌉) value
  | .halfUp => nearestOr (if value < 0 then ⌊value⌋ else ⌈value⌉) value
  | .halfDown => nearestOr (if value < 0 then ⌈value⌉ else ⌊value⌋) value
  | .down => if value < 0 then ⌈value⌉ else ⌊value⌋
  | .floor => ⌊value⌋
  | .ceiling => ⌈value⌉

theorem round_intCast (mode : RoundingMode) (number : Int) : mode.round number = number := by
  have less : cmp (0 : ℚ) (1 / 2) = .lt := (cmp_eq_lt_iff _ _).mpr (by norm_num)
  cases mode <;> simp only [round, nearestOr, Int.fract_intCast, Int.floor_intCast,
    Int.ceil_intCast, less, ite_self]

variable {truncated : Int} {rest : ℚ}

theorem round_add (mode : RoundingMode) (front : 0 ≤ truncated) (positive : 0 < rest)
    (proper : rest < 1) :
    mode.round (truncated + rest) =
      if mode.leavesTruncation (cmp rest (1 / 2)) true (truncated % 2 != 0) then truncated + 1
      else truncated := by
  have below : ⌊(truncated : ℚ) + rest⌋ = truncated := by
    rw [Int.floor_eq_iff]
    constructor
    · linarith
    · linarith
  have above : ⌈(truncated : ℚ) + rest⌉ = truncated + 1 := by
    rw [Int.ceil_eq_iff]
    push_cast
    constructor
    · linarith
    · linarith
  have unsigned : ¬(truncated : ℚ) + rest < 0 := by
    have := Int.cast_nonneg (R := ℚ) front
    linarith
  have fraction : Int.fract ((truncated : ℚ) + rest) = rest := by
    rw [Int.fract, below, add_sub_cancel_left]
  simp only [round, nearestOr, below, above, unsigned, fraction, if_false]
  generalize cmp rest (1 / 2) = order
  cases mode <;> cases order <;> simp [leavesTruncation]
  split <;> omega

theorem round_sub (mode : RoundingMode) (front : truncated ≤ 0) (positive : 0 < rest)
    (proper : rest < 1) :
    mode.round (truncated - rest) =
      if mode.leavesTruncation (cmp rest (1 / 2)) false (truncated % 2 != 0) then truncated - 1
      else truncated := by
  have below : ⌊(truncated : ℚ) - rest⌋ = truncated - 1 := by
    rw [Int.floor_eq_iff]
    push_cast
    constructor
    · linarith
    · linarith
  have above : ⌈(truncated : ℚ) - rest⌉ = truncated := by
    rw [Int.ceil_eq_iff]
    constructor
    · linarith
    · linarith
  have negative : (truncated : ℚ) - rest < 0 := by
    have := Int.cast_nonpos (R := ℚ) |>.mpr front
    linarith
  have fraction : cmp (Int.fract ((truncated : ℚ) - rest)) (1 / 2) =
      (cmp rest (1 / 2)).swap := by
    have difference : Int.fract ((truncated : ℚ) - rest) = 1 - rest := by
      rw [Int.fract, below]
      push_cast
      ring
    rw [difference]
    rcases lt_trichotomy rest (1 / 2) with less | same | more
    · rw [(cmp_eq_lt_iff _ _).mpr less, (cmp_eq_gt_iff _ _).mpr (by linarith)]
      rfl
    · rw [(cmp_eq_eq_iff _ _).mpr same, (cmp_eq_eq_iff _ _).mpr (by linarith)]
      rfl
    · rw [(cmp_eq_gt_iff _ _).mpr more, (cmp_eq_lt_iff _ _).mpr (by linarith)]
      rfl
  simp only [round, nearestOr, below, above, negative, fraction, if_true]
  generalize cmp rest (1 / 2) = order
  cases mode <;> cases order <;> simp [leavesTruncation]
  split <;> omega

/-! ### Quotients of integers -/

theorem natCast_div_eq {divisor : Nat} (dividend : Nat) (positive : 0 < divisor) :
    (dividend : ℚ) / divisor =
      (dividend / divisor : Nat) + ((dividend % divisor : Nat) : ℚ) / divisor := by
  have nonzero : (divisor : ℚ) ≠ 0 := Nat.cast_ne_zero.mpr positive.ne'
  rw [eq_comm, add_div' _ _ _ nonzero]
  congr 1
  rw [mul_comm]
  exact_mod_cast Nat.div_add_mod dividend divisor

theorem compare_double {remainder divisor : Nat} (positive : 0 < divisor) :
    compare (2 * remainder) divisor = cmp ((remainder : ℚ) / divisor) (1 / 2) := by
  have scale : (0 : ℚ) < divisor := Nat.cast_pos.mpr positive
  rcases lt_trichotomy (2 * remainder) divisor with less | same | more
  · rw [Nat.compare_eq_lt.mpr less, eq_comm, cmp_eq_lt_iff, div_lt_div_iff₀ scale two_pos]
    have := Nat.cast_lt (α := ℚ) |>.mpr less
    push_cast at this
    linarith
  · rw [Nat.compare_eq_eq.mpr same, eq_comm, cmp_eq_eq_iff, div_eq_div_iff scale.ne' two_ne_zero]
    have := congrArg (Nat.cast (R := ℚ)) same
    push_cast at this
    linarith
  · rw [Nat.compare_eq_gt.mpr more, eq_comm, cmp_eq_gt_iff, div_lt_div_iff₀ two_pos scale]
    have := Nat.cast_lt (α := ℚ) |>.mpr more
    push_cast at this
    linarith

theorem tdiv_of_sameSign {dividend divisor : Int} (same : dividend < 0 ↔ divisor < 0) :
    dividend.tdiv divisor = (dividend.natAbs / divisor.natAbs : Nat) ∧
      (dividend : ℚ) / divisor = (dividend.natAbs : ℚ) / divisor.natAbs := by
  obtain ⟨size, rfl | rfl⟩ := dividend.eq_nat_or_neg
  · obtain ⟨unit, rfl | rfl⟩ := divisor.eq_nat_or_neg
    · simp
    · obtain rfl : unit = 0 := by omega
      simp
  · obtain ⟨unit, rfl | rfl⟩ := divisor.eq_nat_or_neg
    · obtain rfl : size = 0 := by omega
      simp
    · simp

theorem tdiv_of_oppositeSigns {dividend divisor : Int} (different : ¬(dividend < 0 ↔ divisor < 0)) :
    dividend.tdiv divisor = -(dividend.natAbs / divisor.natAbs : Nat) ∧
      (dividend : ℚ) / divisor = -((dividend.natAbs : ℚ) / divisor.natAbs) := by
  obtain ⟨size, rfl | rfl⟩ := dividend.eq_nat_or_neg
  · obtain ⟨unit, rfl | rfl⟩ := divisor.eq_nat_or_neg
    · exact absurd (iff_of_false (by omega) (by omega)) different
    · simp [div_neg]
  · obtain ⟨unit, rfl | rfl⟩ := divisor.eq_nat_or_neg
    · simp [neg_div]
    · obtain rfl | rfl : size = 0 ∨ unit = 0 := by omega
      · simp
      · simp

/-- The quotient of integers is rounded as the rational number that they stand for. -/
theorem quotient_eq_round (mode : RoundingMode) (dividend : Int) {divisor : Int}
    (nonzero : divisor ≠ 0) :
    mode.quotient dividend divisor = mode.round (dividend / divisor) := by
  have length : (dividend - dividend.tdiv divisor * divisor).natAbs =
      dividend.natAbs % divisor.natAbs := by
    rw [mul_comm, ← Int.tmod_def, Int.natAbs_tmod]
  have positive : 0 < divisor.natAbs := Int.natAbs_pos.mpr nonzero
  have scale : (0 : ℚ) < divisor.natAbs := Nat.cast_pos.mpr positive
  unfold quotient
  by_cases whole : dividend - dividend.tdiv divisor * divisor = 0
  · have exact : (dividend : ℚ) / divisor = (dividend.tdiv divisor : Int) := by
      rw [div_eq_iff (Int.cast_ne_zero.mpr nonzero), ← Int.cast_mul, ← Int.sub_eq_zero.mp whole]
    rw [exact, round_intCast]
    exact if_pos whole
  · have rest : 0 < dividend.natAbs % divisor.natAbs := by
      rw [← length, Int.natAbs_pos]
      exact whole
    have fraction : (0 : ℚ) < ((dividend.natAbs % divisor.natAbs : Nat) : ℚ) / divisor.natAbs :=
      div_pos (Nat.cast_pos.mpr rest) scale
    have proper : ((dividend.natAbs % divisor.natAbs : Nat) : ℚ) / divisor.natAbs < 1 := by
      rw [div_lt_one scale, Nat.cast_lt]
      exact Nat.mod_lt _ positive
    simp only [whole, if_false, length, compare_double positive]
    by_cases same : dividend < 0 ↔ divisor < 0
    · obtain ⟨truncated, exact⟩ := tdiv_of_sameSign same
      have sign : (decide (dividend < 0) == decide (divisor < 0)) = true := by
        rw [beq_iff_eq, decide_eq_decide]
        exact same
      have rounded := round_add mode (Int.natCast_nonneg (dividend.natAbs / divisor.natAbs))
        fraction proper
      rw [Int.cast_natCast] at rounded
      rw [exact, natCast_div_eq dividend.natAbs positive, truncated, sign, rounded]
      rfl
    · obtain ⟨truncated, exact⟩ := tdiv_of_oppositeSigns same
      have sign : (decide (dividend < 0) == decide (divisor < 0)) = false := by
        rw [beq_eq_false_iff_ne, Ne, decide_eq_decide]
        exact same
      have rounded := round_sub mode
        (Int.neg_nonpos_of_nonneg (Int.natCast_nonneg (dividend.natAbs / divisor.natAbs)))
        fraction proper
      rw [Int.cast_neg, Int.cast_natCast] at rounded
      rw [exact, natCast_div_eq dividend.natAbs positive, truncated, sign, neg_add', rounded]
      rfl

/-! ### Close to zero -/

theorem round_of_pos_of_lt_half (mode : RoundingMode) (positive : 0 < rest) (small : rest < 1 / 2) :
    mode.round rest = if mode.leavesTruncation .lt true false then 1 else 0 := by
  have rounded := round_add mode (le_refl 0) positive (small.trans (by norm_num))
  rw [Int.cast_zero, zero_add, (cmp_eq_lt_iff _ _).mpr small] at rounded
  exact rounded

theorem round_neg_of_pos_of_lt_half (mode : RoundingMode) (positive : 0 < rest)
    (small : rest < 1 / 2) :
    mode.round (-rest) = if mode.leavesTruncation .lt false false then -1 else 0 := by
  have rounded := round_sub mode (le_refl 0) positive (small.trans (by norm_num))
  rw [Int.cast_zero, zero_sub, (cmp_eq_lt_iff _ _).mpr small] at rounded
  exact rounded

theorem round_eq_of_sign (mode : RoundingMode) {value : ℚ} (sign : Int)
    (same : SignType.sign value = SignType.sign sign) (small : |value| < 1 / 2) :
    mode.round value = mode.round (sign.sign / 10) := by
  rcases lt_trichotomy value 0 with negative | rfl | positive
  · have below : sign < 0 := by
      rwa [sign_neg negative, eq_comm, sign_eq_neg_one_iff] at same
    have opposite : -value < 1 / 2 := by rwa [← abs_of_neg negative]
    have tenth : ((sign.sign : Int) : ℚ) / 10 = -(1 / 10) := by
      rw [Int.sign_eq_neg_one_of_neg below]
      norm_num
    rw [tenth, round_neg_of_pos_of_lt_half mode (by norm_num) (by norm_num), ← neg_neg value,
      round_neg_of_pos_of_lt_half mode (neg_pos.mpr negative) opposite]
  · have none : sign = 0 := by
      rwa [sign_zero, eq_comm, sign_eq_zero_iff] at same
    rw [none, Int.sign_zero, Int.cast_zero, zero_div]
  · have above : 0 < sign := by
      rwa [sign_pos positive, eq_comm, sign_eq_one_iff] at same
    have tenth : ((sign.sign : Int) : ℚ) / 10 = 1 / 10 := by
      rw [Int.sign_eq_one_of_pos above]
      norm_num
    have close : value < 1 / 2 := by rwa [← abs_of_pos positive]
    rw [tenth, round_of_pos_of_lt_half mode positive close,
      round_of_pos_of_lt_half mode (by norm_num) (by norm_num)]

theorem nearestOr_add (middle whole : Int) (nonneg : 0 ≤ rest) (small : rest < 1 / 2) :
    nearestOr middle (whole + rest) = whole := by
  have proper : Int.fract rest = rest := Int.fract_eq_self.mpr ⟨nonneg, by linarith⟩
  rw [nearestOr, Int.fract_intCast_add, proper, (cmp_eq_lt_iff _ _).mpr small,
    Int.floor_intCast_add, Int.floor_eq_zero_iff.mpr ⟨nonneg, by linarith⟩, add_zero]

end RoundingMode

namespace Decimal

variable {number : Decimal} {target : Int64}

/-! ### Rounding to a scale -/

/-- The number has no more digits than a power of ten that is written out has zeros. -/
def IsShort (number : Decimal) : Prop :=
  number.digitCount ≤ largestExponent

instance (number : Decimal) : Decidable number.IsShort :=
  inferInstanceAs (Decidable (_ ≤ _))

theorem IsShort.abs_unscaled_lt (short : number.IsShort) :
    |(number.unscaled : ℚ)| < 10 ^ largestExponent := by
  have digits := Digits.lt_pow_count number.unscaled.natAbs
  have width := Nat.pow_le_pow_right (show 0 < 10 by decide) short
  rw [← Int.cast_abs, Int.abs_eq_natAbs, Int.cast_natCast]
  exact_mod_cast digits.trans_le width

theorem IsShort.digitCount_lt (short : number.IsShort) : number.digitCount < 2 ^ 61 :=
  lt_of_le_of_lt short (by decide)

theorem toNatClampNeg_sub_of_lt (coarser : target < number.scale)
    (near : number.scale.toInt - target.toInt < 2 ^ 63) :
    0 ≤ number.scale - target ∧
      ((number.scale - target).toNatClampNeg : Int) = number.scale.toInt - target.toInt := by
  have order := Int64.lt_iff_toInt_lt.mp coarser
  have difference : (number.scale - target).toInt = number.scale.toInt - target.toInt := by
    rw [Int64.toInt_sub]
    exact Int.bmod_eq_of_le (by omega) (by omega)
  constructor
  · rw [Int64.le_iff_toInt_le, difference, Int64.toInt_zero]
    omega
  · rw [← Int64.toNat_toInt, difference]
    omega

/-- A distance of scales with too many zeros is not written out, not even if it leaves the
words: it is negative then. -/
theorem writableExponent?_sub_eq_none
    (far : largestExponent < number.scale.toInt - target.toInt) :
    writableExponent? (number.scale - target) = none := by
  have bound : largestExponent < 2 ^ 62 := by decide
  have lower := target.le_toInt
  have upper := number.scale.toInt_lt
  apply if_neg
  rintro ⟨nonneg, few⟩
  rw [Int64.le_iff_toInt_le, Int64.toInt_zero, Int64.toInt_sub] at nonneg
  change (number.scale - target).toInt.toNat ≤ _ at few
  rw [Int64.toInt_sub] at few
  by_cases near : number.scale.toInt - target.toInt < 2 ^ 63
  · rw [Int.bmod_eq_of_le (by omega) (by omega)] at few
    omega
  · have wrapped : (number.scale.toInt - target.toInt).bmod (2 ^ 64) =
        number.scale.toInt - target.toInt - 2 ^ 64 := by
      rw [← Int.sub_bmod_right]
      exact Int.bmod_eq_of_le (by omega) (by omega)
    rw [wrapped] at nonneg
    omega

@[simp]
theorem scale_setScale (number : Decimal) (target : Int64) (mode : RoundingMode) :
    (number.setScale target mode).scale = target := by
  unfold setScale
  split
  · rfl
  · split
    · rfl
    · rfl

theorem setScale_eq_of_written (mode : RoundingMode) (coarser : target < number.scale)
    (written : number.scale.toInt - target.toInt ≤ largestExponent) :
    number.setScale target mode = ⟨mode.round (number.value * 10 ^ target.toInt), target⟩ := by
  have near : number.scale.toInt - target.toInt < 2 ^ 63 := written.trans_lt (by decide)
  obtain ⟨positive, distance⟩ := toNatClampNeg_sub_of_lt coarser near
  have dropped : number.value * 10 ^ target.toInt =
      number.unscaled / 10 ^ (number.scale - target).toNatClampNeg := by
    rw [← zpow_natCast, distance, value, zpow_sub₀ (by norm_num), div_div_eq_mul_div,
      div_mul_eq_mul_div]
  unfold setScale
  rw [if_neg (Int64.not_le.mpr coarser), writableExponent?, if_pos ⟨positive, by omega⟩]
  simp only
  rw [RoundingMode.quotient_eq_round, dropped]
  · push_cast
    rfl
  · exact_mod_cast (Nat.pow_pos (by decide)).ne'

theorem lt_scale_of_far (far : largestExponent < number.scale.toInt - target.toInt) :
    target < number.scale := by
  rw [Int64.lt_iff_toInt_lt]
  omega

theorem setScale_eq_of_unwritten (mode : RoundingMode) (short : number.IsShort)
    (far : largestExponent < number.scale.toInt - target.toInt) :
    number.setScale target mode = ⟨mode.round (number.value * 10 ^ target.toInt), target⟩ := by
  have coarser := lt_scale_of_far far
  have small : |number.value * 10 ^ target.toInt| < 1 / 2 := by
    have unit : (0 : ℚ) < 10 ^ number.scale.toInt := zpow_pos (by norm_num) _
    have power : (0 : ℚ) < 10 ^ target.toInt := zpow_pos (by norm_num) _
    have long : (10 : ℚ) ^ (largestExponent + 1 : Int) ≤
        10 ^ (number.scale.toInt - target.toInt) :=
      zpow_le_zpow_right₀ (by norm_num) (by omega)
    have digits := short.abs_unscaled_lt
    rw [zpow_add₀ (by norm_num), zpow_natCast, zpow_one, zpow_sub₀ (by norm_num),
      le_div_iff₀ power] at long
    rw [value, div_mul_eq_mul_div, abs_div, abs_of_pos unit, div_lt_iff₀ unit, abs_mul,
      abs_of_pos power]
    nlinarith
  have sign : SignType.sign (number.value * 10 ^ target.toInt) =
      SignType.sign number.unscaled := by
    rw [sign_mul, sign_pos (zpow_pos (by norm_num) _), mul_one, sign_value]
  rw [setScale, if_neg (Int64.not_le.mpr coarser), writableExponent?_sub_eq_none far]
  simp only
  rw [RoundingMode.quotient_eq_round _ _ (by decide),
    RoundingMode.round_eq_of_sign mode number.unscaled sign small]
  rfl

/-- A number that is brought to a scale is rounded as its value. -/
theorem setScale_eq (mode : RoundingMode) (reaches : number.Reaches target)
    (short : largestExponent < number.scale.toInt - target.toInt → number.IsShort) :
    number.setScale target mode = ⟨mode.round (number.value * 10 ^ target.toInt), target⟩ := by
  by_cases finer : number.scale ≤ target
  · rw [setScale, if_pos finer, ← alignedTo_eq finer reaches, RoundingMode.round_intCast]
  · have coarser := Int64.not_le.mp finer
    by_cases written : number.scale.toInt - target.toInt ≤ largestExponent
    · exact setScale_eq_of_written mode coarser written
    · have far := Int.not_le.mp written
      exact setScale_eq_of_unwritten mode (short far) far

theorem alignedTo_pos {number : Decimal} (positive : 0 < number.unscaled) (target : Int64) :
    0 < number.alignedTo target := by
  unfold alignedTo
  split
  · exact positive
  · exact Int.mul_pos positive (Int.natCast_pos.mpr (Nat.pow_pos (by decide)))

/-- A positive number with more decimal places than the exponent of a power of ten can
count is taken for one below a half, whatever it is. -/
theorem nearestInteger_of_far {number : Decimal} (positive : 0 < number.unscaled)
    (far : largestExponent < number.scale.toInt) : number.nearestInteger = 0 := by
  have above : ¬ number.scale ≤ 0 := by
    rw [Int64.le_iff_toInt_le, Int64.toInt_zero]
    omega
  have distance : number.scale - 0 = number.scale := Int64.sub_zero _
  have unwritable : writableExponent? number.scale = none := by
    refine if_neg ?_
    rintro ⟨-, writable⟩
    change number.scale.toInt.toNat ≤ _ at writable
    omega
  have sign : number.sign = 1 := Int.sign_eq_one_of_pos positive
  rw [nearestInteger, setScale, if_neg above, distance, unwritable, sign]
  rfl

end Decimal
end DecimalCalculator
