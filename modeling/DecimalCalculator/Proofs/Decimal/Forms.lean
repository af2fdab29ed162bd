/-
What depends on the value of a number alone.

A number has many forms.  Signs, comparisons, the exponent of the first digit,
rounded numbers, integer parts and quotients at a scale are the same for all of
them, as long as the scales stay within the words and the digits are few enough.
-/

import Mathlib
import DecimalCalculator.Decimal.Division
import DecimalCalculator.Proofs.Decimal.Checked

namespace DecimalCalculator
namespace Decimal

variable {left right number first second : Decimal} {target : Int64}

def EqualValues (first second : Decimal) : Prop :=
  first.value = second.value

/-! ### Signs -/

theorem value_abs (number : Decimal) : number.abs.value = |number.value| := by
  change ((number.unscaled.natAbs : Int) : ℚ) / 10 ^ number.scale.toInt = |_ / _|
  rw [abs_div, abs_of_pos (zpow_pos (by norm_num : (0 : ℚ) < 10) _), Int.natCast_natAbs,
    Int.cast_abs]

theorem value_nonneg_iff : 0 ≤ number.value ↔ 0 ≤ number.unscaled := by
  rw [value, le_div_iff₀ (zpow_pos (by norm_num) _), zero_mul, Int.cast_nonneg_iff]

theorem value_neg_iff : number.value < 0 ↔ number.unscaled < 0 := by
  rw [← not_le, value_nonneg_iff, not_le]

theorem value_pos_iff : 0 < number.value ↔ 0 < number.unscaled := by
  rw [value, lt_div_iff₀ (zpow_pos (by norm_num) _), zero_mul, Int.cast_pos]

theorem abs_of_value_nonneg (nonneg : 0 ≤ number.value) : number.abs = number := by
  have natural := value_nonneg_iff.mp nonneg
  change (⟨number.unscaled.natAbs, number.scale⟩ : Decimal) = number
  rw [Int.natAbs_of_nonneg natural]

theorem abs_opposite (number : Decimal) : (-number).abs = number.abs := by
  change (⟨(-number.unscaled).natAbs, number.scale⟩ : Decimal) = _
  rw [Int.natAbs_neg]
  rfl

theorem isZero_iff : number.isZero = true ↔ number.value = 0 := by
  rw [value_eq_zero_iff]
  exact beq_iff_eq

theorem isNegative_iff : number.isNegative = true ↔ number.value < 0 := by
  rw [value_neg_iff]
  exact decide_eq_true_iff

theorem isZero_eq_false_iff : number.isZero = false ↔ number.value ≠ 0 := by
  rw [← Bool.not_eq_true, isZero_iff]

theorem isNegative_eq_false_iff : number.isNegative = false ↔ 0 ≤ number.value := by
  rw [← Bool.not_eq_true, isNegative_iff, not_lt]

theorem isZero_congr (same : first.value = second.value) : first.isZero = second.isZero := by
  rw [Bool.eq_iff_iff, isZero_iff, isZero_iff, same]

theorem isNegative_congr (same : first.value = second.value) :
    first.isNegative = second.isNegative := by
  rw [Bool.eq_iff_iff, isNegative_iff, isNegative_iff, same]

theorem sign_le_zero_iff : number.sign ≤ 0 ↔ number.value ≤ 0 := by
  rw [← not_lt, ← not_lt, value_pos_iff]
  exact not_congr Int.sign_pos_iff

theorem value_lt_of_sign_lt (below : left.sign < right.sign) : left.value < right.value := by
  by_cases negative : left.unscaled < 0
  · have first := value_neg_iff.mpr negative
    by_cases nonneg : 0 ≤ right.unscaled
    · exact first.trans_le (value_nonneg_iff.mpr nonneg)
    · have same := Int.sign_eq_neg_one_of_neg negative
      have other := Int.sign_eq_neg_one_of_neg (Int.not_le.mp nonneg)
      exact absurd below (by rw [sign, sign, same, other]; decide)
  · have nonneg := Int.sign_nonneg_iff.mpr (Int.not_lt.mp negative)
    have positive : 0 < right.unscaled := Int.sign_pos_iff.mp (lt_of_le_of_lt nonneg below)
    have second := value_pos_iff.mpr positive
    by_cases zero : left.unscaled = 0
    · rwa [value_eq_zero_iff.mpr zero]
    · have same := Int.sign_eq_one_of_pos (show 0 < left.unscaled by omega)
      have other := Int.sign_eq_one_of_pos positive
      exact absurd below (by rw [sign, sign, same, other]; decide)

/-! ### Order -/

theorem Comparable.symm (comparable : Comparable left right) : Comparable right left :=
  fun same => (comparable same.symm).symm

/-- A number that can be written as an integer is aligned with a number whose scale lies
between 0 and its own. -/
theorem aligned_of_scale_le (reaches : left.Reaches 0) (nonneg : 0 ≤ right.scale.toInt)
    (least : right.scale.toInt ≤ max 0 left.scale.toInt) : Aligned left right := by
  have common := toInt_commonScale left right
  have upper := left.scale.toInt_lt
  have upper' := right.scale.toInt_lt
  constructor
  · refine reaches.imp_right fun distance => ?_
    rw [Int64.toInt_zero] at distance
    omega
  · exact Or.inr (by omega)

theorem compare_eq (comparable : Comparable left right) :
    left.compare right = cmp left.value right.value := by
  unfold Decimal.compare
  split
  · rename_i different
    rcases Int.lt_or_gt_of_ne different with below | above
    · rw [Int.compare_eq_lt.mpr below, eq_comm, cmp_eq_lt_iff]
      exact value_lt_of_sign_lt below
    · rw [Int.compare_eq_gt.mpr above, eq_comm, cmp_eq_gt_iff]
      exact value_lt_of_sign_lt above
  · rename_i same
    have aligned := comparable (not_not.mp same)
    have unit : (0 : ℚ) < 10 ^ (left.commonScale right).toInt := zpow_pos (by norm_num) _
    have scaled : cmp left.value right.value =
        cmp (left.alignedTo (left.commonScale right) : ℚ)
          (right.alignedTo (left.commonScale right)) := by
      rw [aligned.left_eq, aligned.right_eq, cmp_mul_pos_right unit]
    rw [scaled]
    rcases lt_trichotomy (left.alignedTo (left.commonScale right))
      (right.alignedTo (left.commonScale right)) with below | equal | above
    · rw [Int.compare_eq_lt.mpr below, eq_comm, cmp_eq_lt_iff]
      exact_mod_cast below
    · rw [equal, cmp_self_eq_eq, Int.compare_eq_eq]
    · rw [Int.compare_eq_gt.mpr above, eq_comm, cmp_eq_gt_iff]
      exact_mod_cast above

theorem lt_iff_value_lt (comparable : Comparable left right) :
    left < right ↔ left.value < right.value := by
  change left.compare right = .lt ↔ _
  rw [compare_eq comparable, cmp_eq_lt_iff]

theorem le_iff_value_le (comparable : Comparable left right) :
    left ≤ right ↔ left.value ≤ right.value := by
  change (left.compare right).isLE = true ↔ _
  rw [compare_eq comparable]
  rcases lt_trichotomy left.value right.value with below | equal | above
  · rw [(cmp_eq_lt_iff _ _).mpr below]
    exact iff_of_true rfl below.le
  · rw [(cmp_eq_eq_iff _ _).mpr equal]
    exact iff_of_true rfl equal.le
  · rw [(cmp_eq_gt_iff _ _).mpr above]
    exact iff_of_false nofun (not_le.mpr above)

theorem sameValue_iff (comparable : Comparable left right) :
    left.sameValue right = true ↔ left.value = right.value := by
  rw [sameValue, compare_eq comparable, beq_iff_eq, cmp_eq_eq_iff]

namespace Checked

theorem compare_eq (comparable : Comparable left right) :
    compare left right = .ok (cmp left.value right.value) := by
  rw [compare, unlessOverflow_of comparable, Decimal.compare_eq comparable]

theorem sameValue_eq (comparable : Comparable left right) :
    sameValue left right = .ok (decide (left.value = right.value)) := by
  rw [sameValue, compare_eq comparable]
  refine congrArg Except.ok (Bool.eq_iff_iff.mpr ?_)
  rw [beq_iff_eq, cmp_eq_eq_iff, decide_eq_true_iff]

theorem isLess_eq (comparable : Comparable left right) :
    isLess left right = .ok (decide (left.value < right.value)) := by
  rw [isLess, compare_eq comparable]
  refine congrArg Except.ok (Bool.eq_iff_iff.mpr ?_)
  rw [beq_iff_eq, cmp_eq_lt_iff, decide_eq_true_iff]

section Concurrence

variable {left' right' : Decimal}

theorem add_concur (lefts : left.value = left'.value) (rights : right.value = right'.value) :
    Concur EqualValues (add left right) (add left' right') :=
  .checked fun aligned aligned' => by
    rw [EqualValues, value_add aligned, value_add aligned', lefts, rights]

theorem sub_concur (lefts : left.value = left'.value) (rights : right.value = right'.value) :
    Concur EqualValues (sub left right) (sub left' right') :=
  .checked fun aligned aligned' => by
    rw [EqualValues, value_sub aligned, value_sub aligned', lefts, rights]

theorem mul_concur (lefts : left.value = left'.value) (rights : right.value = right'.value) :
    Concur EqualValues (mul left right) (mul left' right') :=
  .checked fun word word' => by
    rw [EqualValues, value_mul word, value_mul word', lefts, rights]

theorem compare_concur (lefts : left.value = left'.value) (rights : right.value = right'.value) :
    Concur Eq (compare left right) (compare left' right') :=
  .checked fun comparable comparable' => by
    rw [Decimal.compare_eq comparable, Decimal.compare_eq comparable', lefts, rights]

theorem sameValue_concur (lefts : left.value = left'.value) (rights : right.value = right'.value) :
    Concur Eq (sameValue left right) (sameValue left' right') :=
  (compare_concur lefts rights).bind_eq fun _ _ _ => .ok rfl

theorem isLess_concur (lefts : left.value = left'.value) (rights : right.value = right'.value) :
    Concur Eq (isLess left right) (isLess left' right') :=
  (compare_concur lefts rights).bind_eq fun _ _ _ => .ok rfl

end Concurrence

theorem isLess_of_not_comparable (apart : ¬Comparable left right) :
    isLess left right = .error .overflow := by
  rw [isLess, compare, unlessOverflow_of_not apart]
  rfl

end Checked

/-! ### The first digit -/

theorem exists_appended (same : first.value = second.value)
    (order : first.scale.toInt ≤ second.scale.toInt) :
    ∃ zeros : Nat, second.scale.toInt = first.scale.toInt + zeros ∧
      second.unscaled = first.unscaled * 10 ^ zeros := by
  obtain ⟨zeros, distance⟩ := Int.le.dest order
  refine ⟨zeros, distance.symm, ?_⟩
  have exact : (second.unscaled : ℚ) = first.unscaled * 10 ^ zeros := by
    rw [unscaled_eq, unscaled_eq, same, mul_assoc, ← zpow_natCast, ← zpow_add₀ (by norm_num),
      distance]
  exact_mod_cast exact

theorem digitCount_eq_iff {digits : Nat} (nonzero : number.unscaled ≠ 0) :
    number.digitCount = digits ↔
      10 ^ (digits - 1) ≤ number.unscaled.natAbs ∧ number.unscaled.natAbs < 10 ^ digits := by
  have lower := Digits.pow_count_le (Int.natAbs_pos.mpr nonzero)
  have upper := Digits.lt_pow_count number.unscaled.natAbs
  have positive := Digits.count_pos number.unscaled.natAbs
  constructor
  · rintro rfl
    exact ⟨lower, upper⟩
  · rintro ⟨atLeast, below⟩
    have first := (Nat.pow_lt_pow_iff_right (by decide)).mp (lower.trans_lt below)
    have second := (Nat.pow_lt_pow_iff_right (by decide)).mp (atLeast.trans_lt upper)
    rw [digitCount]
    omega

theorem digitCount_append {zeros : Nat} (nonzero : first.unscaled ≠ 0)
    (appended : second.unscaled = first.unscaled * 10 ^ zeros) :
    second.digitCount = first.digitCount + zeros := by
  obtain ⟨lower, upper⟩ := (digitCount_eq_iff nonzero).mp rfl
  have positive := Digits.count_pos first.unscaled.natAbs
  have size : second.unscaled.natAbs = first.unscaled.natAbs * 10 ^ zeros := by
    rw [appended, Int.natAbs_mul, Int.natAbs_pow]
    rfl
  have kept : second.unscaled ≠ 0 := by
    rw [appended]
    exact mul_ne_zero nonzero (pow_ne_zero _ (by decide))
  have before : first.digitCount + zeros - 1 = first.digitCount - 1 + zeros := by
    rw [digitCount]
    omega
  rw [digitCount_eq_iff kept, size, before, pow_add, pow_add]
  exact ⟨Nat.mul_le_mul_right _ lower, Nat.mul_lt_mul_of_pos_right upper (Nat.pow_pos (by decide))⟩

/-- The exponent of the first digit does not depend on the form, not even if it leaves
the words. -/
theorem leadingExponent_eq (nonzero : first.value ≠ 0) (same : first.value = second.value) :
    first.leadingExponent = second.leadingExponent := by
  wlog order : first.scale.toInt ≤ second.scale.toInt generalizing first second
  · exact (this (same ▸ nonzero) same.symm (Int.le_of_not_le order)).symm
  · obtain ⟨zeros, distance, appended⟩ := exists_appended same order
    have scale : second.scale = first.scale + Int64.ofNat zeros := by
      rw [← Int64.ofInt_toInt second.scale, distance, Int64.ofInt_add, Int64.ofInt_toInt,
        Int64.ofInt_eq_ofNat]
    have digits := digitCount_append (mt value_eq_zero_iff.mpr nonzero) appended
    rw [leadingExponent, leadingExponent, digits, scale, Int64.ofNat_add]
    grind

theorem Checked.leadingExponent_concur (nonzero : first.value ≠ 0)
    (same : first.value = second.value) :
    Concur Eq (Checked.leadingExponent first) (Checked.leadingExponent second) := by
  rw [Checked.leadingExponent_eq, Checked.leadingExponent_eq]
  exact .checked fun _ _ => Decimal.leadingExponent_eq nonzero same

/-! ### Rounding -/

/-- A number is brought to a scale within the words: so is the distance of the scales,
and if digits are dropped, there are few enough of them. -/
structure Rounds (number : Decimal) (target : Int64) : Prop where
  reaches : number.Reaches target
  near : number.scale.toInt - target.toInt < 2 ^ 63
  short : target < number.scale → number.IsShort

theorem Rounds.setScale_eq (rounds : number.Rounds target) (mode : RoundingMode) :
    number.setScale target mode = ⟨mode.round (number.value * 10 ^ target.toInt), target⟩ :=
  Decimal.setScale_eq mode rounds.reaches fun far => rounds.short (lt_scale_of_far far)

theorem setScale_congr (mode : RoundingMode) (same : first.value = second.value)
    (left : first.Rounds target) (right : second.Rounds target) :
    first.setScale target mode = second.setScale target mode := by
  rw [left.setScale_eq, right.setScale_eq, same]

theorem Checked.setScale_concur (mode : RoundingMode) (same : first.value = second.value)
    (short : target < first.scale → first.IsShort)
    (short' : target < second.scale → second.IsShort) :
    Concur Eq (Checked.setScale first target mode) (Checked.setScale second target mode) :=
  .checked fun meets meets' =>
    setScale_congr mode same ⟨meets.1, meets.2, short⟩ ⟨meets'.1, meets'.2, short'⟩

theorem Rounds.opposite (rounds : number.Rounds target) : (-number).Rounds target := by
  refine ⟨rounds.reaches.imp_left fun zero => ?_, rounds.near, fun coarser => ?_⟩
  · change -number.unscaled = 0
    rw [zero, neg_zero]
  · have short := rounds.short coarser
    change Digits.count (-number.unscaled).natAbs ≤ _
    rwa [Int.natAbs_neg]

theorem Rounds.meets (rounds : number.Rounds target) : number.Meets target :=
  ⟨rounds.reaches, rounds.near⟩

theorem Rounds.zero (reaches : number.Reaches 0) (short : number.IsShort) : number.Rounds 0 := by
  refine ⟨reaches, ?_, fun _ => short⟩
  have upper := number.scale.toInt_lt
  rw [Int64.toInt_zero]
  omega

/-! ### Integers -/

theorem writableExponent?_eq_some {exponent : Int64} {places : Nat}
    (writable : writableExponent? exponent = some places) : exponent.toInt = places := by
  unfold writableExponent? at writable
  split at writable
  · rename_i both
    have nonneg := Int64.le_iff_toInt_le.mp both.1
    rw [Int64.toInt_zero] at nonneg
    rw [Option.some.injEq] at writable
    change exponent.toInt.toNat = places at writable
    omega
  · cases writable

theorem lt_toInt_of_writableExponent?_eq_none {exponent : Int64} (nonneg : 0 ≤ exponent)
    (unwritable : writableExponent? exponent = none) : largestExponent < exponent.toInt := by
  unfold writableExponent? at unwritable
  split at unwritable
  · cases unwritable
  · rename_i far
    have long : ¬exponent.toInt.toNat ≤ largestExponent := fun few => far ⟨nonneg, few⟩
    omega

theorem exists_value_eq_of_isInteger (integer : number.isInteger = true) :
    ∃ whole : Int, number.value = whole := by
  unfold isInteger at integer
  split at integer
  · rename_i whole
    have nonpos := Int64.le_iff_toInt_le.mp whole
    rw [Int64.toInt_zero] at nonpos
    obtain ⟨zeros, places⟩ := Int.exists_eq_neg_ofNat nonpos
    refine ⟨number.unscaled * 10 ^ zeros, ?_⟩
    rw [value, places, zpow_neg, zpow_natCast, div_inv_eq_mul]
    push_cast
    rfl
  · cases writable : writableExponent? number.scale with
    | some places =>
        simp only [writable, beq_iff_eq] at integer
        obtain ⟨whole, product⟩ := Int.dvd_iff_tmod_eq_zero.mpr integer
        have power : (10 : ℚ) ^ places ≠ 0 := pow_ne_zero _ (by norm_num)
        refine ⟨whole, ?_⟩
        rw [value, writableExponent?_eq_some writable, zpow_natCast, product, div_eq_iff power]
        push_cast
        exact mul_comm _ _
    | none =>
        simp only [writable, beq_iff_eq] at integer
        exact ⟨0, by rw [value_eq_zero_iff.mpr integer, Int.cast_zero]⟩

theorem isInteger_iff (short : 0 < number.scale → number.IsShort) :
    number.isInteger = true ↔ ∃ integer : Int, number.value = integer := by
  refine ⟨exists_value_eq_of_isInteger, ?_⟩
  rintro ⟨integer, equal⟩
  unfold isInteger
  split
  · rfl
  · rename_i fractional
    have positive := Int64.not_le.mp fractional
    cases writable : writableExponent? number.scale with
    | some places =>
        have power : (10 : ℚ) ^ places ≠ 0 := pow_ne_zero _ (by norm_num)
        rw [value, writableExponent?_eq_some writable, zpow_natCast, div_eq_iff power,
          mul_comm] at equal
        simp only [beq_iff_eq]
        rw [← Int.dvd_iff_tmod_eq_zero]
        exact ⟨integer, by exact_mod_cast equal⟩
    | none =>
        have far := lt_toInt_of_writableExponent?_eq_none (Int64.le_of_lt positive) writable
        have power : (10 : ℚ) ^ largestExponent ≤ 10 ^ number.scale.toInt := by
          rw [← zpow_natCast]
          exact zpow_le_zpow_right₀ (by norm_num) far.le
        have small : |(integer : ℚ)| < 1 := by
          have unit : (0 : ℚ) < 10 ^ number.scale.toInt := zpow_pos (by norm_num) _
          rw [← equal, value, abs_div, abs_of_pos unit, div_lt_one unit]
          exact (short positive).abs_unscaled_lt.trans_le power
        have zero : integer = 0 := Int.abs_lt_one_iff.mp (by exact_mod_cast small)
        simp only [beq_iff_eq]
        rw [← value_eq_zero_iff, equal, zero, Int.cast_zero]

theorem toInt_eq (rounds : number.Rounds 0) :
    number.toInt = RoundingMode.down.round number.value := by
  rw [toInt, rounds.setScale_eq, Int64.toInt_zero, zpow_zero, mul_one]

theorem isInteger_congr (same : first.value = second.value) (left : first.Rounds 0)
    (right : second.Rounds 0) : first.isInteger = second.isInteger := by
  rw [Bool.eq_iff_iff, isInteger_iff left.short, isInteger_iff right.short, same]

theorem toInt_congr (same : first.value = second.value) (left : first.Rounds 0)
    (right : second.Rounds 0) : first.toInt = second.toInt := by
  rw [toInt_eq left, toInt_eq right, same]

theorem toInt64?_congr (same : first.value = second.value) (left : first.Rounds 0)
    (right : second.Rounds 0) : first.toInt64? = second.toInt64? := by
  rw [toInt64?, toInt64?, isInteger_congr same left right, toInt_congr same left right]

theorem toUInt32?_congr (same : first.value = second.value) (left : first.Rounds 0)
    (right : second.Rounds 0) : first.toUInt32? = second.toUInt32? := by
  rw [toUInt32?, toUInt32?, isInteger_congr same left right, toInt_congr same left right]

theorem Rounds.of_fraction (rounds : number.Rounds 0) (fraction : number.isInteger = false)
    (behind : 0 ≤ target.toInt) : number.Rounds target := by
  have fractional : 0 < number.scale := by
    rw [isInteger] at fraction
    split at fraction
    · cases fraction
    · exact Int64.not_le.mp ‹_›
  have upper := number.scale.toInt_lt
  exact ⟨.of_nonneg (Int64.le_of_lt fractional), by omega, fun _ => rounds.short fractional⟩

/-! ### Quotients -/

theorem powerOfTen_of_le {exponent : Int64} {places : Nat} (known : exponent.toInt = places)
    (few : places ≤ largestExponent) : powerOfTen exponent = .ok (10 ^ places) := by
  have nonneg : 0 ≤ exponent := by
    rw [Int64.le_iff_toInt_le, Int64.toInt_zero, known]
    exact Int.natCast_nonneg places
  have size : exponent.toNatClampNeg = places := by
    change exponent.toInt.toNat = places
    omega
  rw [powerOfTen, writableExponent?, if_pos ⟨nonneg, size.trans_le few⟩, size]

theorem powerOfTen_of_lt {exponent : Int64} (many : largestExponent < exponent.toInt) :
    powerOfTen exponent = .error (.exponentTooLarge exponent.toInt) := by
  rw [powerOfTen, writableExponent?, if_neg]
  rintro ⟨-, few⟩
  have size : exponent.toInt.toNat ≤ largestExponent := few
  omega

theorem toInt_add_sub {first second third : Int64}
    (word : IsWord (first.toInt + second.toInt - third.toInt)) :
    (first + second - third).toInt = first.toInt + second.toInt - third.toInt := by
  have word' : first + second - third =
      Int64.ofInt (first.toInt + second.toInt - third.toInt) := by
    rw [Int64.ofInt_sub, Int64.ofInt_add, Int64.ofInt_toInt, Int64.ofInt_toInt, Int64.ofInt_toInt]
  rw [word']
  exact Int64.toInt_ofInt_of_le word.1 word.2

theorem toInt_neg_of_isWord {exponent : Int64} (word : IsWord (-exponent.toInt)) :
    (-exponent).toInt = -exponent.toInt := by
  obtain ⟨lower, upper⟩ := word
  rw [Int64.toInt_neg]
  exact Int.bmod_eq_of_le (by omega) (by omega)

theorem isWord_add_scale_ofInt (scale : Int64) (integer : Int) :
    IsWord (scale.toInt + (ofInt integer).scale.toInt) := by
  change IsWord (scale.toInt + (0 : Int64).toInt)
  rw [Int64.toInt_zero, add_zero]
  exact isWord_toInt scale

theorem value_div_value (dividend divisor : Decimal) (places : Int) :
    dividend.value / divisor.value * 10 ^ places =
      dividend.unscaled / divisor.unscaled *
        10 ^ (places + divisor.scale.toInt - dividend.scale.toInt) := by
  have first : (10 : ℚ) ^ dividend.scale.toInt ≠ 0 := zpow_ne_zero _ (by norm_num)
  have second : (10 : ℚ) ^ divisor.scale.toInt ≠ 0 := zpow_ne_zero _ (by norm_num)
  rw [value, value, zpow_sub₀ (by norm_num), zpow_add₀ (by norm_num)]
  field_simp

section Quotients

variable {dividend divisor quotient dividend' divisor' : Decimal} {scale : Int64}
  {mode : RoundingMode}

theorem divideAtScale_of_zero (mode : RoundingMode) (zero : divisor.value = 0) :
    dividend.divideAtScale divisor scale mode = .error .divisionByZero := by
  rw [divideAtScale, isZero_iff.mpr zero]
  rfl

theorem divideAtScale_of_not_fits (mode : RoundingMode) (nonzero : divisor.value ≠ 0)
    (breaks : ¬DividesAt dividend divisor scale) :
    dividend.divideAtScale divisor scale mode = .error .overflow := by
  rw [divideAtScale, isZero_eq_false_iff.mpr nonzero]
  exact requireWords_bind_of_not breaks

/-- A quotient whose power of ten can be written out is the quotient of the values,
rounded once. -/
theorem divideAtScale_of_fits (mode : RoundingMode) (nonzero : divisor.value ≠ 0)
    (fits : DividesAt dividend divisor scale)
    (near : |quotientExponent dividend divisor scale| ≤ largestExponent) :
    dividend.divideAtScale divisor scale mode =
      .ok ⟨mode.round (dividend.value / divisor.value * 10 ^ scale.toInt), scale⟩ := by
  have whole : divisor.unscaled ≠ 0 := mt value_eq_zero_iff.mpr nonzero
  have size := toInt_add_sub fits.exponent
  rw [divideAtScale, isZero_eq_false_iff.mpr nonzero, requireWords_of fits, value_div_value, ← size]
  rw [quotientExponent, ← size] at near
  have opposite := fits.opposite
  rw [quotientExponent, ← size] at opposite
  generalize scale + divisor.scale - dividend.scale = exponent at near opposite
  change (if 0 ≤ exponent then _ else _) = _
  obtain ⟨lower, upper⟩ := abs_le.mp near
  have nonneg_iff : 0 ≤ exponent ↔ 0 ≤ exponent.toInt := by
    rw [Int64.le_iff_toInt_le, Int64.toInt_zero]
  split
  · rename_i finer
    obtain ⟨places, known⟩ := Int.eq_ofNat_of_zero_le (nonneg_iff.mp finer)
    rw [powerOfTen_of_le known (by omega), known]
    change Except.ok (Decimal.mk (mode.quotient (dividend.unscaled * (10 ^ places : Nat)) _) _) = _
    rw [RoundingMode.quotient_eq_round mode _ whole, zpow_natCast]
    push_cast
    rw [mul_div_right_comm]
  · rename_i coarser
    have behind := not_le.mp (mt nonneg_iff.mpr coarser)
    obtain ⟨places, known⟩ := Int.exists_eq_neg_ofNat behind.le
    have known' : (-exponent).toInt = places := by
      rw [toInt_neg_of_isWord opposite, known, neg_neg]
    rw [powerOfTen_of_le known' (by omega), known]
    change Except.ok (Decimal.mk (mode.quotient _ (divisor.unscaled * (10 ^ places : Nat))) _) = _
    have scaled : divisor.unscaled * (10 ^ places : Nat) ≠ 0 :=
      mul_ne_zero whole (by exact_mod_cast (Nat.pow_pos (by decide)).ne')
    rw [RoundingMode.quotient_eq_round mode _ scaled, zpow_neg, zpow_natCast]
    push_cast
    rw [← div_div, div_eq_mul_inv _ ((10 : ℚ) ^ places)]

theorem divideAtScale_of_far (mode : RoundingMode) (nonzero : divisor.value ≠ 0)
    (fits : DividesAt dividend divisor scale)
    (far : largestExponent < |quotientExponent dividend divisor scale|) :
    dividend.divideAtScale divisor scale mode =
      .error (.exponentTooLarge |quotientExponent dividend divisor scale|) := by
  have size := toInt_add_sub fits.exponent
  have opposite := fits.opposite
  rw [quotientExponent, ← size] at far opposite ⊢
  rw [divideAtScale, isZero_eq_false_iff.mpr nonzero, requireWords_of fits]
  generalize scale + divisor.scale - dividend.scale = exponent at far opposite
  change (if 0 ≤ exponent then _ else _) = _
  have nonneg_iff : 0 ≤ exponent ↔ 0 ≤ exponent.toInt := by
    rw [Int64.le_iff_toInt_le, Int64.toInt_zero]
  split
  · rename_i finer
    rw [abs_of_nonneg (nonneg_iff.mp finer)] at far ⊢
    rw [powerOfTen_of_lt far]
    rfl
  · rename_i coarser
    have known := toInt_neg_of_isWord opposite
    rw [abs_of_neg (not_le.mp (mt nonneg_iff.mpr coarser)), ← known] at far ⊢
    rw [powerOfTen_of_lt far]
    rfl

/-- A quotient by a number other than zero is broken off, refused, or the quotient of the
values, rounded once. -/
theorem divideAtScale_cases (dividend : Decimal) (scale : Int64) (mode : RoundingMode)
    (nonzero : divisor.value ≠ 0) :
    (¬DividesAt dividend divisor scale ∧
        dividend.divideAtScale divisor scale mode = .error .overflow) ∨
      (DividesAt dividend divisor scale ∧
        largestExponent < |quotientExponent dividend divisor scale| ∧
        dividend.divideAtScale divisor scale mode =
          .error (.exponentTooLarge |quotientExponent dividend divisor scale|)) ∨
      DividesAt dividend divisor scale ∧
        |quotientExponent dividend divisor scale| ≤ largestExponent ∧
        dividend.divideAtScale divisor scale mode =
          .ok ⟨mode.round (dividend.value / divisor.value * 10 ^ scale.toInt), scale⟩ := by
  by_cases fits : DividesAt dividend divisor scale
  · rcases le_or_gt |quotientExponent dividend divisor scale| largestExponent with near | far
    · exact Or.inr (Or.inr ⟨fits, near, divideAtScale_of_fits mode nonzero fits near⟩)
    · exact Or.inr (Or.inl ⟨fits, far, divideAtScale_of_far mode nonzero fits far⟩)
  · exact Or.inl ⟨fits, divideAtScale_of_not_fits mode nonzero fits⟩

theorem divideAtScale_eq_ok_iff :
    dividend.divideAtScale divisor scale mode = .ok quotient ↔
      divisor.value ≠ 0 ∧ DividesAt dividend divisor scale ∧
        |quotientExponent dividend divisor scale| ≤ largestExponent ∧
        quotient = ⟨mode.round (dividend.value / divisor.value * 10 ^ scale.toInt), scale⟩ := by
  constructor
  · intro divided
    by_cases zero : divisor.value = 0
    · rw [divideAtScale_of_zero mode zero] at divided
      cases divided
    · rcases divideAtScale_cases dividend scale mode zero with
        ⟨-, broken⟩ | ⟨-, -, refused⟩ | ⟨fits, near, reached⟩
      · rw [broken] at divided
        cases divided
      · rw [refused] at divided
        cases divided
      · rw [reached, Except.ok.injEq] at divided
        exact ⟨zero, fits, near, divided.symm⟩
  · rintro ⟨nonzero, fits, near, rfl⟩
    exact divideAtScale_of_fits mode nonzero fits near

theorem scale_of_divideAtScale
    (divided : dividend.divideAtScale divisor scale mode = .ok quotient) :
    quotient.scale = scale := by
  obtain ⟨-, -, -, rfl⟩ := divideAtScale_eq_ok_iff.mp divided
  rfl

theorem divideAtScale_concur (mode : RoundingMode) (scale : Int64)
    (dividends : dividend.value = dividend'.value) (divisors : divisor.value = divisor'.value) :
    Concur Eq (dividend.divideAtScale divisor scale mode)
      (dividend'.divideAtScale divisor' scale mode) := by
  by_cases zero : divisor.value = 0
  · rw [divideAtScale_of_zero mode zero, divideAtScale_of_zero mode (divisors ▸ zero)]
    exact .error rfl
  · rcases divideAtScale_cases dividend scale mode zero with
      ⟨-, broken⟩ | ⟨-, -, refused⟩ | ⟨-, -, reached⟩
    · rw [broken]
      exact .leftOverflow _
    · rw [refused]
      exact .leftTooLarge _ _
    · rcases divideAtScale_cases dividend' scale mode (divisors ▸ zero) with
        ⟨-, broken⟩ | ⟨-, -, refused⟩ | ⟨-, -, reached'⟩
      · rw [broken]
        exact .rightOverflow _
      · rw [refused]
        exact .rightTooLarge _ _
      · rw [reached, reached', dividends, divisors]
        exact .ok rfl

theorem divideToPrecision_concur (precision : UInt32)
    (dividends : dividend.value = dividend'.value) (divisors : divisor.value = divisor'.value) :
    Concur Eq (dividend.divideToPrecision divisor precision)
      (dividend'.divideToPrecision divisor' precision) := by
  unfold divideToPrecision
  rw [← isZero_congr divisors, ← isZero_congr dividends]
  cases zero : divisor.isZero with
  | true => exact .error rfl
  | false =>
      cases nothing : dividend.isZero with
      | true => exact .ok rfl
      | false =>
          have first := isZero_eq_false_iff.mp nothing
          have second := isZero_eq_false_iff.mp zero
          refine (Checked.leadingExponent_concur first dividends).bind_eq fun leading _ _ => ?_
          refine (Checked.leadingExponent_concur second divisors).bind_eq fun leading' _ _ => ?_
          refine (Concur.of_eq rfl).bind_eq fun exponent _ _ => ?_
          refine (Concur.of_eq rfl).bind_eq fun scale _ _ => ?_
          refine (divideAtScale_concur .halfEven scale dividends divisors).bind_eq ?_
          exact fun quotient _ _ => .of_eq rfl

end Quotients

end Decimal
end DecimalCalculator
