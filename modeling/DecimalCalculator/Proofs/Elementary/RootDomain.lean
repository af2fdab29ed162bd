/-
The numbers whose roots of any degree are computed.

The root of a positive number by an integer degree has the digits of its series, unless a scale
leaves the words, so its reciprocal exists; by any other degree it is an exponential.
The root of zero is zero whatever the sign of the degree is, and a negative number has a root
if its degree is an odd integer of 32 bits.  The first of these is too much and the second too
little: zero has no reciprocal, and odd integers have more than 32 bits too.
-/

import Mathlib
import DecimalCalculator.Proofs.Decimal.WholeNumbers
import DecimalCalculator.Proofs.Elementary.ExponentialSize
import DecimalCalculator.Proofs.Elementary.Logarithm
import DecimalCalculator.Proofs.Elementary.Root

namespace DecimalCalculator
namespace Elementary

open Decimal

variable {radicand degree : Decimal} {precision : Precision}

/-! ### Digits of roots -/

section Digits

variable {integer : UInt32}

theorem exists_rootExponent_eq (nonzero : integer ≠ 0) (precision : Precision) {scale : Int}
    (places : scale = precision.seriesScale.toInt -
      (radicand.digitCount - 1 - radicand.scale.toInt) / integer.toNat) :
    ∃ rest : Nat, rest < integer.toNat ∧
      integer.toNat * scale - radicand.scale.toInt =
        ((integer.toNat * precision.guarded.toNat + rest : Nat) : Int) -
          (radicand.digitCount - 1) := by
  have positive := Nat.pos_of_ne_zero (toNat_degree_ne_zero nonzero)
  have precisionBound := precision.guarded.toNat_lt
  have series : precision.seriesScale.toInt = precision.guarded.toNat :=
    Int64.toInt_ofNat_of_lt (by omega)
  obtain ⟨rest, known⟩ := Int.eq_ofNat_of_zero_le (Int.emod_nonneg
    (radicand.digitCount - 1 - radicand.scale.toInt) (show (integer.toNat : Int) ≠ 0 by omega))
  have proper := Int.emod_lt_of_pos (radicand.digitCount - 1 - radicand.scale.toInt)
    (show 0 < (integer.toNat : Int) by omega)
  have division := Int.mul_ediv_add_emod (radicand.digitCount - 1 - radicand.scale.toInt)
    integer.toNat
  refine ⟨rest, by omega, ?_⟩
  rw [places, series, mul_sub]
  push_cast
  omega

/-- If the exponent of the first digit is a multiple of the degree and a rest, that of the first
digit of the root is the factor. -/
theorem floorRoot_digits {degree places rest : Nat} {value : ℚ} (proper : rest < degree)
    (least : 10 ^ (degree * places + rest) ≤ value)
    (most : value < 10 ^ (degree * places + rest + 1)) :
    10 ^ places ≤ IntegerRoot.floorRoot degree ⌊value⌋₊ ∧
      IntegerRoot.floorRoot degree ⌊value⌋₊ < 10 ^ (places + 1) := by
  have positive : degree ≠ 0 := by omega
  have nonneg : 0 ≤ value := (pow_nonneg (by norm_num) _).trans least
  constructor
  · apply IntegerRoot.le_floorRoot_floor positive
    push_cast
    calc
      ((10 : ℚ) ^ places) ^ degree = 10 ^ (degree * places) := by rw [← pow_mul, mul_comm]
      _ ≤ 10 ^ (degree * places + rest) := pow_le_pow_right₀ (by norm_num) (Nat.le_add_right _ _)
      _ ≤ value := least
  · have below : (IntegerRoot.floorRoot degree ⌊value⌋₊ : ℚ) ^ degree <
        (10 ^ (places + 1)) ^ degree :=
      calc
        _ ≤ value := IntegerRoot.floorRoot_floor_pow_le positive nonneg
        _ < 10 ^ (degree * places + rest + 1) := most
        _ ≤ 10 ^ ((places + 1) * degree) := by
          refine pow_le_pow_right₀ (by norm_num) ?_
          rw [add_mul, one_mul, mul_comm]
          omega
        _ = (10 ^ (places + 1)) ^ degree := pow_mul _ _ _
    exact_mod_cast lt_of_pow_lt_pow_left₀ _ (by positivity) below

theorem units_mul_zpow_between {exponent : Nat} (above : 0 < radicand.value) :
    10 ^ exponent ≤ (radicand.unscaled.natAbs : ℚ) *
        10 ^ ((exponent : Int) - (radicand.digitCount - 1)) ∧
      (radicand.unscaled.natAbs : ℚ) * 10 ^ ((exponent : Int) - (radicand.digitCount - 1)) <
        10 ^ (exponent + 1) := by
  have ten : (10 : ℚ) ≠ 0 := by norm_num
  have count : 1 ≤ radicand.digitCount := Digits.count_pos _
  obtain ⟨least, most⟩ := (digitCount_eq_iff (value_pos_iff.mp above).ne').mp rfl
  obtain ⟨before, known⟩ := Nat.exists_eq_add_of_le' count
  rw [known, Nat.add_sub_cancel] at least
  rw [known] at most ⊢
  rw [Nat.cast_succ, add_sub_cancel_right]
  have unit : (0 : ℚ) < 10 ^ ((exponent : Int) - before) := zpow_pos (by norm_num) _
  have front : (10 : ℚ) ^ before * 10 ^ ((exponent : Int) - before) = 10 ^ exponent := by
    rw [← zpow_natCast, ← zpow_natCast, ← zpow_add₀ ten, add_sub_cancel]
  have digits : (10 : ℚ) ^ before ≤ radicand.unscaled.natAbs := by exact_mod_cast least
  have digits' : (radicand.unscaled.natAbs : ℚ) < 10 ^ (before + 1) := by exact_mod_cast most
  constructor
  · rw [← front]
    exact mul_le_mul_of_nonneg_right digits unit.le
  · rw [pow_succ, ← front, mul_right_comm, ← pow_succ]
    exact mul_lt_mul_of_pos_right digits' unit

theorem ends_rootAtScale (above : 0 < radicand.value) (nonzero : integer ≠ 0)
    (precision : Precision) {scale : Int64} (places : scale.toInt = precision.seriesScale.toInt -
      (radicand.digitCount - 1 - radicand.scale.toInt) / integer.toNat) :
    Ends (fun root => 10 ^ precision.guarded.toNat ≤ root.unscaled.natAbs ∧
        root.unscaled.natAbs < 10 ^ (precision.guarded.toNat + 1)) IsTooLarge
      (rootAtScale radicand integer.toNat scale) := by
  rcases rootAtScale_cases radicand integer.toNat scale with
    ⟨-, broken⟩ | ⟨-, refused⟩ | ⟨-, -, reached⟩
  · rw [broken]
    exact .error .overflow
  · rw [refused]
    exact .error (.intro _)
  · obtain ⟨rest, proper, exponent⟩ := exists_rootExponent_eq nonzero precision places
    obtain ⟨least, most⟩ := units_mul_zpow_between above
    rw [reached, exponent]
    exact .ok (floorRoot_digits proper least most)

theorem ends_rootOfPositive (above : 0 < radicand.value) (nonzero : integer ≠ 0)
    (precision : Precision) :
    Ends (fun root => root.value ≠ 0) IsTooLarge (rootOfPositive radicand integer precision) := by
  refine .requireWords .overflow fun guards => ?_
  refine (Checked.ends_word _).bind fun leading first => ?_
  refine (Checked.ends_word _).bind fun scale places => ?_
  rw [first] at places
  refine (ends_rootAtScale above nonzero precision places).bind fun root digits => ?_
  obtain ⟨atLeast, below⟩ := digits
  have room : 11 ≤ largestExponent := by decide
  have units : 0 < root.unscaled.natAbs := lt_of_lt_of_le (Nat.pow_pos (by decide)) atLeast
  have some := Int.natAbs_pos.mp units
  have count : root.digitCount = precision.guarded.toNat + 1 :=
    (digitCount_eq_iff some).mpr ⟨atLeast, below⟩
  have guard : precision.guarded.toNat ≤ precision.toNat + 10 := by
    rw [Precision.guarded, UInt32.toNat_add]
    exact Nat.mod_le _ _
  have bound := precision.guarded.toNat_lt
  have kept : precision.toNat ≤ keptDigits precision := le_max_left _ _
  rw [Checked.roundToPrecision_eq (by omega)]
  refine ends_unlessOverflow fun _ => ?_
  refine value_roundToPrecision_ne_zero ?_ (mt value_eq_zero_iff.mp some)
  rw [droppedDigits]
  omega

end Digits

/-! ### The paths of a root -/

theorem rootOfDegree_of_zero_degree (zero : degree.value = 0) :
    rootOfDegree radicand degree precision = .error .divisionByZero := by
  rw [rootOfDegree, isZero_iff.mpr zero]
  rfl

theorem rootOfDegree_of_zero (nonzero : degree.value ≠ 0) (zero : radicand.value = 0) :
    rootOfDegree radicand degree precision = .ok 0 := by
  rw [rootOfDegree, isZero_eq_false_iff.mpr nonzero, isZero_iff.mpr zero]
  rfl

section Paths

variable (degreeNonzero : degree.value ≠ 0) (nonzero : radicand.value ≠ 0)
include degreeNonzero nonzero

theorem rootOfDegree_of_word {integer : UInt32}
    (found : Checked.toUInt32? degree.abs = .ok (some integer)) :
    rootOfDegree radicand degree precision = (do
      let result ← root radicand integer precision
      if degree.isNegative then divideToPrecision 1 result precision else return result) := by
  rw [rootOfDegree, isZero_eq_false_iff.mpr degreeNonzero, isZero_eq_false_iff.mpr nonzero, found]
  rfl

theorem rootOfDegree_of_no_word (missing : Checked.toUInt32? degree.abs = .ok none) :
    rootOfDegree radicand degree precision = (do
      requireWords precision.Guards
      let logarithm ← ln radicand precision.guarded
      exp (← logarithm.divideToPrecision degree precision.guarded) precision) := by
  rw [rootOfDegree, isZero_eq_false_iff.mpr degreeNonzero, isZero_eq_false_iff.mpr nonzero, missing]
  rfl

theorem succeeds_rootOfDegree_of_word {integer : UInt32}
    (found : Checked.toUInt32? degree.abs = .ok (some integer))
    (ends : Ends (fun root => root.value ≠ 0) IsTooLarge (root radicand integer precision)) :
    SucceedsUnlessTooLarge (rootOfDegree radicand degree precision) := by
  rw [rootOfDegree_of_word degreeNonzero nonzero found]
  refine ends.bind fun result kept => ?_
  split
  · exact succeeds_divideToPrecision kept precision
  · exact .ok trivial

end Paths

/-! ### Positive numbers -/

/-- An exponent that a root is the exponential of: if it is negative, it is not below minus a
billion and has few enough digits. -/
def ExponentIsModerate (radicand degree : Decimal) (precision : Precision) : Prop :=
  degree.abs.toUInt32? = none → ∀ logarithm exponent,
    ln radicand precision.guarded = .ok logarithm →
    logarithm.divideToPrecision degree precision.guarded = .ok exponent →
    exponent.value < 0 → exponent.IsShort ∧ -10 ^ 9 ≤ exponent.value

theorem value_abs_ne_zero {number : Decimal} (nonzero : number.value ≠ 0) :
    number.abs.value ≠ 0 := by
  rw [value_abs]
  exact abs_ne_zero.mpr nonzero

theorem succeeds_rootOfDegree_of_pos (above : 0 < radicand.value)
    (degreeNonzero : degree.value ≠ 0)
    (moderate : ExponentIsModerate radicand degree precision) :
    SucceedsUnlessTooLarge (rootOfDegree radicand degree precision) := by
  cases read : Checked.toUInt32? degree.abs with
  | error fault =>
      obtain ⟨-, rfl⟩ := unlessOverflow_eq_error_iff.mp read
      rw [rootOfDegree, isZero_eq_false_iff.mpr degreeNonzero, isZero_eq_false_iff.mpr above.ne',
        read]
      exact .error .overflow
  | ok word =>
      obtain ⟨-, found⟩ := unlessOverflow_eq_ok_iff.mp read
      cases word with
      | some integer =>
          have nonzero := toUInt32?_ne_zero (value_abs_ne_zero degreeNonzero) found
          apply succeeds_rootOfDegree_of_word degreeNonzero above.ne' read
          rw [root_eq_of_pos nonzero above]
          exact ends_rootOfPositive above nonzero precision
      | none =>
          rw [rootOfDegree_of_no_word degreeNonzero above.ne' read]
          refine .requireWords .overflow fun guards => ?_
          refine (succeeds_ln above precision.guarded).bind_eq fun logarithm reached => ?_
          refine (succeeds_divideToPrecision degreeNonzero precision.guarded).bind_eq ?_
          intro exponent divided
          exact succeeds_exp exponent precision (moderate found logarithm exponent reached divided)

theorem isShort_of_divideToPrecision {dividend divisor quotient : Decimal}
    (first : IsWide dividend) (second : IsWide divisor) (nonzero : dividend.value ≠ 0)
    (nonzero' : divisor.value ≠ 0) (few : precision.toNat ≤ 10 ^ 7)
    (divided : dividend.divideToPrecision divisor precision = .ok quotient) : quotient.IsShort := by
  obtain ⟨finer, rounded, written, -, -, digits⟩ := exists_finerQuotient nonzero nonzero' divided
  obtain ⟨-, rfl⟩ := Checked.roundToPrecision_eq_ok (by omega) rounded
  have place := firstPlace_value nonzero
  have place' := firstPlace_value nonzero'
  obtain ⟨count, lower, upper⟩ := first
  obtain ⟨count', lower', upper'⟩ := second
  have room : 2 * 10 ^ 7 ≤ largestExponent := by decide
  have kept : keptDigits precision ≤ 10 ^ 7 := max_le few (by decide)
  have dropped : finer.droppedDigits precision ≤ finer.digitCount := Nat.sub_le _ _
  rw [firstRoundingPlace] at written
  have rounds : finer.RoundsToPrecision precision := ⟨by omega, by omega⟩
  have most := rounds.digitCount_le
  rw [IsShort]
  omega

/-- The logarithm of a moderate number is at most a hundred million times as large as a degree
that leaves a moderate exponent. -/
theorem exponentIsModerate_of_log (moderate : IsModerate radicand) (few : precision.toNat ≤ 10 ^ 6)
    (above : 0 < radicand.value) (wide : IsWide degree) (degreeNonzero : degree.value ≠ 0)
    (bounded : |Real.log radicand.value| ≤ 10 ^ 8 * |(degree.value : ℝ)|) :
    ExponentIsModerate radicand degree precision := by
  intro _ logarithm exponent reached divided negative
  have guarded : precision.guarded.toNat = precision.toNat + 10 := toNat_guarded (by omega)
  by_cases one : radicand.value = 1
  · rw [ln_of_value_one moderate one] at reached
    cases reached
    rw [divideToPrecision_of_zero degreeNonzero (value_eq_zero_iff.mpr rfl)] at divided
    cases divided
    exact absurd negative (value_eq_zero_iff.mpr rfl).not_lt
  obtain ⟨result, found, isLogarithm⟩ :=
    exists_ln precision.guarded moderate (by omega) (by omega) above one
  obtain rfl : logarithm = result := Except.ok.inj (reached.symm.trans found)
  have unit := zpow_one_sub_le_one (show 1 ≤ precision.guarded.toNat by omega)
  have nonzero := ne_zero_of_near (log_ne_zero above one) isLogarithm.near (by linarith)
  obtain ⟨quotient, divided', near⟩ := isLogarithm.wide.exists_divideToPrecision wide nonzero
    degreeNonzero (show 1 ≤ precision.guarded.toNat by omega) (by omega)
  obtain rfl : exponent = quotient := Except.ok.inj (divided.symm.trans divided')
  refine ⟨isShort_of_divideToPrecision isLogarithm.wide wide nonzero degreeNonzero (by omega)
    divided, ?_⟩
  have size : |(logarithm.value : ℝ)| ≤ 8 / 5 * |Real.log radicand.value| := by
    have triangle := abs_sub_abs_le_abs_sub (logarithm.value : ℝ) (Real.log radicand.value)
    have close := isLogarithm.near
    rw [abs_sub_comm] at triangle
    nlinarith [abs_nonneg (Real.log radicand.value)]
  have quotientSize : |(logarithm.value : ℝ) / degree.value| ≤ 10 ^ (9 : Int) / 2 := by
    have some : 0 < |(degree.value : ℝ)| := abs_pos.mpr (Rat.cast_ne_zero.mpr degreeNonzero)
    rw [abs_div, div_le_iff₀ some]
    norm_num
    linarith
  have near' := (Rat.cast_le (K := ℝ)).mpr near
  push_cast at near'
  have most := abs_le_zpow_of_near near' (by linarith) quotientSize
  exact_mod_cast neg_le_of_abs_le most

/-! ### Negative numbers -/

section Negative

variable (below : radicand.value < 0) (reaches : radicand.Reaches 0)
  (reads : degree.ReadsAsInteger)

include reads

theorem checkedToUInt32?_abs : Checked.toUInt32? degree.abs = .ok degree.abs.toUInt32? :=
  unlessOverflow_of fun _ => .of_reaches reads.abs.reaches

theorem exists_word_iff {whole : Int} (same : degree.value = whole) :
    (∃ word : UInt32, degree.abs.toUInt32? = some word ∧ word.toNat = whole.natAbs) ↔
      |whole| < 2 ^ 32 := by
  have size : degree.abs.value = (whole.natAbs : Nat) := by
    rw [value_abs, same, Nat.cast_natAbs, Int.cast_abs]
  rw [Int.abs_eq_natAbs]
  constructor
  · rintro ⟨word, -, known⟩
    have bound := word.toNat_lt
    omega
  · intro narrow
    have narrow' : whole.natAbs < 2 ^ 32 := by omega
    refine ⟨UInt32.ofNat whole.natAbs, ?_, UInt32.toNat_ofNat_of_lt' narrow'⟩
    rw [reads.abs.toUInt32?_eq_some_iff, size, UInt32.toNat_ofNat_of_lt' narrow']

theorem exists_whole_of_word {word : UInt32} (found : degree.abs.toUInt32? = some word) :
    ∃ whole : Int, degree.value = whole ∧ whole.natAbs = word.toNat := by
  have size := reads.abs.toUInt32?_eq_some_iff.mp found
  rw [value_abs] at size
  rcases abs_choice degree.value with positive | negative
  · refine ⟨word.toNat, ?_, Int.natAbs_natCast _⟩
    rw [← positive, size, Int.cast_natCast]
  · refine ⟨-word.toNat, ?_, ?_⟩
    · rw [Int.cast_neg, Int.cast_natCast, ← size, negative, neg_neg]
    · rw [Int.natAbs_neg, Int.natAbs_natCast]

include below

theorem succeeds_rootOfDegree_of_odd {whole : Int}
    (same : degree.value = whole) (narrow : |whole| < 2 ^ 32) (odd : Odd whole) :
    SucceedsUnlessTooLarge (rootOfDegree radicand degree precision) := by
  obtain ⟨word, found, size⟩ := (exists_word_iff reads same).mpr narrow
  have odd' : word.toNat % 2 = 1 := by
    rw [size]
    exact Nat.odd_iff.mp (Int.natAbs_odd.mpr odd)
  have degreeNonzero : degree.value ≠ 0 := by
    rw [same]
    rintro zero
    rw [Int.cast_eq_zero.mp zero] at odd
    exact absurd odd (by decide)
  have nonzero := toUInt32?_ne_zero (value_abs_ne_zero degreeNonzero) found
  have above : 0 < (-radicand).value := by
    rw [value_neg]
    exact neg_pos.mpr below
  have read := checkedToUInt32?_abs reads
  rw [found] at read
  apply succeeds_rootOfDegree_of_word degreeNonzero below.ne read
  rw [root_neg_of_odd below odd', root_eq_of_pos nonzero above]
  refine (ends_rootOfPositive above nonzero precision).map fun root kept => ?_
  rw [value_neg]
  exact neg_ne_zero.mpr kept

include reaches

theorem rootOfDegree_of_even {whole : Int} (same : degree.value = whole) (nonzero : whole ≠ 0)
    (narrow : |whole| < 2 ^ 32) (even : Even whole) :
    rootOfDegree radicand degree precision = .error (.evenRootOfNegative radicand) := by
  obtain ⟨word, found, size⟩ := (exists_word_iff reads same).mpr narrow
  have degreeNonzero : degree.value ≠ 0 := by
    rw [same]
    exact Int.cast_ne_zero.mpr nonzero
  have some := toUInt32?_ne_zero (value_abs_ne_zero degreeNonzero) found
  have even' : word % 2 = 0 := by
    rw [mod_two_eq_zero_iff, size]
    exact Nat.even_iff.mp (Int.natAbs_even.mpr even)
  have read := checkedToUInt32?_abs reads
  rw [found] at read
  rw [rootOfDegree_of_word degreeNonzero below.ne read, root_eq_of_neg some below, if_pos even',
    Checked.refuse_of_reaches _ reaches]
  rfl

theorem rootOfDegree_of_wide (guards : precision.Guards)
    (wide : ¬∃ whole : Int, degree.value = whole ∧ |whole| < 2 ^ 32) :
    rootOfDegree radicand degree precision = .error (.logarithmOfNonpositive radicand) := by
  have degreeNonzero : degree.value ≠ 0 :=
    fun zero => wide ⟨0, by rw [zero, Int.cast_zero], by decide⟩
  cases found : degree.abs.toUInt32? with
  | some word =>
      obtain ⟨whole, same, size⟩ := exists_whole_of_word reads found
      exact absurd ⟨whole, same, (exists_word_iff reads same).mp ⟨word, found, size.symm⟩⟩ wide
  | none =>
      have read := checkedToUInt32?_abs reads
      rw [found] at read
      rw [rootOfDegree_of_no_word degreeNonzero below.ne read, requireWords_bind_of guards,
        ln_of_nonpos below.le, Checked.refuse_of_reaches _ reaches]
      rfl

end Negative

/-! ### All numbers and degrees -/

/-- The real number `radicand ^ (1 / degree)` exists: the root of a positive number by any
degree but zero, that of zero by a positive one, and that of a negative number by an odd
integer. -/
inductive HasRealRoot (radicand degree : ℚ) : Prop where
  | ofPositive (above : 0 < radicand) (nonzero : degree ≠ 0)
  | ofZero (zero : radicand = 0) (above : 0 < degree)
  | ofNegative (below : radicand < 0) (odd : ∃ whole : Int, Odd whole ∧ degree = whole)

theorem hasRealRoot_of_pos_iff {radicand degree : ℚ} (above : 0 < radicand) :
    HasRealRoot radicand degree ↔ degree ≠ 0 := by
  constructor
  · rintro (⟨-, nonzero⟩ | ⟨zero, -⟩ | ⟨below, -⟩)
    · exact nonzero
    · exact absurd zero above.ne'
    · exact absurd below (lt_asymm above)
  · exact .ofPositive above

theorem hasRealRoot_of_zero_iff {degree : ℚ} : HasRealRoot 0 degree ↔ 0 < degree := by
  constructor
  · rintro (⟨above, -⟩ | ⟨-, positive⟩ | ⟨below, -⟩)
    · exact absurd above (lt_irrefl 0)
    · exact positive
    · exact absurd below (lt_irrefl 0)
  · exact .ofZero rfl

theorem hasRealRoot_of_neg_iff {radicand degree : ℚ} (below : radicand < 0) :
    HasRealRoot radicand degree ↔ ∃ whole : Int, Odd whole ∧ degree = whole := by
  constructor
  · rintro (⟨above, -⟩ | ⟨zero, -⟩ | ⟨-, odd⟩)
    · exact absurd above (lt_asymm below)
    · exact absurd zero below.ne
    · exact odd
  · exact .ofNegative below

theorem succeeds_rootOfDegree_of_neg_iff (guards : precision.Guards) (below : radicand.value < 0)
    (reaches : radicand.Reaches 0) (reads : degree.ReadsAsInteger) :
    SucceedsUnlessTooLarge (rootOfDegree radicand degree precision) ↔
      ∃ whole : Int, Odd whole ∧ degree.value = whole ∧ |whole| < 2 ^ 32 := by
  constructor
  · intro succeeds
    by_contra refused
    by_cases narrow : ∃ whole : Int, degree.value = whole ∧ |whole| < 2 ^ 32
    · obtain ⟨whole, same, narrow⟩ := narrow
      have even : Even whole :=
        Int.not_odd_iff_even.mp fun odd => refused ⟨whole, odd, same, narrow⟩
      by_cases zero : whole = 0
      · rw [zero, Int.cast_zero] at same
        cases succeeds.of_eq_error (rootOfDegree_of_zero_degree same)
      · cases succeeds.of_eq_error (rootOfDegree_of_even below reaches reads same zero narrow even)
    · cases succeeds.of_eq_error (rootOfDegree_of_wide below reaches reads guards narrow)
  · rintro ⟨whole, odd, same, narrow⟩
    exact succeeds_rootOfDegree_of_odd below reads same narrow odd

theorem narrow_iff_odd_iff (degree : ℚ) :
    ((∃ whole : Int, Odd whole ∧ degree = whole ∧ |whole| < 2 ^ 32) ↔
        ∃ whole : Int, Odd whole ∧ degree = whole) ↔
      ¬∃ whole : Int, Odd whole ∧ degree = whole ∧ 2 ^ 32 ≤ |whole| := by
  constructor
  · rintro agree ⟨whole, odd, same, wide⟩
    obtain ⟨other, -, same', narrow⟩ := agree.mpr ⟨whole, odd, same⟩
    rw [same, Int.cast_inj] at same'
    rw [same'] at wide
    exact absurd narrow (not_lt.mpr wide)
  · intro none
    constructor
    · rintro ⟨whole, odd, same, -⟩
      exact ⟨whole, odd, same⟩
    · rintro ⟨whole, odd, same⟩
      exact ⟨whole, odd, same, not_le.mp fun wide => none ⟨whole, odd, same, wide⟩⟩

theorem succeeds_rootOfDegree_of_zero_iff (zero : radicand.value = 0) :
    SucceedsUnlessTooLarge (rootOfDegree radicand degree precision) ↔ degree.value ≠ 0 := by
  constructor
  · intro succeeds none
    cases succeeds.of_eq_error (rootOfDegree_of_zero_degree none)
  · intro nonzero
    rw [rootOfDegree_of_zero nonzero zero]
    exact .ok trivial

theorem succeeds_rootOfDegree_of_pos_iff (above : 0 < radicand.value)
    (moderate : ExponentIsModerate radicand degree precision) :
    SucceedsUnlessTooLarge (rootOfDegree radicand degree precision) ↔ degree.value ≠ 0 := by
  constructor
  · intro succeeds none
    cases succeeds.of_eq_error (rootOfDegree_of_zero_degree none)
  · intro nonzero
    exact succeeds_rootOfDegree_of_pos above nonzero moderate

/-- A root is computed where it exists, but for two kinds of numbers: zero, which is its own
root by a negative degree too, and negative numbers, which are refused with odd integers of more
than 32 bits.  Whatever else has no root is refused. -/
theorem rootOfDegree_realRoot_iff (radicand degree : Decimal) (precision : Precision)
    (guards : precision.Guards) (reaches : radicand.value < 0 → radicand.Reaches 0)
    (reads : radicand.value < 0 → degree.ReadsAsInteger)
    (moderate : 0 < radicand.value → ExponentIsModerate radicand degree precision) :
    ((SucceedsUnlessTooLarge (rootOfDegree radicand degree precision) ↔
        HasRealRoot radicand.value degree.value) ↔
      ¬(radicand.value = 0 ∧ degree.value < 0) ∧
        ¬(radicand.value < 0 ∧
          ∃ whole : Int, Odd whole ∧ degree.value = whole ∧ 2 ^ 32 ≤ |whole|)) ∧
    (degree.value = 0 → rootOfDegree radicand degree precision = .error .divisionByZero) ∧
    (degree.value ≠ 0 → radicand.value = 0 → rootOfDegree radicand degree precision = .ok 0) ∧
    (radicand.value < 0 → ∀ whole : Int, degree.value = whole → whole ≠ 0 → |whole| < 2 ^ 32 →
      Even whole → rootOfDegree radicand degree precision = .error (.evenRootOfNegative radicand)) ∧
    (radicand.value < 0 → (¬∃ whole : Int, degree.value = whole ∧ |whole| < 2 ^ 32) →
      rootOfDegree radicand degree precision = .error (.logarithmOfNonpositive radicand)) := by
  refine ⟨?_, rootOfDegree_of_zero_degree, rootOfDegree_of_zero, ?_, ?_⟩
  · rcases lt_trichotomy radicand.value 0 with below | zero | above
    · rw [succeeds_rootOfDegree_of_neg_iff guards below (reaches below) (reads below),
        hasRealRoot_of_neg_iff below, narrow_iff_odd_iff]
      exact ⟨fun none => ⟨fun both => below.ne both.1, fun both => none both.2⟩,
        fun both wide => both.2 ⟨below, wide⟩⟩
    · rw [succeeds_rootOfDegree_of_zero_iff zero, zero, hasRealRoot_of_zero_iff]
      constructor
      · intro agree
        exact ⟨fun both => lt_asymm both.2 (agree.mp both.2.ne), fun both => lt_irrefl 0 both.1⟩
      · rintro ⟨nonneg, -⟩
        refine ⟨fun nonzero => ?_, ne_of_gt⟩
        exact lt_of_le_of_ne (not_lt.mp fun negative => nonneg ⟨rfl, negative⟩) nonzero.symm
    · rw [succeeds_rootOfDegree_of_pos_iff above (moderate above), hasRealRoot_of_pos_iff above]
      exact iff_of_true Iff.rfl
        ⟨fun both => above.ne' both.1, fun both => lt_asymm above both.1⟩
  · intro below whole same nonzero narrow even
    exact rootOfDegree_of_even below (reaches below) (reads below) same nonzero narrow even
  · intro below wide
    exact rootOfDegree_of_wide below (reaches below) (reads below) guards wide

/-- The root of two by minus five halves, which is an exponential, and the roots of minus eight
by minus three and by four. -/
theorem rootOfDegree_realRoot_two_and_minus_eight :
    SucceedsUnlessTooLarge (rootOfDegree (ofInt 2) ⟨-25, 1⟩ 20) ∧
    SucceedsUnlessTooLarge (rootOfDegree (ofInt (-8)) (ofInt (-3)) 20) ∧
    rootOfDegree (ofInt (-8)) (ofInt 4) 20 = .error (.evenRootOfNegative (ofInt (-8))) := by
  have half : (⟨-25, 1⟩ : Decimal).value = -5 / 2 := by
    change ((-25 : Int) : ℚ) / 10 ^ (1 : Int) = _
    norm_num
  have above : 0 < (ofInt 2).value := value_pos_iff.mpr (by decide)
  have nonzero : (⟨-25, 1⟩ : Decimal).value ≠ 0 := mt value_eq_zero_iff.mp (by decide)
  have below : (ofInt (-8)).value < 0 := value_neg_iff.mpr (by decide)
  have moderate : ExponentIsModerate (ofInt 2) ⟨-25, 1⟩ 20 := by
    refine exponentIsModerate_of_log ⟨by decide, by decide, by decide⟩ (by decide) above
      ⟨by decide, by decide, by decide⟩ nonzero ?_
    have positive := Real.log_pos (show (1 : ℝ) < 2 by norm_num)
    have small := Real.log_le_sub_one_of_pos (show (0 : ℝ) < 2 by norm_num)
    rw [value_ofInt, half]
    push_cast
    rw [abs_of_pos positive, neg_div, abs_neg, abs_of_pos (by norm_num)]
    linarith
  refine ⟨?_, ?_, ?_⟩
  · have root := rootOfDegree_realRoot_iff (ofInt 2) ⟨-25, 1⟩ 20 (by decide)
      (fun negative => absurd negative (lt_asymm above))
      (fun negative => absurd negative (lt_asymm above)) fun _ => moderate
    exact (root.1.mpr ⟨fun both => above.ne' both.1, fun both => lt_asymm above both.1⟩).mpr
      (.ofPositive above nonzero)
  · have root := rootOfDegree_realRoot_iff (ofInt (-8)) (ofInt (-3)) 20 (by decide)
      (fun _ => by decide) (fun _ => .of_scale (by decide) (by decide))
      fun positive => absurd positive (lt_asymm below)
    refine (root.1.mpr ⟨fun both => below.ne both.1, ?_⟩).mpr
      (.ofNegative below ⟨-3, by decide, value_ofInt (-3)⟩)
    rintro ⟨-, whole, -, same, wide⟩
    rw [value_ofInt, Int.cast_inj] at same
    rw [← same] at wide
    exact absurd wide (by decide)
  · have root := rootOfDegree_realRoot_iff (ofInt (-8)) (ofInt 4) 20 (by decide)
      (fun _ => by decide) (fun _ => .of_scale (by decide) (by decide))
      fun positive => absurd positive (lt_asymm below)
    exact root.2.2.2.1 below 4 (value_ofInt 4) (by decide) (by decide) (by decide)

/-- Zero is answered as its own root by minus two, although it has no reciprocal. -/
theorem rootOfDegree_zero_by_minus_two :
    rootOfDegree 0 (ofInt (-2)) 20 = .ok 0 ∧
    ¬(SucceedsUnlessTooLarge (rootOfDegree 0 (ofInt (-2)) 20) ↔
      HasRealRoot (value 0) (ofInt (-2)).value) := by
  have zero : (0 : Decimal).value = 0 := value_eq_zero_iff.mpr rfl
  have answered : rootOfDegree 0 (ofInt (-2)) 20 = .ok 0 := rfl
  refine ⟨answered, ?_⟩
  rw [answered, zero, hasRealRoot_of_zero_iff]
  intro agree
  exact absurd (value_pos_iff.mp (agree.mp (.ok trivial))) (by decide)

end Elementary
end DecimalCalculator
