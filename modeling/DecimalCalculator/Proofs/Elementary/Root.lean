/-
Roots enclosed by their last place.

The root of a positive number is truncated eleven digits behind its last one and then
rounded, so it is less than one unit of its last place away, and a root that has no more
digits is found itself.  A root whose scales and exponents are not words is broken off.
-/

import Mathlib
import DecimalCalculator.Proofs.Elementary.Power
import DecimalCalculator.Proofs.Decimal.Quotient

namespace DecimalCalculator

/-! ### Integer parts of roots of rational numbers -/

namespace IntegerRoot

variable {degree whole : Nat} {value : ℚ}

theorem floorRoot_floor_pow_le (positive : degree ≠ 0) (nonneg : 0 ≤ value) :
    (floorRoot degree ⌊value⌋₊ : ℚ) ^ degree ≤ value := by
  have within : (floorRoot degree ⌊value⌋₊ : ℚ) ^ degree ≤ ⌊value⌋₊ := by
    exact_mod_cast floorRoot_pow_le positive ⌊value⌋₊
  exact within.trans (Nat.floor_le nonneg)

theorem lt_succ_floorRoot_floor_pow (positive : degree ≠ 0) (value : ℚ) :
    value < (floorRoot degree ⌊value⌋₊ + 1 : ℚ) ^ degree := by
  have exceeds : (⌊value⌋₊ + 1 : ℚ) ≤ (floorRoot degree ⌊value⌋₊ + 1) ^ degree := by
    exact_mod_cast lt_succ_floorRoot_pow positive ⌊value⌋₊
  exact (Nat.lt_floor_add_one value).trans_le exceeds

theorem le_floorRoot_floor (positive : degree ≠ 0) (within : (whole : ℚ) ^ degree ≤ value) :
    whole ≤ floorRoot degree ⌊value⌋₊ := by
  have powers : (whole : ℚ) ^ degree < (floorRoot degree ⌊value⌋₊ + 1 : ℚ) ^ degree :=
    within.trans_lt (lt_succ_floorRoot_floor_pow positive value)
  have below : (whole : ℚ) < floorRoot degree ⌊value⌋₊ + 1 :=
    lt_of_pow_lt_pow_left₀ degree (by positivity) powers
  have integers : whole < floorRoot degree ⌊value⌋₊ + 1 := by exact_mod_cast below
  omega

theorem floorRoot_floor_pow (positive : degree ≠ 0) (whole : Nat) :
    floorRoot degree ⌊(whole : ℚ) ^ degree⌋₊ = whole := by
  apply le_antisymm
  · have within := floorRoot_floor_pow_le positive (show (0 : ℚ) ≤ (whole : ℚ) ^ degree by positivity)
    exact_mod_cast le_of_pow_le_pow_left₀ positive (Nat.cast_nonneg whole) within
  · exact le_floorRoot_floor positive le_rfl

end IntegerRoot

namespace Decimal

variable {value : ℚ} {digits degree : Nat}

/-! ### The place of the first digit of a root -/

def rootPlace (degree : Nat) (value : ℚ) : Int :=
  firstPlace value / degree

theorem rootPlace_pow_le (positive : degree ≠ 0) (above : 0 < value) :
    ((10 : ℚ) ^ rootPlace degree value) ^ degree ≤ value := by
  have places : rootPlace degree value * degree ≤ firstPlace value :=
    Int.ediv_mul_le _ (by exact_mod_cast positive)
  have size := zpow_firstPlace_le above.ne'
  rw [abs_of_pos above] at size
  rw [← zpow_natCast, ← zpow_mul]
  exact (zpow_le_zpow_right₀ (by norm_num) places).trans size

theorem lt_succ_rootPlace_pow (positive : degree ≠ 0) (above : 0 < value) :
    value < ((10 : ℚ) ^ (rootPlace degree value + 1)) ^ degree := by
  have places : firstPlace value + 1 ≤ (rootPlace degree value + 1) * degree :=
    Int.lt_ediv_add_one_mul_self _ (by exact_mod_cast Nat.pos_of_ne_zero positive)
  have size := lt_zpow_firstPlace value
  rw [abs_of_pos above] at size
  rw [← zpow_natCast, ← zpow_mul]
  exact size.trans_le (zpow_le_zpow_right₀ (by norm_num) places)

theorem firstPlace_eq_rootPlace {root : ℚ} (positive : degree ≠ 0) (above : 0 < value)
    (least : (10 : ℚ) ^ rootPlace degree value ≤ root) (within : root ^ degree ≤ value) :
    firstPlace root = rootPlace degree value := by
  have unit : (0 : ℚ) < 10 ^ rootPlace degree value := zpow_pos (by norm_num) _
  have size : |root| = root := abs_of_pos (unit.trans_le least)
  apply firstPlace_eq
  · rwa [size]
  · rw [size]
    apply lt_of_pow_lt_pow_left₀ degree (zpow_nonneg (by norm_num) _)
    exact within.trans_lt (lt_succ_rootPlace_pow positive above)

/-! ### Truncated roots -/

def truncatedRoot (degree : Nat) (places : Int) (value : ℚ) : ℚ :=
  IntegerRoot.floorRoot degree ⌊value * 10 ^ (degree * places)⌋₊ / 10 ^ places

theorem truncatedRoot_nonneg (degree : Nat) (places : Int) (value : ℚ) :
    0 ≤ truncatedRoot degree places value :=
  div_nonneg (Nat.cast_nonneg _) (zpow_nonneg (by norm_num) _)

section Truncation

variable {places : Int} (positive : degree ≠ 0) (above : 0 < value)
include positive above

theorem truncatedRoot_pow_le : truncatedRoot degree places value ^ degree ≤ value := by
  have scaled : 0 ≤ value * 10 ^ (degree * places) := by positivity
  have within := IntegerRoot.floorRoot_floor_pow_le positive scaled
  rw [truncatedRoot, div_pow, ← zpow_natCast (10 ^ places : ℚ), ← zpow_mul, mul_comm places,
    div_le_iff₀ (zpow_pos (by norm_num) _)]
  exact within

omit above in
theorem lt_truncatedRoot_add_pow (value : ℚ) :
    value < (truncatedRoot degree places value + 1 / 10 ^ places) ^ degree := by
  have exceeds := IntegerRoot.lt_succ_floorRoot_floor_pow positive (value * 10 ^ (degree * places))
  rw [truncatedRoot, ← add_div, div_pow, ← zpow_natCast (10 ^ places : ℚ), ← zpow_mul,
    mul_comm places, lt_div_iff₀ (zpow_pos (by norm_num) _)]
  exact exceeds

theorem zpow_rootPlace_le_truncatedRoot (behind : 0 ≤ rootPlace degree value + places) :
    (10 : ℚ) ^ rootPlace degree value ≤ truncatedRoot degree places value := by
  have ten : (10 : ℚ) ≠ 0 := by norm_num
  obtain ⟨zeros, distance⟩ := Int.eq_ofNat_of_zero_le behind
  have first : ((10 ^ zeros : Nat) : ℚ) = 10 ^ rootPlace degree value * 10 ^ places := by
    rw [← zpow_add₀ ten, distance, zpow_natCast]
    push_cast
    rfl
  have within : ((10 ^ zeros : Nat) : ℚ) ^ degree ≤ value * 10 ^ (degree * places) := by
    rw [first, mul_pow, mul_comm (degree : Int), zpow_mul, zpow_natCast]
    gcongr
    exact rootPlace_pow_le positive above
  have units := IntegerRoot.le_floorRoot_floor positive within
  rw [truncatedRoot, le_div_iff₀ (zpow_pos (by norm_num) _), ← first]
  exact_mod_cast units

end Truncation

theorem truncatedRoot_of_pow {places : Int} {root : ℚ} {units : Nat} (positive : degree ≠ 0)
    (exact : root * 10 ^ places = units) : truncatedRoot degree places (root ^ degree) = root := by
  have unit : (10 : ℚ) ^ places ≠ 0 := zpow_ne_zero _ (by norm_num)
  rw [truncatedRoot, mul_comm (degree : Int), zpow_mul, zpow_natCast, ← mul_pow, exact,
    IntegerRoot.floorRoot_floor_pow positive, ← exact, mul_div_cancel_right₀ _ unit]

/-! ### Rounded roots -/

/-- Places behind the point that a root is truncated to: ten more than its digits reach. -/
def truncationPlaces (degree precision : Nat) (value : ℚ) : Int :=
  precision + 10 - rootPlace degree value

/-- The root with its digits and the guard digits behind them. -/
def guardedRoot (degree precision : Nat) (value : ℚ) : ℚ :=
  truncatedRoot degree (truncationPlaces degree precision value) value

def roundedRoot (degree precision : Nat) (value : ℚ) : ℚ :=
  roundedToDigits precision (guardedRoot degree precision value)

section Rounding

variable (precision : Nat) (positive : degree ≠ 0) (above : 0 < value)
include positive above

theorem zpow_rootPlace_le_guardedRoot :
    (10 : ℚ) ^ rootPlace degree value ≤ guardedRoot degree precision value := by
  apply zpow_rootPlace_le_truncatedRoot positive above
  rw [truncationPlaces]
  omega

theorem guardedRoot_pos : 0 < guardedRoot degree precision value :=
  (zpow_pos (by norm_num) _).trans_le (zpow_rootPlace_le_guardedRoot precision positive above)

theorem firstPlace_guardedRoot :
    firstPlace (guardedRoot degree precision value) = rootPlace degree value :=
  firstPlace_eq_rootPlace positive above (zpow_rootPlace_le_guardedRoot precision positive above)
    (truncatedRoot_pow_le positive above)

variable (least : 1 ≤ precision)
include least

theorem firstPlace_roundedRoot :
    rootPlace degree value ≤ firstPlace (roundedRoot degree precision value) ∧
      firstPlace (roundedRoot degree precision value) ≤ rootPlace degree value + 1 := by
  have places := firstPlace_roundedToDigits least (guardedRoot_pos precision positive above).ne'
  rwa [firstPlace_guardedRoot precision positive above] at places

theorem roundedRoot_pos : 0 < roundedRoot degree precision value :=
  roundedToDigits_pos least (guardedRoot_pos precision positive above)

theorem roundedRoot_encloses :
    (roundedRoot degree precision value -
        10 ^ lastPlace precision (roundedRoot degree precision value)) ^ degree < value ∧
      value < (roundedRoot degree precision value +
        10 ^ lastPlace precision (roundedRoot degree precision value)) ^ degree := by
  have truncated := guardedRoot_pos precision positive above
  have rounded := roundedRoot_pos precision positive above least
  have low : guardedRoot degree precision value ^ degree ≤ value :=
    truncatedRoot_pow_le positive above
  have high : value < (guardedRoot degree precision value +
      1 / 10 ^ truncationPlaces degree precision value) ^ degree :=
    lt_truncatedRoot_add_pow positive value
  have near := abs_sub_roundedAt_le (lastPlace precision (guardedRoot degree precision value))
    (guardedRoot degree precision value)
  change |_ - roundedRoot degree precision value| ≤ _ at near
  rw [lastPlace, firstPlace_guardedRoot precision positive above] at near
  have coarse : (10 : ℚ) ^ (rootPlace degree value + 1 - precision) ≤
      10 ^ lastPlace precision (roundedRoot degree precision value) := by
    apply zpow_le_zpow_right₀ (by norm_num)
    have kept := (firstPlace_roundedRoot precision positive above least).1
    rw [lastPlace]
    omega
  have inside := zpow_lastPlace_le least rounded.ne'
  rw [abs_of_pos rounded] at inside
  have guard : (1 : ℚ) / 10 ^ truncationPlaces degree precision value ≤
      10 ^ (rootPlace degree value + 1 - precision) / 10 := by
    rw [one_div, ← zpow_neg, div_eq_mul_inv, ← zpow_sub_one₀ (by norm_num)]
    apply zpow_le_zpow_right₀ (by norm_num)
    rw [truncationPlaces]
    omega
  have unit : (0 : ℚ) < 10 ^ (rootPlace degree value + 1 - precision) := zpow_pos (by norm_num) _
  have step : (0 : ℚ) < 1 / 10 ^ truncationPlaces degree precision value := by positivity
  obtain ⟨lower, upper⟩ := abs_le.mp near
  constructor
  · refine (pow_lt_pow_left₀ ?_ (by linarith) positive).trans_le low
    linarith
  · refine high.trans_le (pow_le_pow_left₀ (by linarith) ?_ degree)
    linarith

omit least in
theorem roundedRoot_of_pow {root : ℚ} (rootAbove : 0 < root) (digits : HasDigits precision root)
    (exact : value = root ^ degree) : roundedRoot degree precision value = root := by
  obtain ⟨integer, place, few, written⟩ := digits
  have first : firstPlace root = rootPlace degree value := by
    refine firstPlace_eq_rootPlace positive above ?_ exact.ge
    apply le_of_pow_le_pow_left₀ positive rootAbove.le
    exact (rootPlace_pow_le positive above).trans_eq exact
  have last := lastPlace_le_of_hasDigits few rootAbove.ne' written
  have unit : (0 : ℚ) < 10 ^ place := zpow_pos (by norm_num) _
  obtain ⟨zeros, distance⟩ := Int.eq_ofNat_of_zero_le
    (show 0 ≤ place + truncationPlaces degree precision value by
      rw [lastPlace, first] at last
      rw [truncationPlaces]
      omega)
  have natural : 0 ≤ integer := by
    rw [written] at rootAbove
    exact_mod_cast (pos_of_mul_pos_left rootAbove unit.le).le
  obtain ⟨digits, rfl⟩ := Int.eq_ofNat_of_zero_le natural
  have units : root * 10 ^ truncationPlaces degree precision value = (digits * 10 ^ zeros : Nat) := by
    rw [written, mul_assoc, ← zpow_add₀ (by norm_num), distance, zpow_natCast]
    push_cast
    rfl
  have truncated : guardedRoot degree precision value = root := by
    rw [guardedRoot]
    generalize truncationPlaces degree precision value = places at units
    rw [exact]
    exact truncatedRoot_of_pow positive units
  rw [roundedRoot, truncated]
  exact roundedAt_eq_self written last

end Rounding

end Decimal

namespace Elementary

open Decimal

variable {radicand : Decimal} {scale : Int64} {degree : UInt32} {precision : Precision}

/-! ### Roots at a scale -/

theorem rootAtScale_eq_ok {degree : Nat} (nonneg : 0 ≤ radicand.value)
    (places : IsWord (degree * scale.toInt))
    (near : |degree * scale.toInt - radicand.scale.toInt| ≤ largestExponent) :
    rootAtScale radicand degree scale =
      .ok ⟨IntegerRoot.floorRoot degree ⌊radicand.value * 10 ^ (degree * scale.toInt)⌋₊, scale⟩ := by
  have bound : largestExponent < 2 ^ 62 := by decide
  obtain ⟨lower, upper⟩ := abs_le.mp near
  have fits : RootsAt radicand degree scale := ⟨places, ⟨by omega, by omega⟩, ⟨by omega, by omega⟩⟩
  rw [rootAtScale_of_fits fits near, units_mul_zpow nonneg]

/-! ### Roots within the words -/

def rootExponent (degree precision : Nat) (radicand : ℚ) (scale : Int) : Int :=
  degree * truncationPlaces degree precision radicand - scale

/-- The words in which a root counts: the exponent of the first digit of the radicand, the
places that the root is truncated to, and the exponent of the power of ten. -/
structure RootStaysInWords (degree precision : Nat) (radicand : ℚ) (scale : Int) : Prop where
  leading : IsWord (firstPlace radicand)
  places : IsWord (truncationPlaces degree precision radicand)
  product : IsWord (degree * truncationPlaces degree precision radicand)
  exponent : IsWord (rootExponent degree precision radicand scale)
  opposite : IsWord (-rootExponent degree precision radicand scale)

theorem RootStaysInWords.of_moderate {degree digits : Nat} {value : ℚ} {scale : Int}
    (positive : degree ≠ 0) (size : degree * (digits + 10) ≤ 2 ^ 61)
    (lower : -2 ^ 61 ≤ firstPlace value) (upper : firstPlace value ≤ 2 ^ 61)
    (near : |scale| ≤ 2 ^ 61) : RootStaysInWords degree digits value scale := by
  have degreePos : (1 : Int) ≤ degree := by
    exact_mod_cast Nat.one_le_iff_ne_zero.mpr positive
  have room : (degree : Int) * (digits + 10) ≤ 2 ^ 61 := by exact_mod_cast size
  have most : (degree : Int) * 10 ≤ 2 ^ 61 := by nlinarith
  have few : (digits + 10 : Int) ≤ 2 ^ 61 := by nlinarith
  have rootLower : -2 ^ 61 ≤ rootPlace degree value :=
    Int.le_ediv_of_mul_le (by omega) (by nlinarith)
  have rootUpper : rootPlace degree value ≤ 2 ^ 61 :=
    Int.ediv_le_of_le_mul (by omega) (by nlinarith)
  have division := Int.mul_ediv_add_emod (firstPlace value) degree
  have remainder := Int.emod_nonneg (firstPlace value) (by omega : (degree : Int) ≠ 0)
  have proper := Int.emod_lt_of_pos (firstPlace value) (by omega : 0 < (degree : Int))
  have product : (degree : Int) * truncationPlaces degree digits value =
      degree * (digits + 10) - degree * (firstPlace value / degree) := by
    rw [truncationPlaces, rootPlace]
    ring
  obtain ⟨scaleLower, scaleUpper⟩ := abs_le.mp near
  have nonneg : 0 ≤ (degree : Int) * (digits + 10) := by positivity
  have places : truncationPlaces degree digits value =
      digits + 10 - rootPlace degree value := rfl
  refine ⟨⟨by omega, by omega⟩, ⟨by omega, by omega⟩, ⟨by omega, by omega⟩, ?_, ?_⟩
  · rw [rootExponent]
    exact ⟨by omega, by omega⟩
  · rw [rootExponent]
    exact ⟨by omega, by omega⟩

/-- A positive number less than one unit of its last place away from a root, which is the
root itself if that has no more digits. -/
structure IsRootTo (degree precision : Nat) (radicand : ℚ) (root : Decimal) : Prop where
  positive : 0 < root.value
  below : (root.value - 10 ^ (firstPlace root.value - precision + 1)) ^ degree < radicand
  above : radicand < (root.value + 10 ^ (firstPlace root.value - precision + 1)) ^ degree
  exact : ∀ whole : ℚ, HasDigits precision whole → radicand = whole ^ degree →
    root.value = |whole|

theorem isRootTo_of_value_eq {degree digits : Nat} {value : ℚ} {root : Decimal}
    (positive : degree ≠ 0) (above : 0 < value) (least : 1 ≤ digits)
    (rounded : root.value = roundedRoot degree digits value) :
    IsRootTo degree digits value root := by
  have last : firstPlace (roundedRoot degree digits value) - digits + 1 =
      lastPlace digits (roundedRoot degree digits value) := by
    rw [lastPlace]
    ring
  obtain ⟨lower, upper⟩ := roundedRoot_encloses digits positive above least
  constructor
  · rw [rounded]
    exact roundedRoot_pos _ positive above least
  · rwa [rounded, last]
  · rwa [rounded, last]
  · intro whole few exact
    have power : value = |whole| ^ degree := by
      rw [← abs_pow, ← exact, abs_of_pos above]
    have wholeAbove : 0 < |whole| := by
      refine abs_pos.mpr fun zero => above.ne' ?_
      rw [power, zero, abs_zero, zero_pow positive]
    rw [rounded]
    exact roundedRoot_of_pow _ positive above wholeAbove few.abs power

theorem toNat_degree_ne_zero (nonzero : degree ≠ 0) : degree.toNat ≠ 0 :=
  fun zero => nonzero (UInt32.toNat_inj.mp zero)

theorem leadingExponent_of_value_ne_zero (nonzero : radicand.value ≠ 0) :
    Checked.leadingExponent radicand = Checked.word (firstPlace radicand.value) := by
  rw [Checked.leadingExponent, firstPlace_value nonzero]

theorem rootOfPositive_of_not_words (above : 0 < radicand.value)
    (few : precision.toNat + 10 < 2 ^ 32)
    (breaks : ¬RootStaysInWords degree.toNat precision.toNat radicand.value radicand.scale.toInt) :
    rootOfPositive radicand degree precision = .error .overflow := by
  rw [rootOfPositive, requireWords_bind_of (Precision.guards_of_lt few),
    leadingExponent_of_value_ne_zero above.ne', toInt_seriesScale few]
  by_cases leading : IsWord (firstPlace radicand.value)
  · obtain ⟨first, counted, exact⟩ := Checked.exists_word leading
    rw [counted]
    change (Checked.word (precision.toNat + 10 - first.toInt / degree.toNat) >>= _) = _
    have places : (precision.toNat : Int) + 10 - first.toInt / degree.toNat =
        truncationPlaces degree.toNat precision.toNat radicand.value := by
      rw [exact]
      rfl
    rw [places]
    by_cases behind : IsWord (truncationPlaces degree.toNat precision.toNat radicand.value)
    · obtain ⟨scale, counted', exact'⟩ := Checked.exists_word behind
      have outside : ¬RootsAt radicand degree.toNat scale := by
        rintro ⟨product, exponent, opposite⟩
        rw [exact'] at product exponent
        rw [exact', ← neg_sub] at opposite
        exact breaks ⟨leading, behind, product, exponent, opposite⟩
      rw [counted']
      change (rootAtScale radicand degree.toNat scale >>= _) = _
      rw [rootAtScale_of_not_fits outside]
      rfl
    · rw [Checked.word, unlessOverflow_of_not behind]
      rfl
  · rw [Checked.word, unlessOverflow_of_not leading]
    rfl

section Words

variable (nonzero : degree ≠ 0) (above : 0 < radicand.value)
  (few : precision.toNat + 10 < 2 ^ 32)
  (words : RootStaysInWords degree.toNat precision.toNat radicand.value radicand.scale.toInt)
include above few words

theorem exists_rootOfPositive_eq_bind :
    ∃ scale : Int64, scale.toInt = truncationPlaces degree.toNat precision.toNat radicand.value ∧
      RootsAt radicand degree.toNat scale ∧
      rootOfPositive radicand degree precision =
        rootAtScale radicand degree.toNat scale >>=
          fun root => Checked.roundToPrecision root precision := by
  obtain ⟨first, counted, exact⟩ := Checked.exists_word words.leading
  obtain ⟨scale, counted', exact'⟩ := Checked.exists_word words.places
  have inside : RootsAt radicand degree.toNat scale := by
    have product := words.product
    have exponent := words.exponent
    have opposite := words.opposite
    rw [rootExponent, ← exact'] at exponent opposite
    rw [← exact'] at product
    rw [neg_sub] at opposite
    exact ⟨product, exponent, opposite⟩
  have places : (precision.toNat : Int) + 10 - first.toInt / degree.toNat =
      truncationPlaces degree.toNat precision.toNat radicand.value := by
    rw [exact]
    rfl
  refine ⟨scale, exact', inside, ?_⟩
  rw [rootOfPositive, requireWords_bind_of (Precision.guards_of_lt few),
    leadingExponent_of_value_ne_zero above.ne', toInt_seriesScale few, counted]
  change (Checked.word (precision.toNat + 10 - first.toInt / degree.toNat) >>= _) = _
  rw [places, counted']
  rfl

theorem rootOfPositive_eq_error
    (far : largestExponent <
      |rootExponent degree.toNat precision.toNat radicand.value radicand.scale.toInt|) :
    ∃ size, rootOfPositive radicand degree precision = .error (.exponentTooLarge size) := by
  obtain ⟨scale, exact, inside, reached⟩ := exists_rootOfPositive_eq_bind above few words
  rw [rootExponent, ← exact] at far
  rw [reached, rootAtScale_of_far inside far]
  exact ⟨_, rfl⟩

include nonzero

/-- The truncated root has eleven digits too many, and words hold the scale of the rounded
one. -/
theorem exists_roundToPrecision_of_guardedRoot {truncated : Decimal} (least : 1 ≤ precision.toNat)
    (value : truncated.value = guardedRoot degree.toNat precision.toNat radicand.value)
    (scale : truncated.scale.toInt =
      truncationPlaces degree.toNat precision.toNat radicand.value) :
    ∃ rounded : Decimal, Checked.roundToPrecision truncated precision = .ok rounded ∧
      rounded.value = roundedRoot degree.toNat precision.toNat radicand.value := by
  have positive := toNat_degree_ne_zero nonzero
  have room : 11 ≤ largestExponent := by decide
  have kept : truncated.value ≠ 0 := by
    rw [value]
    exact (guardedRoot_pos _ positive above).ne'
  have digits := firstPlace_value kept
  rw [value, firstPlace_guardedRoot _ positive above, scale, truncationPlaces] at digits
  have eleven : truncated.digitCount - max precision.toNat 1 = 11 := by omega
  have behind := words.places
  have front : rootPlace degree.toNat radicand.value < 2 ^ 63 := by
    have leading := words.leading.2
    rcases le_or_gt 0 (firstPlace radicand.value) with front | behind
    · exact (Int.ediv_le_self _ front).trans_lt leading
    · have none : rootPlace degree.toNat radicand.value ≤ 0 :=
        Int.ediv_nonpos_of_nonpos_of_neg behind.le (by exact_mod_cast Nat.pos_of_ne_zero positive)
      omega
  rw [truncationPlaces] at scale behind
  obtain ⟨-, upper⟩ := behind
  refine ⟨truncated.roundToPrecision precision, ?_, ?_⟩
  · rw [Checked.roundToPrecision_eq (by omega), eleven, unlessOverflow_of]
    exact ⟨by omega, by omega⟩
  · rw [value_roundToPrecision least kept (by omega) (by omega), value]
    rfl

theorem exists_rootOfPositive (least : 1 ≤ precision.toNat)
    (near : |rootExponent degree.toNat precision.toNat radicand.value radicand.scale.toInt| ≤
      largestExponent) :
    ∃ result, rootOfPositive radicand degree precision = .ok result ∧
      IsRootTo degree.toNat precision.toNat radicand.value result := by
  obtain ⟨scale, exact, inside, reached⟩ := exists_rootOfPositive_eq_bind above few words
  rw [rootExponent, ← exact] at near
  have truncated := rootAtScale_eq_ok above.le inside.places near
  have guarded : Decimal.value ⟨IntegerRoot.floorRoot degree.toNat
      ⌊radicand.value * 10 ^ (degree.toNat * scale.toInt)⌋₊, scale⟩ =
        guardedRoot degree.toNat precision.toNat radicand.value := by
    rw [guardedRoot, ← exact]
    rfl
  obtain ⟨rounded, kept, value⟩ :=
    exists_roundToPrecision_of_guardedRoot nonzero above few words least guarded exact
  refine ⟨rounded, ?_, isRootTo_of_value_eq (toNat_degree_ne_zero nonzero) above least value⟩
  rw [reached, truncated]
  exact kept

end Words

theorem rootOfPositive_cases (nonzero : degree ≠ 0) (above : 0 < radicand.value)
    (few : precision.toNat + 10 < 2 ^ 32) (least : 1 ≤ precision.toNat) :
    ¬RootStaysInWords degree.toNat precision.toNat radicand.value radicand.scale.toInt ∧
        rootOfPositive radicand degree precision = .error .overflow ∨
      RootStaysInWords degree.toNat precision.toNat radicand.value radicand.scale.toInt ∧
        ((∃ size, rootOfPositive radicand degree precision = .error (.exponentTooLarge size)) ∧
            largestExponent <
              |rootExponent degree.toNat precision.toNat radicand.value radicand.scale.toInt| ∨
          (∃ result, rootOfPositive radicand degree precision = .ok result ∧
              IsRootTo degree.toNat precision.toNat radicand.value result) ∧
            |rootExponent degree.toNat precision.toNat radicand.value radicand.scale.toInt| ≤
              largestExponent) := by
  by_cases words : RootStaysInWords degree.toNat precision.toNat radicand.value radicand.scale.toInt
  · refine Or.inr ⟨words, ?_⟩
    rcases le_or_gt |rootExponent degree.toNat precision.toNat radicand.value
        radicand.scale.toInt| largestExponent with near | far
    · exact Or.inr ⟨exists_rootOfPositive nonzero above few words least near, near⟩
    · exact Or.inl ⟨rootOfPositive_eq_error above few words far, far⟩
  · exact Or.inl ⟨words, rootOfPositive_of_not_words above few words⟩

/-! ### Roots of any sign -/

theorem mod_two_eq_zero_iff : degree % 2 = 0 ↔ degree.toNat % 2 = 0 := by
  rw [← UInt32.toNat_inj, UInt32.toNat_mod]
  rfl

theorem root_eq_of_pos (nonzero : degree ≠ 0) (above : 0 < radicand.value) :
    root radicand degree precision = rootOfPositive radicand degree precision := by
  rw [root, isZero_eq_false_iff.mpr above.ne', isNegative_eq_false_iff.mpr above.le]
  simp only [nonzero, ↓reduceIte]
  rfl

theorem root_eq_of_neg (nonzero : degree ≠ 0) (below : radicand.value < 0) :
    root radicand degree precision =
      if degree % 2 = 0 then Checked.refuse (.evenRootOfNegative radicand) radicand
      else (fun result => -result) <$> rootOfPositive radicand.abs degree precision := by
  rw [root, isZero_eq_false_iff.mpr below.ne, isNegative_iff.mpr below]
  by_cases even : degree % 2 = 0
  · simp only [nonzero, even, ↓reduceIte]
    rfl
  · simp only [nonzero, even, ↓reduceIte]
    rfl

theorem root_neg_of_odd (below : radicand.value < 0) (odd : degree.toNat % 2 = 1) :
    root radicand degree precision =
      (fun result => -result) <$> root (-radicand) degree precision := by
  have nonzero : degree ≠ 0 := by
    rintro rfl
    cases odd
  have above : 0 < (-radicand).value := by
    rw [value_neg]
    exact neg_pos.mpr below
  have notEven : degree % 2 ≠ 0 := by
    rw [Ne, mod_two_eq_zero_iff]
    omega
  rw [root_eq_of_neg nonzero below, if_neg notEven, root_eq_of_pos nonzero above,
    ← abs_opposite, abs_of_value_nonneg above.le]

/-- The refusals of a root are that of its degree, that of an even degree of a negative number,
whose text is written out at the scale 0, and that of a power of ten; it is broken off where words
overflow. -/
structure RefusesRoots (radicand : Decimal) (degree : UInt32) (outcome : Outcome Decimal) :
    Prop where
  zeroDegree : outcome = .error .divisionByZero ↔ degree = 0
  evenDegree : outcome = .error (.evenRootOfNegative radicand) ↔
    degree ≠ 0 ∧ radicand.value < 0 ∧ degree.toNat % 2 = 0 ∧ radicand.Reaches 0
  unwritten : degree ≠ 0 → radicand.value < 0 → degree.toNat % 2 = 0 → ¬radicand.Reaches 0 →
    outcome = .error .overflow
  others : ∀ error, outcome = .error error → error ≠ .overflow →
    error = .divisionByZero ∨ error = .evenRootOfNegative radicand ∨
      ∃ size, error = .exponentTooLarge size

inductive IsRootFault : EvaluationError → Prop where
  | tooLarge (size : Int) : IsRootFault (.exponentTooLarge size)
  | overflow : IsRootFault .overflow

theorem RefusesRoots.of_ends {outcome : Outcome Decimal} (nonzero : degree ≠ 0)
    (real : radicand.value < 0 → degree.toNat % 2 ≠ 0)
    (ends : Ends (fun _ => True) IsRootFault outcome) : RefusesRoots radicand degree outcome := by
  refine ⟨iff_of_false (fun refused => ?_) nonzero,
    iff_of_false (fun refused => ?_) fun even => real even.2.1 even.2.2.1,
    fun _ below even => absurd even (real below), fun error refused inside => ?_⟩
  · exact nomatch ends.of_eq_error refused
  · exact nomatch ends.of_eq_error refused
  · cases ends.of_eq_error refused with
    | tooLarge size => exact Or.inr (Or.inr ⟨size, rfl⟩)
    | overflow => exact absurd rfl inside

section Refusals

variable (few : precision.toNat + 10 < 2 ^ 32) (least : 1 ≤ precision.toNat)
include few least

theorem ends_rootOfPositive_isRootTo (nonzero : degree ≠ 0) (above : 0 < radicand.value) :
    Ends (IsRootTo degree.toNat precision.toNat radicand.value) IsRootFault
      (rootOfPositive radicand degree precision) := by
  rcases rootOfPositive_cases nonzero above few least with
    ⟨-, broken⟩ | ⟨-, ⟨⟨size, refused⟩, -⟩ | ⟨⟨result, reached, encloses⟩, -⟩⟩
  · rw [broken]
    exact .error .overflow
  · rw [refused]
    exact .error (.tooLarge size)
  · rw [reached]
    exact .ok encloses

theorem refusesRoots_root (radicand : Decimal) (degree : UInt32) :
    RefusesRoots radicand degree (root radicand degree precision) := by
  by_cases none : degree = 0
  · subst none
    refine ⟨iff_of_true rfl rfl, iff_of_false nofun fun even => even.1 rfl,
      fun nonzero => absurd rfl nonzero, ?_⟩
    intro error refused _
    cases refused
    exact Or.inl rfl
  rcases lt_trichotomy radicand.value 0 with below | zero | above
  · by_cases even : degree.toNat % 2 = 0
    · rw [root_eq_of_neg none below, if_pos (mod_two_eq_zero_iff.mpr even)]
      by_cases reaches : radicand.Reaches 0
      · rw [Checked.refuse_of_reaches _ reaches]
        refine ⟨iff_of_false nofun none, iff_of_true rfl ⟨none, below, even, reaches⟩,
          fun _ _ _ apart => absurd reaches apart, ?_⟩
        intro error refused _
        cases refused
        exact Or.inr (Or.inl rfl)
      · rw [Checked.refuse_of_not_reaches _ reaches]
        refine ⟨iff_of_false nofun none, iff_of_false nofun fun both => reaches both.2.2.2,
          fun _ _ _ _ => rfl, ?_⟩
        intro error refused inside
        cases refused
        exact absurd rfl inside
    · have opposite : 0 < (-radicand).value := by
        rw [value_neg]
        exact neg_pos.mpr below
      rw [root_neg_of_odd below (Nat.mod_two_ne_zero.mp even), root_eq_of_pos none opposite]
      exact .of_ends none (fun _ => even)
        ((ends_rootOfPositive_isRootTo few least none opposite).map fun _ _ => trivial)
  · have zero' : radicand.isZero = true := isZero_iff.mpr zero
    refine .of_ends none (fun below => absurd below (by rw [zero]; exact lt_irrefl 0)) ?_
    rw [root, zero']
    simp only [none, ↓reduceIte]
    exact .ok trivial
  · rw [root_eq_of_pos none above]
    exact .of_ends none (fun below => absurd below (lt_asymm above))
      ((ends_rootOfPositive_isRootTo few least none above).mono fun _ _ => trivial)

end Refusals

/-- The root of a positive number encloses it by its last place.  It is refused exactly if
the exponent of its power of ten is too large, and broken off exactly if words overflow; odd
roots keep the sign. -/
theorem root_encloses (radicand : Decimal) (degree : UInt32) (precision : Precision)
    (least : 1 ≤ precision.toNat) (few : precision.toNat ≤ 2 ^ 32 - 31) :
    (0 < radicand.value → degree ≠ 0 →
        (root radicand degree precision = .error .overflow ↔
          ¬RootStaysInWords degree.toNat precision.toNat radicand.value radicand.scale.toInt) ∧
        (RootStaysInWords degree.toNat precision.toNat radicand.value radicand.scale.toInt →
          ((∃ result, root radicand degree precision = .ok result) ↔
            |rootExponent degree.toNat precision.toNat radicand.value radicand.scale.toInt| ≤
              largestExponent)) ∧
          ∀ result, root radicand degree precision = .ok result →
            IsRootTo degree.toNat precision.toNat radicand.value result) ∧
      (radicand.value < 0 → degree.toNat % 2 = 1 →
        root radicand degree precision =
          (fun result => -result) <$> root (-radicand) degree precision) ∧
      RefusesRoots radicand degree (root radicand degree precision) := by
  refine ⟨fun above nonzero => ?_, root_neg_of_odd, refusesRoots_root (by omega) least _ _⟩
  rw [root_eq_of_pos nonzero above]
  have ends := ends_rootOfPositive_isRootTo (by omega) least nonzero above
  refine ⟨?_, fun words => ?_, fun result reached => ends.of_eq_ok reached⟩
  · rcases rootOfPositive_cases nonzero above (by omega) least with
      ⟨breaks, broken⟩ | ⟨words, ⟨⟨size, refused⟩, -⟩ | ⟨⟨root, reached, -⟩, -⟩⟩
    · exact iff_of_true broken breaks
    · rw [refused]
      exact iff_of_false nofun (not_not_intro words)
    · rw [reached]
      exact iff_of_false nofun (not_not_intro words)
  · rcases rootOfPositive_cases nonzero above (by omega) least with
      ⟨breaks, -⟩ | ⟨-, ⟨⟨size, refused⟩, far⟩ | ⟨⟨root, reached, -⟩, near⟩⟩
    · exact absurd words breaks
    · rw [refused]
      exact iff_of_false nofun (not_le.mpr far)
    · exact iff_of_true ⟨root, reached⟩ near

/-- The exponent -4 of the first digit of 0.000512 is no multiple of three; the cube root 0.08
is found itself. -/
theorem root_encloses_cube :
    0 < (⟨512, 6⟩ : Decimal).value ∧
      ∃ result, root ⟨512, 6⟩ 3 20 = .ok result ∧
        IsRootTo 3 20 (⟨512, 6⟩ : Decimal).value result ∧ result.value = 8 / 100 := by
  have value : (⟨512, 6⟩ : Decimal).value = 512 / 10 ^ 6 := by
    change ((512 : Int) : ℚ) / 10 ^ (6 : Int) = _
    norm_num
  have above : 0 < (⟨512, 6⟩ : Decimal).value := by
    rw [value]
    norm_num
  have first : firstPlace (⟨512, 6⟩ : Decimal).value = -4 := by
    apply firstPlace_eq
    · rw [value, abs_of_pos (by norm_num)]
      norm_num
    · rw [value, abs_of_pos (by norm_num)]
      norm_num
  have place : rootPlace 3 (⟨512, 6⟩ : Decimal).value = -2 := by
    rw [rootPlace, first]
    decide
  have places : truncationPlaces 3 20 (⟨512, 6⟩ : Decimal).value = 32 := by
    rw [truncationPlaces, place]
    rfl
  have words : RootStaysInWords 3 20 (⟨512, 6⟩ : Decimal).value 6 := by
    refine .of_moderate (by decide) (by decide) ?_ ?_ (by decide)
    · rw [first]
      decide
    · rw [first]
      decide
  have near : |rootExponent 3 20 (⟨512, 6⟩ : Decimal).value 6| ≤ largestExponent := by
    rw [rootExponent, places]
    decide
  obtain ⟨-, succeeds, encloses⟩ :=
    (root_encloses ⟨512, 6⟩ 3 20 (by decide) (by decide)).1 above (by decide)
  obtain ⟨result, reached⟩ := (succeeds words).mpr near
  have enclosed := encloses result reached
  refine ⟨above, result, reached, enclosed, ?_⟩
  have root := enclosed.exact (8 / 100) ⟨8, -2, by decide, by norm_num⟩ (by
    rw [value]
    change _ = (8 / 100 : ℚ) ^ 3
    norm_num)
  rw [root]
  norm_num

end Elementary
end DecimalCalculator
