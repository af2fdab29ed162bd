/-
Sums of odd powers with a bound on their error.

At arguments of at most one third every rounded power has at most a quarter of the units that
the power before it has, so a sum ends after at most twice as many steps as its scale has
digits.  The rounded powers stay within one unit of the exact ones, hence every term does, and
what is left out at the end is less than one unit too.
-/

import Mathlib
import DecimalCalculator.Elementary.Series
import DecimalCalculator.Proofs.Decimal.Quotient

namespace DecimalCalculator

open Decimal

/-! ### Numbers at a scale -/

namespace Decimal

variable {number left right : Decimal} {scale : Int64}

def lastUnit (scale : Int64) : ℚ :=
  10 ^ (-scale.toInt)

theorem lastUnit_pos (scale : Int64) : 0 < lastUnit scale :=
  zpow_pos (by norm_num) _

theorem cast_lastUnit_pos (scale : Int64) : (0 : ℝ) < lastUnit scale :=
  Rat.cast_pos.mpr (lastUnit_pos scale)

theorem lastUnit_le_one_div_pow {places : Nat} (fine : places ≤ scale.toInt) :
    lastUnit scale ≤ 1 / 10 ^ places := by
  rw [lastUnit, one_div, ← zpow_natCast, ← zpow_neg]
  exact zpow_le_zpow_right₀ (by norm_num) (neg_le_neg fine)

/-- A scale with digits after the point, as many as a power of ten may have zeros. -/
structure IsFractionalScale (scale : Int64) : Prop where
  positive : 1 ≤ scale.toInt
  written : scale.toInt ≤ largestExponent

theorem isFractionalScale_of_le (positive : 1 ≤ scale.toInt) (few : scale.toInt ≤ 10 ^ 7 + 5) :
    IsFractionalScale scale :=
  ⟨positive, few.trans (by decide)⟩

theorem IsFractionalScale.nonneg (fractional : IsFractionalScale scale) : 0 ≤ scale.toInt :=
  Int.le_trans (by decide) fractional.positive

theorem IsFractionalScale.word_double (fractional : IsFractionalScale scale) :
    IsWord (2 * scale.toInt) := by
  have room : largestExponent < 2 ^ 61 := by decide
  obtain ⟨positive, written⟩ := fractional
  exact ⟨by omega, by omega⟩

theorem IsFractionalScale.lastUnit_le (fractional : IsFractionalScale scale) :
    lastUnit scale ≤ 1 / 10 := by
  have power := lastUnit_le_one_div_pow fractional.positive
  rwa [pow_one] at power

theorem toInt_seriesScale_eq (precision : Precision) :
    precision.seriesScale.toInt = precision.guarded.toNat := by
  have bound := precision.guarded.toNat_lt
  exact Int64.toInt_ofNat_of_lt (by omega)

theorem value_of_scale (written : number.scale = scale) :
    number.value = number.unscaled * lastUnit scale := by
  rw [value, written, lastUnit, zpow_neg, div_eq_mul_inv]

theorem abs_value_of_scale (written : number.scale = scale) :
    |number.value| = number.unscaled.natAbs * lastUnit scale := by
  rw [value_of_scale written, abs_mul, abs_of_pos (lastUnit_pos scale), Nat.cast_natAbs, Int.cast_abs]

theorem aligned_of_scale (first : left.scale = scale) (second : right.scale = scale) :
    Aligned left right := by
  have common := toInt_commonScale left right
  rw [first, second, max_self] at common
  constructor
  · rw [Reaches, common, first]
    exact Or.inr (by omega)
  · rw [Reaches, common, second]
    exact Or.inr (by omega)

theorem commonScale_of_scale (first : left.scale = scale) (second : right.scale = scale) :
    left.commonScale right = scale := by
  rw [← Int64.toInt_inj, toInt_commonScale, first, second, max_self]

theorem scale_ofInt_mul (factor : Int) (number : Decimal) :
    (ofInt factor * number).scale = number.scale :=
  Int64.zero_add number.scale

theorem value_ofInt_mul (factor : Int) (number : Decimal) :
    (ofInt factor * number).value = factor * number.value := by
  rw [value_mul, value_ofInt]
  change IsWord (0 + number.scale.toInt)
  rw [zero_add]
  exact ⟨number.scale.le_toInt, number.scale.toInt_lt⟩

theorem value_round_mul (value : ℚ) (scale : Int64) :
    (⟨RoundingMode.halfEven.round (value * 10 ^ scale.toInt), scale⟩ : Decimal).value =
      roundedAt (-scale.toInt) value := by
  rw [Decimal.value, roundedAt, zpow_neg, div_inv_eq_mul, ← div_eq_mul_inv]

theorem abs_sub_round_mul_le (value : ℚ) (scale : Int64) :
    |value - (⟨RoundingMode.halfEven.round (value * 10 ^ scale.toInt), scale⟩ : Decimal).value| ≤
      lastUnit scale / 2 := by
  rw [value_round_mul]
  exact abs_sub_roundedAt_le _ value

/-- A number that has no more digits after the point than a scale. -/
structure IsWithin (scale : Int64) (number : Decimal) : Prop where
  nonneg : 0 ≤ number.scale.toInt
  within : number.scale.toInt ≤ scale.toInt

theorem IsFractionalScale.isWithin (fractional : IsFractionalScale scale)
    (written : left.scale = scale) : IsWithin scale left := by
  have positive := fractional.positive
  constructor
  · rw [written]
    omega
  · rw [written]

theorem isWithin_one (fractional : IsFractionalScale scale) : IsWithin scale 1 := by
  have positive := fractional.positive
  exact ⟨le_refl 0, show 0 ≤ scale.toInt by omega⟩

theorem IsWithin.add (first : IsWithin scale left) (written : right.scale = scale) :
    IsWithin scale (left + right) := by
  have maximum := toInt_commonScale left right
  rw [written, max_eq_right first.within] at maximum
  have nonneg := first.nonneg.trans first.within
  exact ⟨maximum.symm ▸ nonneg, maximum.le⟩

theorem IsWithin.value_add (first : IsWithin scale left) (written : right.scale = scale) :
    (left + right).value = left.value + right.value := by
  have common := toInt_commonScale left right
  have nonneg := first.nonneg
  have within := first.within
  have upper := scale.toInt_lt
  rw [written] at common
  refine Decimal.value_add ⟨Or.inr (by omega), Or.inr ?_⟩
  rw [written]
  omega

section Within

variable (fractional : IsFractionalScale scale) (first : IsWithin scale left)
  (second : IsWithin scale right)
include fractional first second

theorem IsWithin.isWord_add : IsWord (left.scale.toInt + right.scale.toInt) := by
  have room : largestExponent < 2 ^ 61 := by decide
  have written := fractional.written
  obtain ⟨nonneg, within⟩ := first
  obtain ⟨nonneg', within'⟩ := second
  exact ⟨by omega, by omega⟩

theorem IsWithin.abs_mul_sub_setScale_le :
    |left.value * right.value - ((left * right).setScale scale .halfEven).value| ≤
      lastUnit scale / 2 := by
  have room : largestExponent < 2 ^ 61 := by decide
  have word := first.isWord_add fractional second
  have double : (left * right).scale.toInt = left.scale.toInt + right.scale.toInt :=
    toInt_add_of_isWord word
  obtain ⟨positive, written⟩ := fractional
  obtain ⟨nonneg, within⟩ := first
  obtain ⟨nonneg', within'⟩ := second
  rw [← value_mul word, setScale_eq .halfEven (Or.inr (by omega)) (by omega)]
  exact abs_sub_round_mul_le _ scale

end Within

theorem abs_mul_sub_setScale_le (fractional : IsFractionalScale scale) (first : left.scale = scale)
    (second : right.scale = scale) :
    |left.value * right.value - ((left * right).setScale scale .halfEven).value| ≤
      lastUnit scale / 2 :=
  (fractional.isWithin first).abs_mul_sub_setScale_le fractional (fractional.isWithin second)

theorem exists_divideAtScale_ofInt {divisor : Int} (written : number.scale = scale)
    (nonzero : divisor ≠ 0) :
    ∃ quotient, number.divideAtScale (ofInt divisor) scale .halfEven = .ok quotient ∧
      quotient.scale = scale ∧ |number.value / divisor - quotient.value| ≤ lastUnit scale / 2 := by
  have some : (ofInt divisor).value ≠ 0 := by
    rw [value_ofInt]
    exact Int.cast_ne_zero.mpr nonzero
  have unmoved : quotientExponent number (ofInt divisor) scale = 0 := by
    rw [quotientExponent, written]
    change scale.toInt + 0 - scale.toInt = 0
    omega
  have divided := divideAtScale_eq_ok .halfEven some (isWord_add_scale_ofInt scale divisor)
    (by rw [unmoved, abs_zero]; exact Int.natCast_nonneg _)
  rw [value_ofInt] at divided
  exact ⟨_, divided, rfl, abs_sub_round_mul_le _ scale⟩

theorem exists_reciprocal (divisor : Nat) (fractional : IsFractionalScale scale)
    (nonzero : divisor ≠ 0) :
    ∃ ratio, divideAtScale 1 (ofInt divisor) scale .halfEven = .ok ratio ∧ ratio.scale = scale ∧
      |1 / divisor - ratio.value| ≤ lastUnit scale / 2 := by
  have some : (ofInt divisor).value ≠ 0 := by
    rw [value_ofInt]
    exact_mod_cast nonzero
  have near : |quotientExponent 1 (ofInt divisor) scale| ≤ largestExponent := by
    obtain ⟨positive, written⟩ := fractional
    rw [quotientExponent, abs_le]
    change -_ ≤ scale.toInt + 0 - 0 ∧ scale.toInt + 0 - 0 ≤ _
    omega
  have divided := divideAtScale_eq_ok .halfEven some (isWord_add_scale_ofInt scale divisor) near
  rw [value_one, value_ofInt, Int.cast_natCast] at divided
  exact ⟨_, divided, rfl, abs_sub_round_mul_le _ scale⟩

end Decimal

/-! ### Exact sums -/

namespace Series

theorem abs_limit_sub_le {sums : Nat → ℚ} {limit : ℝ} {result bound : ℚ} (first : Nat)
    (tends : Filter.Tendsto (fun count => (sums count : ℝ)) Filter.atTop (nhds limit))
    (near : ∀ count, first ≤ count → |sums count - result| ≤ bound) :
    |limit - result| ≤ bound := by
  refine le_of_tendsto (tends.sub_const (result : ℝ)).abs
    (Filter.eventually_atTop.mpr ⟨first, fun count later => ?_⟩)
  rw [← Rat.cast_sub, ← Rat.cast_abs]
  exact Rat.cast_le.mpr (near count later)

variable {signs : Signs} {value : ℚ} {index count : Nat}

def oddTerm (signs : Signs) (value : ℚ) (index : Nat) : ℚ :=
  (if signs = .alternating ∧ index % 2 = 1 then -1 else 1) * (value ^ (2 * index + 1) / (2 * index + 1))

def oddSum (signs : Signs) (value : ℚ) (count : Nat) : ℚ :=
  ∑ index ∈ Finset.range count, oddTerm signs value index

theorem abs_oddTerm (signs : Signs) (value : ℚ) (index : Nat) :
    |oddTerm signs value index| = |value ^ (2 * index + 1) / (2 * index + 1)| := by
  have sign : |if signs = .alternating ∧ index % 2 = 1 then (-1 : ℚ) else 1| = 1 := by
    split
    · norm_num
    · norm_num
  rw [oddTerm, abs_mul, sign, one_mul]

theorem abs_oddTerm_succ_le (signs : Signs) (small : |value| ≤ 1 / 3) (index : Nat) :
    |oddTerm signs value (index + 1)| ≤ |oddTerm signs value index| / 9 := by
  have square : |value| ^ 2 ≤ 1 / 9 := by nlinarith [abs_nonneg value]
  have divisor (index : Nat) : |(2 * index + 1 : ℚ)| = 2 * index + 1 := abs_of_pos (by positivity)
  rw [abs_oddTerm, abs_oddTerm, abs_div, abs_div, abs_pow, abs_pow, divisor, divisor, div_div]
  push_cast
  calc
    |value| ^ (2 * (index + 1) + 1) / (2 * (index + 1) + 1 : ℚ) =
        |value| ^ (2 * index + 1) * |value| ^ 2 / (2 * (index + 1) + 1) := by
      rw [← pow_add]
      congr 2
    _ ≤ |value| ^ (2 * index + 1) * (1 / 9) / (2 * index + 1) := by
      gcongr
      linarith
    _ = |value| ^ (2 * index + 1) / ((2 * index + 1) * 9) := by
      field_simp

theorem abs_oddSum_sub_le (signs : Signs) (small : |value| ≤ 1 / 3) (later : index ≤ count) :
    |oddSum signs value count - oddSum signs value index| +
        9 / 8 * |oddTerm signs value count| ≤ 9 / 8 * |oddTerm signs value index| := by
  induction count, later using Nat.le_induction with
  | base => rw [sub_self, abs_zero, zero_add]
  | succ count _ ih =>
      have next := abs_oddTerm_succ_le signs small count
      have longer : oddSum signs value (count + 1) =
          oddSum signs value count + oddTerm signs value count := Finset.sum_range_succ _ _
      have triangle := abs_add_le (oddSum signs value count - oddSum signs value index)
        (oddTerm signs value count)
      rw [longer, add_sub_right_comm]
      linarith

/-! ### Counted steps -/

/-- Adds to a sum the terms from this index on, if it takes at most so many steps.  Whether the
powers shrink is not asked. -/
def oddPowersAfterWithin (signs : Signs) (scale : Int64) (square : Decimal) :
    (steps index : Nat) → (power sum : Decimal) → Option (Outcome Decimal)
  | 0, _, _, _ => none
  | steps + 1, index, power, sum =>
      match productAt power square scale with
      | .error fault => some (.error fault)
      | .ok higher =>
          if higher.isZero then
            some (.ok sum)
          else
            match higher.divideAtScale (ofInt (2 * index + 1)) scale .halfEven with
            | .error fault => some (.error fault)
            | .ok term =>
                if term.isZero then
                  some (.ok sum)
                else
                  oddPowersAfterWithin signs scale square steps (index + 1) higher
                    (signs.accumulate index sum term)

def oddPowersWithin (steps : Nat) (signs : Signs) (argument : Decimal) (scale : Int64) :
    Option (Outcome Decimal) :=
  match productAt argument argument scale with
  | .error fault => some (.error fault)
  | .ok square =>
      match Checked.setScale argument scale .halfEven with
      | .error fault => some (.error fault)
      | .ok first => oddPowersAfterWithin signs scale square steps 1 first first

/-- A sum that goes on from here ends with a result, and so many steps are enough for it. -/
structure EndsWithin (signs : Signs) (scale : Int64) (square : Decimal) (steps index : Nat)
    (power sum result : Decimal) : Prop where
  reached : oddPowersAfter signs scale square index power sum = .ok result
  counted : ∀ allowed, steps ≤ allowed →
    oddPowersAfterWithin signs scale square allowed index power sum = some (.ok result)

/-! ### One step -/

variable {power square sum argument : Decimal} {scale : Int64}

theorem productAt_eq {left right : Decimal}
    (word : IsWord (left.scale.toInt + right.scale.toInt)) (meets : (left * right).Meets scale) :
    productAt left right scale = .ok ((left * right).setScale scale .halfEven) := by
  rw [productAt, Checked.mul, unlessOverflow_of word]
  exact unlessOverflow_of meets

theorem productAt_eq_of_scale {left right : Decimal} (nonneg : 0 ≤ scale.toInt)
    (word : IsWord (2 * scale.toInt)) (first : left.scale = scale) (second : right.scale = scale) :
    productAt left right scale = .ok ((left * right).setScale scale .halfEven) := by
  have double : IsWord (left.scale.toInt + right.scale.toInt) := by
    rwa [first, second, ← two_mul]
  have places : (left * right).scale.toInt = left.scale.toInt + right.scale.toInt :=
    toInt_add_of_isWord double
  rw [first, second] at places
  exact productAt_eq double (.of_scale_nonneg (by omega) nonneg)

/-- The words hold the square of an argument and what it is rounded from. -/
structure Begins (argument : Decimal) (scale : Int64) : Prop where
  squared : productAt argument argument scale = .ok ((argument * argument).setScale scale .halfEven)
  rounded : Checked.setScale argument scale .halfEven = .ok (argument.setScale scale .halfEven)

theorem begins_of_scale (nonneg : 0 ≤ scale.toInt) (word : IsWord (2 * scale.toInt))
    (written : argument.scale = scale) : Begins argument scale :=
  ⟨productAt_eq_of_scale nonneg word written written,
    unlessOverflow_of (.of_scale_nonneg (by rwa [written]) nonneg)⟩

theorem Begins.oddPowers_eq (begins : Begins argument scale) (signs : Signs) :
    oddPowers signs argument scale =
      oddPowersAfter signs scale ((argument * argument).setScale scale .halfEven) 1
        (argument.setScale scale .halfEven) (argument.setScale scale .halfEven) := by
  rw [oddPowers, begins.squared, begins.rounded]
  rfl

theorem Begins.oddPowersWithin_eq (begins : Begins argument scale) (steps : Nat) (signs : Signs) :
    oddPowersWithin steps signs argument scale =
      oddPowersAfterWithin signs scale ((argument * argument).setScale scale .halfEven) steps 1
        (argument.setScale scale .halfEven) (argument.setScale scale .halfEven) := by
  rw [oddPowersWithin, begins.squared, begins.rounded]

section Computed

variable {higher : Decimal} (computed : productAt power square scale = .ok higher)
include computed

theorem endsWithin_of_isZero (signs : Signs) (steps index : Nat) (sum : Decimal)
    (gone : higher.isZero = true) :
    EndsWithin signs scale square (steps + 1) index power sum sum := by
  constructor
  · rw [oddPowersAfter, computed]
    change (if higher.isZero = true then _ else _) = _
    rw [gone]
    rfl
  · intro allowed enough
    cases allowed with
    | zero => omega
    | succ further => simp only [oddPowersAfterWithin, computed, gone, ↓reduceIte]

variable {term : Decimal} (some : higher.isZero = false)
  (divided : higher.divideAtScale (ofInt (2 * index + 1)) scale .halfEven = .ok term)
include some divided

theorem endsWithin_of_term_isZero (signs : Signs) (steps : Nat) (sum : Decimal)
    (lost : term.isZero = true) :
    EndsWithin signs scale square (steps + 1) index power sum sum := by
  constructor
  · rw [oddPowersAfter, computed]
    change (if higher.isZero = true then _ else _) = _
    rw [some, divided]
    change (if term.isZero = true then _ else _) = _
    rw [lost]
    rfl
  · intro allowed enough
    cases allowed with
    | zero => omega
    | succ further =>
        simp only [oddPowersAfterWithin, computed, some, divided, lost, Bool.false_eq_true,
          ↓reduceIte]

/-- Any other term is added, and as long as the powers shrink the sum goes on with the next one. -/
theorem EndsWithin.of_next {steps : Nat} {result : Decimal} (counts : term.isZero = false)
    (shrinks : higher.unscaled.natAbs < power.unscaled.natAbs)
    (later : EndsWithin signs scale square steps (index + 1) higher
      (signs.accumulate index sum term) result) :
    EndsWithin signs scale square (steps + 1) index power sum result := by
  constructor
  · rw [oddPowersAfter, computed]
    change (if higher.isZero = true then _ else _) = _
    rw [some, divided]
    change (if term.isZero = true then _ else _) = _
    rw [counts]
    change (if _ : higher.unscaled.natAbs < power.unscaled.natAbs then _ else _) = _
    rw [dif_pos shrinks]
    exact later.reached
  · intro allowed enough
    cases allowed with
    | zero => omega
    | succ further =>
        simp only [oddPowersAfterWithin, computed, some, divided, counts, Bool.false_eq_true,
          ↓reduceIte]
        exact later.counted further (Nat.le_of_succ_le_succ enough)

end Computed

structure IsSquare (scale : Int64) (value : ℚ) (square : Decimal) : Prop where
  written : square.scale = scale
  near : |value ^ 2 - square.value| ≤ lastUnit scale / 2

structure IsPower (scale : Int64) (value : ℚ) (index : Nat) (power : Decimal) : Prop where
  written : power.scale = scale
  near : |value ^ (2 * index + 1) - power.value| ≤ lastUnit scale

structure IsSum (scale : Int64) (exact units : ℚ) (sum : Decimal) : Prop where
  written : sum.scale = scale
  near : |exact - sum.value| ≤ units * lastUnit scale

theorem IsSum.mono {exact units more : ℚ} (summed : IsSum scale exact units sum)
    (fewer : units ≤ more) : IsSum scale exact more sum :=
  ⟨summed.written, summed.near.trans (mul_le_mul_of_nonneg_right fewer (lastUnit_pos scale).le)⟩

theorem isSum_first (signs : Signs) {argument : Decimal}
    (rounded : |argument.value - (argument.setScale scale .halfEven).value| ≤ lastUnit scale / 2) :
    IsSum scale (oddSum signs argument.value 1) (1 / 2) (argument.setScale scale .halfEven) := by
  have single : oddSum signs argument.value 1 = argument.value := by
    simp [oddSum, oddTerm]
  refine ⟨scale_setScale argument scale .halfEven, ?_⟩
  rw [single]
  linarith

theorem IsSum.accumulate {units : ℚ} {term : Decimal}
    (summed : IsSum scale (oddSum signs value index) units sum) (written : term.scale = scale)
    (near : |value ^ (2 * index + 1) / (2 * index + 1) - term.value| ≤ lastUnit scale) :
    IsSum scale (oddSum signs value (index + 1)) (units + 1) (signs.accumulate index sum term) := by
  have aligned := aligned_of_scale summed.written written
  have common := commonScale_of_scale summed.written written
  have close := summed.near
  have longer : oddSum signs value (index + 1) =
      oddSum signs value index + oddTerm signs value index := Finset.sum_range_succ _ _
  rw [Signs.accumulate, longer, oddTerm]
  split
  · refine ⟨common, ?_⟩
    have split : oddSum signs value index + -1 * (value ^ (2 * index + 1) / (2 * index + 1)) -
        (sum - term).value = oddSum signs value index - sum.value -
          (value ^ (2 * index + 1) / (2 * index + 1) - term.value) := by
      rw [value_sub aligned]
      ring
    rw [split]
    refine (abs_sub _ _).trans ?_
    linarith
  · refine ⟨common, ?_⟩
    have split : oddSum signs value index + 1 * (value ^ (2 * index + 1) / (2 * index + 1)) -
        (sum + term).value = oddSum signs value index - sum.value +
          (value ^ (2 * index + 1) / (2 * index + 1) - term.value) := by
      rw [value_add aligned]
      ring
    rw [split]
    refine (abs_add_le _ _).trans ?_
    linarith

theorem IsSum.of_ended {units : ℚ} {steps : Nat} (small : |value| ≤ 1 / 3)
    (summed : IsSum scale (oddSum signs value index) units sum)
    (rest : 9 / 8 * |oddTerm signs value index| ≤ lastUnit scale) (later : index ≤ count) :
    IsSum scale (oddSum signs value count) (units + steps + 1) sum := by
  refine ⟨summed.written, ?_⟩
  have tail := abs_oddSum_sub_le signs small later
  have close := summed.near
  have triangle := abs_sub_le (oddSum signs value count) (oddSum signs value index) sum.value
  have slack : 0 ≤ steps * lastUnit scale := mul_nonneg steps.cast_nonneg (lastUnit_pos scale).le
  have nonneg := abs_nonneg (oddTerm signs value count)
  linarith

theorem pow_abs_le_third (small : |value| ≤ 1 / 3) (index : Nat) :
    |value ^ (2 * index + 1)| ≤ 1 / 3 := by
  rw [abs_pow]
  calc
    |value| ^ (2 * index + 1) ≤ |value| ^ 1 :=
      pow_le_pow_of_le_one (abs_nonneg value) (by linarith) (by omega)
    _ ≤ 1 / 3 := by rwa [pow_one]

theorem IsPower.near_term (powered : IsPower scale value (index + 1) power) :
    |value ^ (2 * (index + 1) + 1) / (2 * (index + 1 : Nat) + 1) -
      power.value / (2 * (index + 1 : Nat) + 1)| ≤ lastUnit scale / 3 := by
  have divisor : (3 : ℚ) ≤ 2 * (index + 1 : Nat) + 1 := by
    push_cast
    linarith [Nat.cast_nonneg (α := ℚ) index]
  have positive := lastUnit_pos scale
  have near := powered.near
  rw [← sub_div, abs_div, abs_of_pos (by linarith : (0 : ℚ) < 2 * (index + 1 : Nat) + 1)]
  gcongr

theorem IsPower.exists_term (powered : IsPower scale value (index + 1) power) :
    ∃ term, power.divideAtScale (ofInt (2 * (index + 1 : Nat) + 1)) scale .halfEven = .ok term ∧
      term.scale = scale ∧
      |value ^ (2 * (index + 1) + 1) / (2 * (index + 1 : Nat) + 1) - term.value| ≤
        5 / 6 * lastUnit scale := by
  have odd : (2 * (index + 1 : Nat) + 1 : Int) ≠ 0 := by omega
  obtain ⟨term, divided, written, rounded⟩ := exists_divideAtScale_ofInt powered.written odd
  refine ⟨term, divided, written, ?_⟩
  have shared := powered.near_term
  have triangle := abs_sub_le (value ^ (2 * (index + 1) + 1) / (2 * (index + 1 : Nat) + 1))
    (power.value / (2 * (index + 1 : Nat) + 1)) term.value
  push_cast at rounded shared triangle ⊢
  linarith

section Step

variable (fractional : IsFractionalScale scale) (small : |value| ≤ 1 / 3)
  (squared : IsSquare scale value square) (powered : IsPower scale value index power)

include fractional small squared powered

theorem IsPower.higher :
    IsPower scale value (index + 1) ((power * square).setScale scale .halfEven) := by
  refine ⟨scale_setScale _ _ _, ?_⟩
  have unit := fractional.lastUnit_le
  have positive := lastUnit_pos scale
  have rounded := abs_mul_sub_setScale_le fractional powered.written squared.written
  have exact := pow_abs_le_third small index
  have ninth : value ^ 2 ≤ 1 / 9 := by
    rw [← sq_abs]
    nlinarith [abs_nonneg value]
  have size : |power.value| ≤ 1 / 2 := by
    have triangle := abs_sub_abs_le_abs_sub power.value (value ^ (2 * index + 1))
    have near := powered.near
    rw [abs_sub_comm] at near
    linarith
  have product : |value ^ (2 * (index + 1) + 1) - power.value * square.value| ≤
      lastUnit scale / 2 := by
    have split : value ^ (2 * (index + 1) + 1) - power.value * square.value =
        (value ^ (2 * index + 1) - power.value) * value ^ 2 +
          power.value * (value ^ 2 - square.value) := by
      ring
    rw [split]
    refine (abs_add_le _ _).trans ?_
    rw [abs_mul, abs_mul, abs_of_nonneg (sq_nonneg value)]
    nlinarith [powered.near, squared.near, abs_nonneg (value ^ (2 * index + 1) - power.value),
      abs_nonneg (value ^ 2 - square.value), abs_nonneg power.value, sq_nonneg value]
  have triangle := abs_sub_le (value ^ (2 * (index + 1) + 1)) (power.value * square.value)
    ((power * square).setScale scale .halfEven).value
  linarith

theorem IsPower.four_mul_natAbs_le :
    4 * ((power * square).setScale scale .halfEven).unscaled.natAbs ≤ power.unscaled.natAbs := by
  have unit := fractional.lastUnit_le
  have positive := lastUnit_pos scale
  have rounded := abs_mul_sub_setScale_le fractional powered.written squared.written
  have factor : |square.value| ≤ 162 / 1000 := by
    have ninth : |value ^ 2| ≤ 1 / 9 := by
      rw [abs_pow]
      nlinarith [abs_nonneg value]
    have triangle := abs_sub_abs_le_abs_sub square.value (value ^ 2)
    have near := squared.near
    rw [abs_sub_comm] at near
    linarith
  have product : |((power * square).setScale scale .halfEven).value| ≤
      |power.value| * (162 / 1000) + lastUnit scale / 2 := by
    have triangle := abs_sub_abs_le_abs_sub ((power * square).setScale scale .halfEven).value
      (power.value * square.value)
    rw [abs_sub_comm, abs_mul] at triangle
    have scaled := mul_le_mul_of_nonneg_left factor (abs_nonneg power.value)
    linarith
  rw [abs_value_of_scale (scale_setScale _ _ _), abs_value_of_scale powered.written] at product
  have units : (((power * square).setScale scale .halfEven).unscaled.natAbs : ℚ) ≤
      power.unscaled.natAbs * (162 / 1000) + 1 / 2 := by
    refine le_of_mul_le_mul_right ?_ positive
    linarith
  have whole : 1000 * ((power * square).setScale scale .halfEven).unscaled.natAbs ≤
      162 * power.unscaled.natAbs + 500 := by
    exact_mod_cast (by linarith : (1000 : ℚ) *
      ((power * square).setScale scale .halfEven).unscaled.natAbs ≤
        162 * power.unscaled.natAbs + 500)
  omega

/-- A step either ends the sum with a term that does not count, or adds a term that is at most
one unit off. -/
theorem oddPowersAfter_step {units : ℚ}
    (summed : IsSum scale (oddSum signs value (index + 1)) units sum) :
    ((∀ steps, EndsWithin signs scale square (steps + 1) (index + 1) power sum sum) ∧
        9 / 8 * |oddTerm signs value (index + 1)| ≤ lastUnit scale) ∨
      ∃ higher extended,
        (∀ steps result, EndsWithin signs scale square steps (index + 2) higher extended result →
          EndsWithin signs scale square (steps + 1) (index + 1) power sum result) ∧
        IsPower scale value (index + 1) higher ∧
        IsSum scale (oddSum signs value (index + 2)) (units + 1) extended ∧
        0 < higher.unscaled.natAbs ∧ 4 * higher.unscaled.natAbs ≤ power.unscaled.natAbs := by
  have next := powered.higher fractional small squared
  have quarter := powered.four_mul_natAbs_le fractional small squared
  have positive := lastUnit_pos scale
  have computed := productAt_eq_of_scale fractional.nonneg fractional.word_double powered.written
    squared.written
  obtain ⟨term, divided, written, near⟩ := next.exists_term
  cases gone : ((power * square).setScale scale .halfEven).isZero with
  | true =>
      refine Or.inl ⟨fun steps => endsWithin_of_isZero computed signs steps _ sum gone, ?_⟩
      have shared := next.near_term
      rw [isZero_iff.mp gone, zero_div, sub_zero, ← abs_oddTerm signs] at shared
      linarith
  | false =>
      cases lost : term.isZero with
      | true =>
          refine Or.inl ⟨fun steps =>
            endsWithin_of_term_isZero computed gone divided signs steps sum lost, ?_⟩
          rw [isZero_iff.mp lost, sub_zero, ← abs_oddTerm signs] at near
          linarith
      | false =>
          have some : 0 < ((power * square).setScale scale .halfEven).unscaled.natAbs :=
            Int.natAbs_pos.mpr (mt value_eq_zero_iff.mpr (isZero_eq_false_iff.mp gone))
          refine Or.inr ⟨_, _, fun steps result =>
            EndsWithin.of_next computed gone divided lost (by omega), next,
            summed.accumulate written ?_, some, quarter⟩
          linarith

end Step

/-! ### Runs -/

/-- A sum that goes on from a power of so many bits, taken two at a time, takes one step more
than that at most, and ends with an error of one unit for every step and one for what is left
out. -/
theorem exists_oddPowersAfter_isSum {units : ℚ} {bits : Nat} (fractional : IsFractionalScale scale)
    (small : |value| ≤ 1 / 3) (squared : IsSquare scale value square)
    (powered : IsPower scale value index power)
    (summed : IsSum scale (oddSum signs value (index + 1)) units sum)
    (few : power.unscaled.natAbs < 4 ^ bits) :
    ∃ result, EndsWithin signs scale square (bits + 1) (index + 1) power sum result ∧
      ∀ count, index + 1 + bits ≤ count →
        IsSum scale (oddSum signs value count) (units + bits + 1) result := by
  induction bits generalizing index power sum units with
  | zero =>
      rcases oddPowersAfter_step fractional small squared powered summed with
        ⟨ended, rest⟩ | ⟨higher, extended, -, -, -, some, quarter⟩
      · exact ⟨sum, ended 0, fun count later => summed.of_ended small rest (by omega)⟩
      · rw [pow_zero] at few
        omega
  | succ bits ih =>
      rcases oddPowersAfter_step fractional small squared powered summed with
        ⟨ended, rest⟩ | ⟨higher, extended, stepped, next, longer, some, quarter⟩
      · exact ⟨sum, ended _, fun count later => summed.of_ended small rest (by omega)⟩
      · obtain ⟨result, later, near⟩ := ih next longer (by rw [pow_succ] at few; omega)
        refine ⟨result, stepped _ _ later, fun count later => ?_⟩
        have final := near count (by omega)
        have same : units + 1 + bits + 1 = units + (bits + 1 : Nat) + 1 := by
          push_cast
          ring
        rwa [same] at final

/-- The result of a sum of odd powers: it takes at most two steps for every digit after the
point, and one more, and each of them costs one unit. -/
structure IsOddPowers (signs : Signs) (argument : Decimal) (scale : Int64) (result : Decimal) :
    Prop where
  reached : oddPowers signs argument scale = .ok result
  counted : ∀ steps : Nat, 2 * scale.toInt + 1 ≤ steps →
    oddPowersWithin steps signs argument scale = some (.ok result)
  near : ∀ count : Nat, 2 * scale.toInt + 1 ≤ count →
    IsSum scale (oddSum signs argument.value count) (2 * scale.toInt + 2) result

theorem exists_isOddPowers (signs : Signs) (begins : Begins argument scale)
    (fractional : IsFractionalScale scale) (small : |argument.value| ≤ 1 / 3)
    (rounded : |argument.value - (argument.setScale scale .halfEven).value| ≤ lastUnit scale / 2)
    (squared : IsSquare scale argument.value ((argument * argument).setScale scale .halfEven)) :
    ∃ result, IsOddPowers signs argument scale result := by
  have digits := fractional.positive
  obtain ⟨places, known⟩ := Int.eq_ofNat_of_zero_le (show 0 ≤ scale.toInt by omega)
  have unit := fractional.lastUnit_le
  have positive := lastUnit_pos scale
  have written := scale_setScale argument scale .halfEven
  have powered : IsPower scale argument.value 0 (argument.setScale scale .halfEven) := by
    refine ⟨written, ?_⟩
    rw [mul_zero, zero_add, pow_one]
    linarith
  -- a number below one has no more units than a power of 16 that is written with as many zeros
  have few : (argument.setScale scale .halfEven).unscaled.natAbs < 4 ^ (2 * places) := by
    have below : |(argument.setScale scale .halfEven).value| < 1 := by
      have triangle := abs_sub_abs_le_abs_sub (argument.setScale scale .halfEven).value argument.value
      rw [abs_sub_comm] at triangle
      linarith
    rw [abs_value_of_scale written, lastUnit, known, zpow_neg, zpow_natCast, ← div_eq_mul_inv,
      div_lt_one (by positivity)] at below
    have tens : (argument.setScale scale .halfEven).unscaled.natAbs < 10 ^ places := by
      exact_mod_cast below
    rw [pow_mul]
    exact tens.trans_le (Nat.pow_le_pow_left (by decide) places)
  obtain ⟨result, ended, near⟩ := exists_oddPowersAfter_isSum fractional small squared powered
    (isSum_first signs rounded) few
  refine ⟨result, (begins.oddPowers_eq signs).trans ended.reached, fun steps enough =>
    (begins.oddPowersWithin_eq steps signs).trans (ended.counted steps (by omega)),
    fun count later => (near count (by omega)).mono ?_⟩
  rw [known]
  push_cast
  linarith

theorem exists_oddPowers_isSum_of_scale (signs : Signs) {argument : Decimal}
    (fractional : IsFractionalScale scale) (small : |argument.value| ≤ 1 / 3)
    (written : argument.scale = scale) :
    ∃ result, oddPowers signs argument scale = .ok result ∧
      ∀ count : Nat, 2 * scale.toInt + 1 ≤ count →
        IsSum scale (oddSum signs argument.value count) (2 * scale.toInt + 2) result := by
  have rounded : |argument.value - (argument.setScale scale .halfEven).value| ≤
      lastUnit scale / 2 := by
    rw [setScale_eq .halfEven (Or.inr (by rw [written]; omega)) (by rw [written]; omega)]
    exact abs_sub_round_mul_le _ scale
  have squared : |argument.value ^ 2 -
      ((argument * argument).setScale scale .halfEven).value| ≤ lastUnit scale / 2 := by
    rw [sq]
    exact abs_mul_sub_setScale_le fractional written written
  have begins := begins_of_scale fractional.nonneg fractional.word_double written
  obtain ⟨result, powers⟩ :=
    exists_isOddPowers signs begins fractional small rounded ⟨scale_setScale _ _ _, squared⟩
  exact ⟨result, powers.reached, powers.near⟩

end Series
end DecimalCalculator
