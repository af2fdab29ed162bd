/-
Where sums of odd powers converge.

Every sum of an argument of at most one third ends in time, unless it is broken off because twice
its scale or twice that of the argument is no word.  It ends close to the exact sum if the powers of
ten that its roundings take are written out: step by step as long as its powers have digits, or at
once where even the first power is lost behind the scale.  Beyond these limits digits are lost that
count, and the first power with them.
-/

import Mathlib
import DecimalCalculator.Proofs.Decimal.Modes
import DecimalCalculator.Proofs.Elementary.OddPowers

namespace DecimalCalculator

open Decimal

/-! ### Numbers that are rounded to zero -/

namespace Decimal

variable {number : Decimal} {target : Int64}

theorem isZero_setScale_of_zero (zero : number.unscaled = 0) :
    (number.setScale target .halfEven).isZero = true := by
  have short : number.IsShort := by
    apply isShort_of_abs_unscaled_lt
    rw [zero, abs_zero]
    positivity
  rw [isZero_iff, value_eq_zero_iff, setScale_eq .halfEven (Or.inl zero) fun _ => short,
    value_eq_zero_iff.mpr zero, zero_mul]
  exact RoundingMode.round_intCast .halfEven 0

theorem isZero_setScale_mul {other : Decimal}
    (zero : number.isZero = true ∨ other.isZero = true) :
    ((number * other).setScale target .halfEven).isZero = true := by
  apply isZero_setScale_of_zero
  change number.unscaled * other.unscaled = 0
  rcases zero with first | second
  · rw [value_eq_zero_iff.mp (isZero_iff.mp first), zero_mul]
  · rw [value_eq_zero_iff.mp (isZero_iff.mp second), mul_zero]

/-- A number that loses more digits than a power of ten has zeros counts as a tenth of the last
place. -/
theorem isZero_setScale_of_far (far : largestExponent < number.scale.toInt - target.toInt) :
    (number.setScale target .halfEven).isZero = true := by
  rw [setScale, if_neg (Int64.not_le.mpr (lt_scale_of_far far)), writableExponent?_sub_eq_none far,
    isZero_iff, value_eq_zero_iff, sign]
  rcases Int.sign_trichotomy number.unscaled with sign | sign | sign
  · rw [sign]
    rfl
  · rw [sign]
    rfl
  · rw [sign]
    rfl

theorem neg_lt_scale_of_abs_lt (place : Int) (nonzero : number.value ≠ 0)
    (small : |number.value| < 10 ^ place) : -place < number.scale.toInt := by
  have some : (1 : ℚ) ≤ |(number.unscaled : ℚ)| := by
    exact_mod_cast Int.one_le_abs (mt value_eq_zero_iff.mpr nonzero)
  have unit : (0 : ℚ) < 10 ^ number.scale.toInt := zpow_pos (by norm_num) _
  rw [value, abs_div, abs_of_pos unit, div_lt_iff₀ unit, ← zpow_add₀ (by norm_num)] at small
  have positive := (one_lt_zpow_iff_right₀ (by norm_num)).mp (some.trans_lt small)
  omega

end Decimal

namespace Series

variable {argument : Decimal} {scale : Int64}

/-! ### The first steps -/

theorem begins_of_small (positive : 1 ≤ scale.toInt) (word : IsWord (2 * argument.scale.toInt))
    (small : |argument.value| ≤ 1 / 3) : Begins argument scale := by
  rw [two_mul] at word
  have double : (argument * argument).scale.toInt = argument.scale.toInt + argument.scale.toInt :=
    toInt_add_of_isWord word
  by_cases zero : argument.unscaled = 0
  · have square : (argument * argument).unscaled = 0 := mul_eq_zero_of_left zero _
    have upper := word.2
    exact ⟨productAt_eq word ⟨Or.inl square, by omega⟩,
      unlessOverflow_of ⟨Or.inl zero, by omega⟩⟩
  · have places := neg_lt_scale_of_abs_lt 0 (mt value_eq_zero_iff.mp zero) (by norm_num; linarith)
    exact ⟨productAt_eq word (.of_scale_nonneg (by omega) (by omega)),
      unlessOverflow_of (.of_scale_nonneg (by omega) (by omega))⟩

theorem oddPowers_eq_overflow (positive : 1 ≤ scale.toInt) (small : |argument.value| ≤ 1 / 3)
    (breaks : ¬(IsWord (2 * argument.scale.toInt) ∧ IsWord (2 * scale.toInt))) (signs : Signs) :
    oddPowers signs argument scale = .error .overflow := by
  by_cases word : IsWord (2 * argument.scale.toInt)
  · have apart : ¬IsWord (scale.toInt + scale.toInt) := by
      rw [← two_mul]
      exact fun double => breaks ⟨word, double⟩
    rw [(begins_of_small positive word small).oddPowers_eq, oddPowersAfter, productAt, Checked.mul,
      scale_setScale, scale_setScale, unlessOverflow_of_not apart]
    rfl
  · rw [two_mul] at word
    rw [oddPowers, productAt, Checked.mul, unlessOverflow_of_not word]
    rfl

/-! ### Limits -/

/-- No digit that counts is lost in a sum.  A power is cut down to the scale by a power of ten that
may be written out, or it has no digits in front of the end of the scale; and the square of the
argument is cut down by such a power of ten, or it has few digits altogether. -/
structure IsWithinLimits (argument : Decimal) (scale : Int64) : Prop where
  power : scale.toInt ≤ largestExponent ∨ |argument.value| ^ 3 ≤ lastUnit scale
  square : 2 * argument.scale.toInt ≤ scale.toInt + largestExponent ∨
    (argument * argument).IsShort

/-- The first power that may be added to the argument, at the scale of the sum. -/
def roundedCube (argument : Decimal) (scale : Int64) : Decimal :=
  (argument.setScale scale .halfEven * (argument * argument).setScale scale .halfEven).setScale
    scale .halfEven

theorem isZero_roundedCube_of_far (word : IsWord (2 * scale.toInt))
    (far : largestExponent < scale.toInt) : (roundedCube argument scale).isZero = true := by
  apply isZero_setScale_of_far
  have double : (argument.setScale scale .halfEven *
      (argument * argument).setScale scale .halfEven).scale.toInt = scale.toInt + scale.toInt := by
    change ((argument.setScale scale .halfEven).scale +
      ((argument * argument).setScale scale .halfEven).scale).toInt = _
    rw [scale_setScale, scale_setScale]
    exact toInt_add_of_isWord (two_mul scale.toInt ▸ word)
  omega

theorem isZero_roundedCube_of_not_isWithinLimits (positive : 1 ≤ scale.toInt)
    (word : IsWord (2 * scale.toInt)) (outside : ¬IsWithinLimits argument scale) :
    (roundedCube argument scale).isZero = true := by
  have room : largestExponent < 2 ^ 61 := by decide
  by_cases written : scale.toInt ≤ largestExponent
  · have long : scale.toInt + largestExponent < 2 * argument.scale.toInt := by
      by_contra few
      exact outside ⟨Or.inl written, Or.inl (not_lt.mp few)⟩
    by_cases far : largestExponent < argument.scale.toInt - scale.toInt
    · exact isZero_setScale_mul (Or.inl (isZero_setScale_of_far far))
    · have double : (argument * argument).scale.toInt =
          argument.scale.toInt + argument.scale.toInt :=
        toInt_add_of_isWord ⟨by omega, by omega⟩
      exact isZero_setScale_mul (Or.inr (isZero_setScale_of_far (by omega)))
  · exact isZero_roundedCube_of_far word (Int.not_le.mp written)

theorem isShort_of_square (short : (argument * argument).IsShort) : argument.IsShort := by
  apply isShort_of_abs_unscaled_lt
  have square : |argument.unscaled * argument.unscaled| < 10 ^ largestExponent := by
    exact_mod_cast short.abs_unscaled_lt
  calc
    |argument.unscaled| ≤ |argument.unscaled * argument.unscaled| := by
      rw [abs_mul, Int.abs_eq_natAbs]
      exact_mod_cast Nat.le_mul_self _
    _ < 10 ^ largestExponent := square

section Limits

variable (limits : IsWithinLimits argument scale) (positive : 1 ≤ scale.toInt)
  (small : |argument.value| ≤ 1 / 3)
include limits positive small

theorem IsWithinLimits.abs_sub_setScale_le :
    |argument.value - (argument.setScale scale .halfEven).value| ≤ lastUnit scale / 2 := by
  have reaches : argument.Reaches scale := by
    by_cases zero : argument.value = 0
    · exact Or.inl (value_eq_zero_iff.mp zero)
    · have places := neg_lt_scale_of_abs_lt 0 zero (by norm_num; linarith)
      have upper := scale.toInt_lt
      exact Or.inr (by omega)
  have short : largestExponent < argument.scale.toInt - scale.toInt → argument.IsShort := by
    intro far
    exact isShort_of_square (limits.square.resolve_left (by omega))
  rw [setScale_eq .halfEven reaches short]
  exact abs_sub_round_mul_le _ scale

theorem IsWithinLimits.isSquare (nonzero : argument.value ≠ 0)
    (written : scale.toInt ≤ largestExponent)
    (near : argument.scale.toInt - scale.toInt ≤ largestExponent) :
    IsSquare scale argument.value ((argument * argument).setScale scale .halfEven) := by
  have room : largestExponent < 2 ^ 61 := by decide
  have places := neg_lt_scale_of_abs_lt 0 nonzero (by norm_num; linarith)
  have word : IsWord (argument.scale.toInt + argument.scale.toInt) := ⟨by omega, by omega⟩
  have double : (argument * argument).scale.toInt =
      argument.scale.toInt + argument.scale.toInt := toInt_add_of_isWord word
  have short : largestExponent < (argument * argument).scale.toInt - scale.toInt →
      (argument * argument).IsShort := by
    intro far
    exact limits.square.resolve_left (by omega)
  refine ⟨scale_setScale _ _ _, ?_⟩
  rw [sq, ← value_mul word, setScale_eq .halfEven (Or.inr (by omega)) short]
  exact abs_sub_round_mul_le _ scale

omit limits in
theorem endsWithin_of_lost (begun : IsWord (2 * argument.scale.toInt))
    (word : IsWord (2 * scale.toInt)) (signs : Signs)
    (lost : (roundedCube argument scale).isZero = true) :
    oddPowers signs argument scale = .ok (argument.setScale scale .halfEven) ∧
      ∀ steps : Nat, 1 ≤ steps →
        oddPowersWithin steps signs argument scale =
          some (.ok (argument.setScale scale .halfEven)) := by
  have begins := begins_of_small positive begun small
  have computed := productAt_eq_of_scale (Int.le_trans (by decide) positive) word
    (scale_setScale argument scale .halfEven) (scale_setScale (argument * argument) scale .halfEven)
  have ended := endsWithin_of_isZero computed signs 0 1 (argument.setScale scale .halfEven) lost
  exact ⟨(begins.oddPowers_eq signs).trans ended.reached, fun steps enough =>
    (begins.oddPowersWithin_eq steps signs).trans (ended.counted steps enough)⟩

/-- A sum whose first power is lost has the argument for its result, which is close to the sum
if the cube of the argument is less than one unit. -/
theorem IsWithinLimits.isOddPowers_of_lost (begun : IsWord (2 * argument.scale.toInt))
    (word : IsWord (2 * scale.toInt)) (signs : Signs)
    (lost : (roundedCube argument scale).isZero = true)
    (least : |argument.value| ^ 3 ≤ lastUnit scale) :
    IsOddPowers signs argument scale (argument.setScale scale .halfEven) := by
  obtain ⟨reached, counted⟩ := endsWithin_of_lost positive small begun word signs lost
  have unit := lastUnit_pos scale
  have third : |oddTerm signs argument.value 1| = |argument.value| ^ 3 / 3 := by
    rw [abs_oddTerm, abs_div, abs_pow]
    norm_num
  refine ⟨reached, fun steps enough => counted steps (by omega), fun count later => ?_⟩
  have summed : IsSum scale (oddSum signs argument.value count) (1 / 2 + (0 : Nat) + 1)
      (argument.setScale scale .halfEven) := by
    apply (isSum_first signs (limits.abs_sub_setScale_le positive small)).of_ended small
    · rw [third]
      linarith
    · omega
  have digits : (1 : ℚ) ≤ scale.toInt := by exact_mod_cast positive
  refine summed.mono ?_
  push_cast
  linarith

theorem IsWithinLimits.cube_le_of_far
    (far : largestExponent < argument.scale.toInt - scale.toInt) :
    |argument.value| ^ 3 ≤ lastUnit scale := by
  have short := isShort_of_square (limits.square.resolve_left (by omega))
  have unit : (0 : ℚ) < 10 ^ argument.scale.toInt := zpow_pos (by norm_num) _
  have value : |argument.value| ≤ lastUnit scale := by
    rw [Decimal.value, abs_div, abs_of_pos unit, div_le_iff₀ unit, lastUnit,
      ← zpow_add₀ (by norm_num)]
    calc
      |(argument.unscaled : ℚ)| ≤ 10 ^ largestExponent := short.abs_unscaled_lt.le
      _ = 10 ^ (largestExponent : Int) := (zpow_natCast _ _).symm
      _ ≤ 10 ^ (-scale.toInt + argument.scale.toInt) :=
        zpow_le_zpow_right₀ (by norm_num) (by omega)
  calc
    |argument.value| ^ 3 ≤ |argument.value| ^ 1 :=
      pow_le_pow_of_le_one (abs_nonneg _) (by linarith) (by omega)
    _ ≤ lastUnit scale := by rwa [pow_one]

theorem IsWithinLimits.exists_isOddPowers (begun : IsWord (2 * argument.scale.toInt))
    (word : IsWord (2 * scale.toInt)) (signs : Signs) :
    ∃ result, IsOddPowers signs argument scale result := by
  have ends := fun lost least =>
    Exists.intro _ (limits.isOddPowers_of_lost positive small begun word signs lost least)
  by_cases written : scale.toInt ≤ largestExponent
  · by_cases near : argument.scale.toInt - scale.toInt ≤ largestExponent
    · by_cases zero : argument.value = 0
      · apply ends
        · exact isZero_setScale_mul
            (Or.inl (isZero_setScale_of_zero (value_eq_zero_iff.mp zero)))
        · rw [zero, abs_zero, zero_pow (by decide)]
          exact (lastUnit_pos scale).le
      · exact Series.exists_isOddPowers signs (begins_of_small positive begun small)
          ⟨positive, written⟩ small
          (limits.abs_sub_setScale_le positive small)
          (limits.isSquare positive small zero written near)
    · apply ends
      · exact isZero_setScale_mul (Or.inl (isZero_setScale_of_far (Int.not_le.mp near)))
      · exact limits.cube_le_of_far positive small (Int.not_le.mp near)
  · apply ends
    · exact isZero_roundedCube_of_far word (Int.not_le.mp written)
    · exact limits.power.resolve_left written

end Limits

/-! ### Every sum -/

/-- The sum of every argument of at most one third ends in time at its scale, and within the limits
it is close to the exact sum. -/
theorem exists_oddPowersWithin_eq_ok (positive : 1 ≤ scale.toInt)
    (begun : IsWord (2 * argument.scale.toInt)) (word : IsWord (2 * scale.toInt))
    (small : |argument.value| ≤ 1 / 3) (signs : Signs) :
    ∃ result, oddPowers signs argument scale = .ok result ∧
      (∀ steps : Nat, 2 * scale.toInt + 1 ≤ steps →
        oddPowersWithin steps signs argument scale = some (.ok result)) ∧
      result.scale = scale ∧
      (IsWithinLimits argument scale → ∀ count : Nat, 2 * scale.toInt + 1 ≤ count →
        IsSum scale (oddSum signs argument.value count) (2 * scale.toInt + 2) result) := by
  by_cases limits : IsWithinLimits argument scale
  · obtain ⟨result, powers⟩ := limits.exists_isOddPowers positive small begun word signs
    have written := (powers.near (2 * scale.toInt + 1).toNat (by omega)).written
    exact ⟨result, powers.reached, powers.counted, written, fun _ => powers.near⟩
  · have lost := isZero_roundedCube_of_not_isWithinLimits positive word limits
    obtain ⟨reached, counted⟩ := endsWithin_of_lost positive small begun word signs lost
    exact ⟨_, reached, fun steps enough => counted steps (by omega),
      scale_setScale _ _ _, fun within => absurd within limits⟩

end Series
end DecimalCalculator
