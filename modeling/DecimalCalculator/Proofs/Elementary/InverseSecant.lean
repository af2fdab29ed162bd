/-
The domain of the inverse secant and cosecant.

They are the inverse cosine and sine of a reciprocal that is rounded to ten digits more than the
precision counts.  Rounding does not push the reciprocal beyond 1, and a number with so few
digits that is below 1 is too far away from it for the root of `1 - x ^ 2` to vanish, so the
refusals of the inner function are never met.
-/

import Mathlib
import DecimalCalculator.Proofs.Decimal.NearestDigits
import DecimalCalculator.Proofs.Elementary.Approximation
import DecimalCalculator.Proofs.Elementary.InverseSine

namespace DecimalCalculator

/-! ### Rounding within bounds -/

namespace Decimal

variable {value : ℚ} {place bound : Int}

theorem abs_roundedAt_le_of_abs_le (finer : place ≤ bound) (atMost : |value| ≤ 10 ^ bound) :
    |roundedAt place value| ≤ 10 ^ bound := by
  have unit : (0 : ℚ) < 10 ^ place := zpow_pos (by norm_num) _
  obtain ⟨zeros, distance⟩ := Int.le.dest finer
  have units : (10 : ℚ) ^ bound = (10 ^ zeros : Nat) * 10 ^ place := by
    rw [← distance, zpow_add₀ (by norm_num), zpow_natCast, mul_comm]
    push_cast
    rfl
  have scaled : |value / 10 ^ place| ≤ (10 ^ zeros : Nat) := by
    rw [abs_div, abs_of_pos unit, div_le_iff₀ unit, ← units]
    exact atMost
  have rounded := RoundingMode.abs_round_le scaled
  have size : |roundedAt place value| =
      (|RoundingMode.halfEven.round (value / 10 ^ place)| : Int) * 10 ^ place := by
    rw [roundedAt, abs_mul, abs_of_pos unit, Int.cast_abs]
  rw [size, units]
  gcongr
  exact_mod_cast rounded

end Decimal

namespace Elementary

open Decimal

variable {secant sine : Decimal} {precision : Precision}

/-! ### The reciprocal -/

theorem IsModerate.isWide (moderate : IsModerate secant) : IsWide secant := by
  obtain ⟨digits, lower, upper⟩ := moderate
  exact ⟨by omega, by omega, by omega⟩

theorem firstPlace_one : firstPlace 1 = 0 :=
  firstPlace_eq (by norm_num) (by norm_num)

/-- What the inner function is taken of: a number of its domain with few digits, and with a first
digit that is not too far behind the point. -/
structure IsReciprocal (precision : Precision) (sine : Decimal) : Prop where
  within : |sine.value| ≤ 1
  nonzero : sine.value ≠ 0
  digits : sine.digitCount ≤ precision.toNat + 11
  first : -3 * 10 ^ 6 ≤ firstPlace sine.value

theorem isReciprocal_roundToPrecision {finer : Decimal} (few : precision.toNat ≤ 10 ^ 6)
    (kept : finer.value ≠ 0) (inside : |finer.value| ≤ 10 ^ (0 : Int))
    (lower : 0 ≤ finer.scale.toInt) (short : finer.digitCount ≤ precision.guarded.toNat + 4)
    (near : -3 * 10 ^ 6 ≤ firstPlace finer.value) :
    IsReciprocal precision (finer.roundToPrecision precision.guarded) := by
  have guarded := toNat_guarded (show precision.toNat + 10 < 2 ^ 32 by omega)
  have least : 1 ≤ precision.guarded.toNat := by omega
  have room : 4 ≤ largestExponent := by decide
  have digits : keptDigits precision.guarded = precision.guarded.toNat := max_eq_left least
  have rounds : finer.RoundsToPrecision precision.guarded := by
    constructor
    · rw [droppedDigits]
      omega
    · rw [droppedDigits]
      omega
  have rounded := rounds.value_eq_of_pos least
  rw [digits] at rounded
  have first := firstPlace_le_of_abs_le kept inside
  constructor
  · rw [rounded, ← zpow_zero (10 : ℚ)]
    apply abs_roundedAt_le_of_abs_le ?_ inside
    rw [lastPlace]
    omega
  · rw [rounded]
    exact roundedToDigits_ne_zero least kept
  · have most := rounds.digitCount_le
    omega
  · have carried := (firstPlace_roundedToDigits least kept).1
    rw [rounded]
    omega

theorem exists_reciprocal_of_one_le (few : precision.toNat ≤ 10 ^ 6) (moderate : IsModerate secant)
    (outside : 1 ≤ |secant.value|) :
    ∃ sine, divideToPrecision 1 secant precision.guarded = .ok sine ∧
      IsReciprocal precision sine := by
  have guarded := toNat_guarded (show precision.toNat + 10 < 2 ^ 32 by omega)
  have one : (1 : Decimal).value ≠ 0 := by
    rw [value_one]
    exact one_ne_zero
  have nonzero : secant.value ≠ 0 := abs_pos.mp (one_pos.trans_le outside)
  have front : 0 ≤ firstPlace secant.value :=
    le_firstPlace_of_le_abs ((zpow_zero (10 : ℚ)).trans_le outside)
  have places := firstPlace_value nonzero
  have digits := moderate.digits
  have lower := moderate.lower
  obtain ⟨sine, divided, -⟩ := isWide_one.exists_divideToPrecision moderate.isWide one nonzero
    (show 1 ≤ precision.guarded.toNat by omega) (by omega)
  obtain ⟨finer, rounded, written, value, kept, short⟩ := exists_finerQuotient one nonzero divided
  obtain ⟨-, rfl⟩ := Checked.roundToPrecision_eq_ok (by omega) rounded
  have behind := firstRoundingPlace_eq (1 : Decimal).value secant.value precision.guarded
  have quotientPlace := firstPlace_div one nonzero
  rw [value_one, firstPlace_one] at behind quotientPlace
  rw [value_one] at written value
  have inside : |finer.value| ≤ 10 ^ (0 : Int) := by
    rw [value]
    apply abs_roundedAt_le_of_abs_le (by omega)
    rw [abs_div, abs_one, zpow_zero]
    exact div_le_one_of_le₀ outside (abs_nonneg _)
  have first : firstPlace (1 / secant.value) ≤ firstPlace finer.value := by
    rw [value]
    exact le_firstPlace_of_le_abs
      (abs_roundedAt_between (one_div_ne_zero nonzero) (by omega)).1
  exact ⟨_, divided,
    isReciprocal_roundToPrecision few kept inside (by omega) short (by omega)⟩

namespace IsReciprocal

variable (isReciprocal : IsReciprocal precision sine)
include isReciprocal

theorem firstPlace_nonpos : firstPlace sine.value ≤ 0 :=
  firstPlace_le_of_abs_le isReciprocal.nonzero
    (isReciprocal.within.trans_eq (zpow_zero (10 : ℚ)).symm)

theorem isPlaced (few : precision.toNat ≤ 10 ^ 6) : IsPlaced sine := by
  have places := firstPlace_value isReciprocal.nonzero
  have behind := isReciprocal.firstPlace_nonpos
  obtain ⟨-, -, digits, first⟩ := isReciprocal
  exact ⟨by omega, by omega⟩

theorem not_cosineVanishes {places : Int} (behind : precision.toNat + 10 ≤ places) :
    ¬CosineVanishes places sine.value := by
  by_cases small : |sine.value| < 1 / 10
  · exact not_cosineVanishes_of_small (by omega) small
  · have first : -1 ≤ firstPlace sine.value := by
      apply le_firstPlace_of_le_abs
      norm_num at small ⊢
      exact small
    have places := firstPlace_value isReciprocal.nonzero
    have digits := isReciprocal.digits
    exact not_cosineVanishes_of_scale_le (by omega) (by omega)

theorem exists_of_hasDomain {places : Int} {outcome : Outcome Decimal}
    (behind : precision.toNat + 10 ≤ places) (domain : HasDomain places sine outcome) :
    ∃ angle, outcome = .ok angle :=
  domain.inside.mpr ⟨isReciprocal.within, isReciprocal.not_cosineVanishes behind⟩

theorem exists_acos (few : precision.toNat ≤ 10 ^ 6) : ∃ angle, acos sine precision = .ok angle := by
  have places := toInt_seriesScale (show precision.toNat + 10 < 2 ^ 32 by omega)
  have working := isWorkingScale_seriesScale few
  obtain ⟨right, found⟩ := exists_rightAngle working
  have domain := (isReciprocal.isPlaced few).hasDomain_asinAtScale working
  apply isReciprocal.exists_of_hasDomain places.ge
  rw [acos_eq_of_rightAngle (Precision.guards_of_lt (by omega)) found]
  exact domain.map fun angle => (right - angle).roundToPrecision precision

theorem exists_asin (few : precision.toNat ≤ 10 ^ 6) : ∃ angle, asin sine precision = .ok angle := by
  have behind := isReciprocal.firstPlace_nonpos
  have first := isReciprocal.first
  have guards : precision.Guards := Precision.guards_of_lt (by omega)
  obtain ⟨scale, found, places⟩ := exists_scaleNear_of_firstPlace guards isReciprocal.nonzero
    (show |firstPlace sine.value| ≤ 2 ^ 61 by rw [abs_le]; omega)
  have working : IsWorkingScale scale := ⟨by omega, by omega⟩
  have domain := (isReciprocal.isPlaced few).hasDomain_asinAtScale working
  apply isReciprocal.exists_of_hasDomain (show _ ≤ scale.toInt by omega)
  rw [asin, found]
  exact domain.map fun angle => angle.roundToPrecision precision

end IsReciprocal

/-! ### The domain -/

/-- How an inverse secant or cosecant ends: the numbers between minus one and one are refused, and
nothing else is. -/
structure HasSecantDomain (secant : Decimal) (outcome : Outcome Decimal) : Prop where
  between : outcome = .error (.secantOutOfRange secant) ↔ |secant.value| < 1
  outside : (∃ angle, outcome = .ok angle) ↔ 1 ≤ |secant.value|
  only : ∀ error, outcome = .error error → error = .secantOutOfRange secant

theorem hasSecantDomain_of_inner {inner : Decimal → Outcome Decimal}
    (few : precision.toNat ≤ 10 ^ 6) (moderate : IsModerate secant)
    (takes : ∀ sine, IsReciprocal precision sine → ∃ angle, inner sine = .ok angle) :
    HasSecantDomain secant (reciprocalOfSecant secant precision >>= inner) := by
  have order : secant.abs < 1 ↔ |secant.value| < 1 := by
    rw [lt_iff_value_lt moderate.comparable.symm, value_one, value_abs]
  rw [reciprocalOfSecant, requireWords_bind_of moderate.comparable.symm]
  by_cases between : |secant.value| < 1
  · simp only [order.mpr between, ↓reduceIte]
    refine ⟨iff_of_true rfl between, iff_of_false ?_ (not_le.mpr between), ?_⟩
    · rintro ⟨angle, impossible⟩
      cases impossible
    · intro error refused
      cases refused
      rfl
  · have outside := not_lt.mp between
    obtain ⟨sine, divided, isReciprocal⟩ := exists_reciprocal_of_one_le few moderate outside
    obtain ⟨angle, found⟩ := takes sine isReciprocal
    have reached : (divideToPrecision 1 secant precision.guarded >>= inner) = .ok angle := by
      rw [divided]
      exact found
    simp only [mt order.mp between, ↓reduceIte,
      requireWords_bind_of (Precision.guards_of_lt (show precision.toNat + 10 < 2 ^ 32 by omega))]
    change HasSecantDomain secant (divideToPrecision 1 secant precision.guarded >>= inner)
    rw [reached]
    refine ⟨iff_of_false ?_ between, iff_of_true ⟨angle, rfl⟩ outside, ?_⟩
    · intro impossible
      cases impossible
    · intro error impossible
      cases impossible

/-- The inverse secant and cosecant refuse the numbers between minus one and one as being out of
their range, and take every other number: no refusal of the inner functions shows. -/
theorem asec_acsc_hasSecantDomain (few : precision.toNat ≤ 10 ^ 6) (moderate : IsModerate secant) :
    HasSecantDomain secant (asec secant precision) ∧
      HasSecantDomain secant (acsc secant precision) := by
  constructor
  · exact hasSecantDomain_of_inner few moderate fun sine isReciprocal =>
      isReciprocal.exists_acos few
  · exact hasSecantDomain_of_inner few moderate fun sine isReciprocal =>
      isReciprocal.exists_asin few

/-- At a precision of 20 digits both functions take the number that is one unit of the twenty-ninth
place behind the point above 1, whose reciprocal is a row of nines. -/
theorem asec_acsc_next_to_one :
    (∃ angle, asec ⟨10 ^ 29 + 1, 29⟩ 20 = .ok angle) ∧
      ∃ angle, acsc ⟨10 ^ 29 + 1, 29⟩ 20 = .ok angle := by
  have moderate : IsModerate ⟨10 ^ 29 + 1, 29⟩ := ⟨by decide, by decide, by decide⟩
  have above : 1 ≤ |(⟨10 ^ 29 + 1, 29⟩ : Decimal).value| := by
    change 1 ≤ |((10 ^ 29 + 1 : Int) : ℚ) / 10 ^ (29 : Int)|
    norm_num [abs_of_pos]
  obtain ⟨first, second⟩ : HasSecantDomain _ (asec _ 20) ∧ HasSecantDomain _ (acsc _ 20) :=
    asec_acsc_hasSecantDomain (by decide) moderate
  exact ⟨first.outside.mpr above, second.outside.mpr above⟩

end Elementary
end DecimalCalculator
