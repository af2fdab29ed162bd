/-
The tangent of half an angle, at any scale.

A halving that succeeds divides by one and the truncated hypotenuse.  Two halvings in a row
therefore leave at most a quarter of a tangent of at most one and a few units.
-/

import Mathlib
import DecimalCalculator.Proofs.Elementary.InverseSine

namespace DecimalCalculator
namespace Elementary

open Decimal

variable {tangent halved quartered : Decimal} {scale : Int64}

theorem one_le_truncatedRoot {places : Int} (nonneg : 0 ≤ places) (value : ℚ) :
    1 ≤ truncatedRoot 2 places (1 + value ^ 2) := by
  obtain ⟨zeros, rfl⟩ := Int.eq_ofNat_of_zero_le nonneg
  have unit : (0 : ℚ) < 10 ^ (2 * (zeros : Int)) := zpow_pos (by norm_num) _
  have within : ((10 ^ zeros : Nat) : ℚ) ^ 2 ≤ (1 + value ^ 2) * 10 ^ (2 * (zeros : Int)) := by
    have whole : ((10 ^ zeros : Nat) : ℚ) ^ 2 = 10 ^ (2 * (zeros : Int)) := by
      rw [mul_comm, zpow_mul, zpow_natCast]
      norm_cast
    rw [whole]
    refine le_mul_of_one_le_left unit.le ?_
    have square := sq_nonneg value
    linarith
  have digits := IntegerRoot.le_floorRoot_floor two_ne_zero within
  rw [truncatedRoot, one_le_div (zpow_pos (by norm_num) _), zpow_natCast]
  exact_mod_cast digits

theorem exists_hypotenuse (halving : halfAngleTangent tangent scale = .ok halved) :
    ∃ hypotenuse : Decimal, hypotenuse.scale = scale ∧
      (1 + hypotenuse).value = 1 + truncatedRoot 2 scale.toInt (1 + tangent.value ^ 2) ∧
      tangent.divideAtScale (1 + hypotenuse) scale .halfEven = .ok halved := by
  obtain ⟨square, squared, halving⟩ := bind_eq_ok_iff.mp halving
  obtain ⟨sum, added, halving⟩ := bind_eq_ok_iff.mp halving
  obtain ⟨hypotenuse, rooted, divided⟩ := bind_eq_ok_iff.mp halving
  obtain ⟨word, rfl⟩ := unlessOverflow_eq_ok_iff.mp squared
  obtain ⟨aligned, rfl⟩ := unlessOverflow_eq_ok_iff.mp added
  obtain ⟨fits, -, rfl⟩ := units_of_rootAtScale rooted
  have value : (1 + tangent * tangent).value = 1 + tangent.value ^ 2 := by
    rw [value_add aligned, value_one, value_mul word, sq]
  have nonneg : 0 ≤ (1 + tangent * tangent).value := by
    rw [value]
    positivity
  refine ⟨_, rfl, ?_, divided⟩
  have lower := fits.places.1
  rw [value_add (aligned_one (by change _ ≤ scale.toInt; omega)), value_one,
    units_mul_zpow nonneg, value]
  rfl

theorem halfAngleTangent_eq_ok (halving : halfAngleTangent tangent scale = .ok halved) :
    |scale.toInt + max 0 scale.toInt - tangent.scale.toInt| ≤ largestExponent ∧
      halved = ⟨RoundingMode.halfEven.round (tangent.value /
        (1 + truncatedRoot 2 scale.toInt (1 + tangent.value ^ 2)) * 10 ^ scale.toInt), scale⟩ := by
  obtain ⟨hypotenuse, written, sum, divided⟩ := exists_hypotenuse halving
  obtain ⟨-, -, near, quotient⟩ := divideAtScale_eq_ok_iff.mp divided
  rw [quotientExponent, toInt_scale_one_add, written] at near
  rw [sum] at quotient
  exact ⟨near, quotient⟩

theorem scale_of_halfAngleTangent (halving : halfAngleTangent tangent scale = .ok halved) :
    halved.scale = scale := by
  rw [(halfAngleTangent_eq_ok halving).2]

theorem scale_le_of_halved (nonneg : 0 ≤ scale.toInt) (written : tangent.scale = scale)
    (halving : halfAngleTangent tangent scale = .ok halved) : scale.toInt ≤ largestExponent := by
  have near := (halfAngleTangent_eq_ok halving).1
  rw [written, max_eq_right nonneg, add_sub_cancel_right] at near
  exact (le_abs_self _).trans near

theorem abs_halfAngleTangent_le (nonneg : 0 ≤ scale.toInt)
    (halving : halfAngleTangent tangent scale = .ok halved) :
    |halved.value| ≤ |tangent.value| / 2 + lastUnit scale / 2 := by
  have rounded := (halfAngleTangent_eq_ok halving).2
  have least := one_le_truncatedRoot nonneg tangent.value
  generalize truncatedRoot 2 scale.toInt (1 + tangent.value ^ 2) = root at rounded least
  have close := abs_sub_round_mul_le (tangent.value / (1 + root)) scale
  rw [← rounded] at close
  have halves : |tangent.value / (1 + root)| ≤ |tangent.value| / 2 := by
    rw [abs_div, abs_of_pos (by linarith : 0 < 1 + root)]
    gcongr
    linarith
  have triangle := abs_sub_abs_le_abs_sub halved.value (tangent.value / (1 + root))
  rw [abs_sub_comm] at triangle
  linarith

theorem abs_halved_twice_le (positive : 1 ≤ scale.toInt) (small : |tangent.value| ≤ 1)
    (first : halfAngleTangent tangent scale = .ok halved)
    (second : halfAngleTangent halved scale = .ok quartered) : |quartered.value| ≤ 1 / 3 := by
  have written := scale_le_of_halved (by omega) (scale_of_halfAngleTangent first) second
  have unit := IsFractionalScale.lastUnit_le ⟨positive, written⟩
  have half := abs_halfAngleTangent_le (by omega) first
  have quarter := abs_halfAngleTangent_le (by omega) second
  linarith

end Elementary
end DecimalCalculator
