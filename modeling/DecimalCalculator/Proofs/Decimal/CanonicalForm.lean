/-
The shortest form is a canonical form.

Two numbers are equal exactly if they have the same shortest form, and then their texts
are the same too.  Of the forms with a scale that is not negative it has the least scale,
and it is its own shortest form.
-/

import Mathlib
import DecimalCalculator.Proofs.Decimal.Forms
import DecimalCalculator.Proofs.Decimal.Shortest
import DecimalCalculator.Proofs.Decimal.Text

namespace DecimalCalculator
namespace Decimal

variable {number left right : Decimal}

/-! ### The least scale -/

/-- The number is written with no more digits after the point than its value needs. -/
structure HasLeastScale (number : Decimal) : Prop where
  nonneg : 0 ≤ number.scale.toInt
  least : ∀ (places : Nat) (units : Int), number.value = units / 10 ^ places →
    number.scale.toInt ≤ places

theorem IsReduced.hasLeastScale (reduced : number.IsReduced) : number.HasLeastScale := by
  have nonneg := Int64.le_iff_toInt_le.mp reduced.nonneg
  rw [Int64.toInt_zero] at nonneg
  refine ⟨nonneg, fun places units written => ?_⟩
  by_contra longer
  obtain ⟨gap, distance⟩ : ∃ gap : Nat, number.scale.toInt = places + (gap + 1 : Nat) :=
    ⟨(number.scale.toInt - places - 1).toNat, by omega⟩
  have exact : (number.unscaled : ℚ) = units * 10 ^ (gap + 1) := by
    rw [unscaled_eq, written, distance, zpow_add₀ (by norm_num), zpow_natCast, zpow_natCast,
      ← mul_assoc, div_mul_cancel₀ _ (pow_ne_zero _ (by norm_num))]
  -- a missing place would be a zero at the end
  have ends : (10 : Int) ∣ number.unscaled := by
    have scaled : number.unscaled = units * 10 ^ (gap + 1) := by exact_mod_cast exact
    rw [scaled, pow_succ, ← mul_assoc]
    exact Int.dvd_mul_left _ _
  refine reduced.reduced ?_ ends
  rw [Int64.lt_iff_toInt_lt, Int64.toInt_zero]
  omega

/-! ### Equal numbers -/

theorem toInt_scale_strip_le (number : Decimal) :
    number.strip.scale.toInt ≤ max 0 number.scale.toInt := by
  by_cases whole : number.scale < 0
  · by_cases zero : number.unscaled = 0
    · rw [strip, if_pos zero]
      exact le_max_left _ _
    · rw [strip, if_neg zero, if_pos whole]
      exact le_max_left _ _
  · exact (Int64.le_iff_toInt_le.mp (scale_strip_le (Int64.not_lt.mp whole))).trans
      (le_max_right _ _)

theorem checked_sameValue_strip (reaches : number.Reaches 0) :
    Checked.sameValue number number.strip = .ok true := by
  have least := (isReduced_strip number).hasLeastScale
  have comparable : Comparable number number.strip :=
    fun _ => aligned_of_scale_le reaches least.nonneg (toInt_scale_strip_le number)
  rw [Checked.sameValue_eq comparable, value_strip reaches, decide_eq_true rfl]

theorem strip_eq_iff (first : left.Reaches 0) (second : right.Reaches 0) :
    left.strip = right.strip ↔ left.value = right.value := by
  constructor
  · intro same
    rw [← value_strip first, ← value_strip second, same]
  · intro same
    refine (isReduced_strip left).eq_of_value_eq (isReduced_strip right) ?_
    rw [value_strip first, value_strip second, same]

theorem toText_inj (first : 0 ≤ left.scale) (second : 0 ≤ right.scale) :
    left.toText = right.toText ↔ left = right := by
  constructor
  · intro same
    exact toChars_injective first second (String.ofList_injective same)
  · exact congrArg toText

/-- A number that can be brought to the scale 0 has a shortest form, of the same value and with
the least scale, which is its own shortest form.  Numbers are equal, in their values and for a
comparison that ends, exactly if they have the same shortest form, which is also to have the
same text of it. -/
theorem strip_isCanonical (left right : Decimal) :
    (left.Reaches 0 → ∃ shortest, Checked.strip left = .ok shortest ∧
        shortest.value = left.value ∧ Checked.sameValue left shortest = .ok true ∧
        shortest.HasLeastScale ∧ Checked.strip shortest = .ok shortest) ∧
      (¬left.Reaches 0 → Checked.strip left = .error .overflow) ∧
      ∀ first second : Decimal, Checked.strip left = .ok first → Checked.strip right = .ok second →
        (left.value = right.value ↔ first = second) ∧
        (∀ equal, Checked.sameValue left right = .ok equal → (equal = true ↔ first = second)) ∧
        (first = second ↔ first.toText = second.toText) := by
  refine ⟨fun reaches => ?_, unlessOverflow_of_not, fun first second reached reached' => ?_⟩
  · have reduced := isReduced_strip left
    refine ⟨_, unlessOverflow_of reaches, value_strip reaches, checked_sameValue_strip reaches,
      reduced.hasLeastScale, ?_⟩
    rw [Checked.strip, reduced.strip_eq]
    exact unlessOverflow_of (.of_nonneg reduced.nonneg)
  · obtain ⟨reaches, rfl⟩ := unlessOverflow_eq_ok_iff.mp reached
    obtain ⟨reaches', rfl⟩ := unlessOverflow_eq_ok_iff.mp reached'
    have shortest := strip_eq_iff reaches reaches'
    refine ⟨shortest.symm, fun equal compared => ?_,
      (toText_inj (isReduced_strip left).nonneg (isReduced_strip right).nonneg).symm⟩
    obtain ⟨order, found, same⟩ := bind_eq_ok_iff.mp compared
    obtain ⟨comparable, rfl⟩ := unlessOverflow_eq_ok_iff.mp found
    cases same
    rw [shortest]
    exact sameValue_iff comparable

theorem strip_isCanonical_tens :
    (⟨-25, -1⟩ : Decimal).Reaches 0 ∧ Checked.strip ⟨-25, -1⟩ = .ok (-250) ∧
      Checked.strip ⟨-2500, 1⟩ = .ok (-250) ∧
      (-250 : Decimal).value = (⟨-25, -1⟩ : Decimal).value ∧
      (⟨-25, -1⟩ : Decimal).value = (⟨-2500, 1⟩ : Decimal).value ∧
      Checked.sameValue ⟨-25, -1⟩ (-250) = .ok true := by
  have reaches : (⟨-25, -1⟩ : Decimal).Reaches 0 := by decide
  have first : Checked.strip ⟨-25, -1⟩ = .ok (-250) := by rfl
  have second : Checked.strip ⟨-2500, 1⟩ = .ok (-250) := by rfl
  obtain ⟨keeps, -, equal⟩ := strip_isCanonical ⟨-25, -1⟩ ⟨-2500, 1⟩
  obtain ⟨shortest, found, worth, alike, -, -⟩ := keeps reaches
  rw [first, Except.ok.injEq] at found
  subst found
  exact ⟨reaches, first, second, worth, (equal _ _ first second).1.mpr rfl, alike⟩

/-- The distance between the scales of `10 ^ -(2 ^ 63 - 1)` and 100 is no word, so that they are
not compared; and `10 ^ 2 ^ 63` cannot be brought to the scale 0. -/
theorem strip_of_distant_scales :
    Checked.compare ⟨1, 9223372036854775807⟩ ⟨1, -2⟩ = .error .overflow ∧
      Checked.strip ⟨1, -9223372036854775808⟩ = .error .overflow :=
  ⟨unlessOverflow_of_not fun comparable => absurd (comparable rfl) (by decide),
    unlessOverflow_of_not (by decide)⟩

end Decimal
end DecimalCalculator
