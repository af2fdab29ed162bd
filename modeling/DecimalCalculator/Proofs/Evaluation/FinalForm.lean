/-
The final pass over a result.

Numbers are stripped, rounded if they are too long, and stripped again.  Together this is
one rounding of the value, written in its canonical form, so a second pass finds nothing
to do.  The nesting of the result is that of the walk.
-/

import Mathlib
import DecimalCalculator.Evaluation.Standard
import DecimalCalculator.Proofs.Decimal.Forms
import DecimalCalculator.Proofs.Decimal.Shortest
import DecimalCalculator.Proofs.Value.Final
import DecimalCalculator.Proofs.Value.Shape

namespace DecimalCalculator

variable {displayScale : UInt32} {number : Decimal}

namespace Decimal

/-! ### Reduced forms -/

theorem IsReduced.eq_zero (reduced : number.IsReduced) (zero : number.unscaled = 0) :
    number = 0 := by
  rw [← reduced.strip_eq, strip, if_pos zero]

theorem isShort_strip (fractional : 0 ≤ number.scale) (short : number.IsShort) :
    number.strip.IsShort := by
  by_cases zero : number.unscaled = 0
  · rw [strip, if_pos zero]
    decide
  · obtain ⟨zeros, appended, -, -, -⟩ := exists_strip_eq zero fractional
    have kept : number.strip.unscaled ≠ 0 := by
      intro gone
      rw [gone, zero_mul] at appended
      exact zero appended
    have digits := digitCount_append kept appended
    unfold IsShort at short ⊢
    omega

/-! ### The final form of a number -/

/-- What a number becomes at the end: the canonical form of its value, rounded once, which
for zero is the plain one.  Of numbers with too many digits no value is claimed. -/
structure IsRoundedTo (displayScale : UInt32) (number final : Decimal) : Prop extends
    final.IsCanonical displayScale where
  plain : final.unscaled = 0 → final = 0
  value : number.IsShort → final.value = roundedTo displayScale.toNat number.value

theorem isRoundedTo_finalForm (displayScale : UInt32) (reaches : number.Reaches 0) :
    number.IsRoundedTo displayScale (Evaluation.finalForm displayScale number) where
  toIsCanonical := isCanonical_finalForm displayScale number
  plain := (isCanonical_finalForm displayScale number).eq_zero
  value := by
    intro short
    refine value_finalForm displayScale reaches fun longer => ?_
    have fractional : 0 ≤ number.scale := by
      by_contra negative
      have whole : number.strip.scale ≤ 0 := by
        rw [strip]
        split
        · exact Int64.le_refl 0
        · rw [if_pos (Int64.not_le.mp negative)]
          exact Int64.le_refl 0
      exact Int64.not_le.mpr longer (Int64.le_trans whole (displayScale_nonneg displayScale))
    exact isShort_strip fractional short

theorem IsCanonical.isFinal (canonical : number.IsCanonical displayScale) :
    number.isFinal displayScale = true :=
  isFinal_iff.mpr ⟨canonical.strip_eq, canonical.limited⟩

end Decimal

namespace Evaluation

theorem tryMap_finalForm_map_finalForm (displayScale : UInt32) (value : Value) :
    (value.map (finalForm displayScale)).tryMap (Checked.finalForm displayScale) =
      .ok (value.map (finalForm displayScale)) := by
  refine Value.tryMap_finalForm_of_isFinal fun number member => ?_
  obtain ⟨before, -, rfl⟩ := Value.mem_flatten_map.mp member
  exact (Decimal.isCanonical_finalForm displayScale before).isFinal

/-- A result has the nesting of the value that the walk computes, each number in its
final form, and the final pass succeeds again and leaves it as it is. -/
theorem evaluate_rounds_once (resolvers : Resolvers) (context : Context) (tree : Expression)
    {result : Value} (evaluated : evaluate resolvers context tree = .ok result) :
    ∃ value, walk resolvers context tree = .ok value ∧ result.shape = value.shape ∧
      List.Forall₂ (Decimal.IsRoundedTo context.displayScale) value.flatten result.flatten ∧
      result.tryMap (Checked.finalForm context.displayScale) = .ok result := by
  obtain ⟨value, walked, reaches, rfl⟩ := evaluate_eq_ok_iff.mp evaluated
  refine ⟨value, walked, Value.shape_map _ value, ?_, tryMap_finalForm_map_finalForm _ value⟩
  rw [Value.flatten_map, List.forall₂_map_right_iff, List.forall₂_same]
  exact fun number member =>
    Decimal.isRoundedTo_finalForm context.displayScale (reaches number member)

theorem evaluate_rounds_once_nested_list :
    let tree : Expression :=
      .list [.number "9.999", .list [.negative (.number "0.005"), .number "2.50e3"]]
    let result : Value := .list [.number 10, .list [.number 0, .number 2500]]
    evaluate .standard ⟨2, 20⟩ tree = .ok result ∧
      ∃ value, walk .standard ⟨2, 20⟩ tree = .ok value ∧ result.shape = value.shape ∧
        List.Forall₂ (Decimal.IsRoundedTo 2) value.flatten result.flatten ∧
        result.tryMap (Checked.finalForm 2) = .ok result := by
  intro tree result
  have evaluated : evaluate .standard ⟨2, 20⟩ tree = .ok result := by cbv
  exact ⟨evaluated, evaluate_rounds_once .standard ⟨2, 20⟩ tree evaluated⟩

end Evaluation
end DecimalCalculator
