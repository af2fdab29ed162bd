/-
Results in final form.

A number in final form has no missing zeros and no more digits after the point than
are shown, and bringing it to its final form again changes nothing.  Without its
spaces, the text of a list of at least two items is that of the items between round
brackets.
-/

import Mathlib
import DecimalCalculator.Evaluation.Final
import DecimalCalculator.Proofs.Decimal.Rational
import DecimalCalculator.Proofs.Value.Composition

namespace DecimalCalculator

variable {displayScale : UInt32} {number : Decimal} {value : Value}

namespace Decimal

theorem isFinal_iff : number.isFinal displayScale = true ↔
    number.strip = number ∧ number.scale ≤ Int64.ofNat displayScale.toNat := by
  simp [isFinal]

theorem scale_nonneg_of_strip_eq (shortest : number.strip = number) : 0 ≤ number.scale := by
  by_cases zero : number.unscaled = 0
  · rw [strip, if_pos zero] at shortest
    rw [← shortest]
    decide
  · by_contra negative
    rw [strip, if_neg zero, if_pos (Int64.not_le.mp negative)] at shortest
    rw [← shortest] at negative
    exact negative (Int64.le_refl 0)

theorem toNatClampNeg_scale_of_isFinal (final : number.isFinal displayScale = true) :
    number.scale.toNatClampNeg ≤ displayScale.toNat := by
  have limited := Int64.le_iff_toInt_le.mp (isFinal_iff.mp final).2
  rw [Int64.toInt_ofNat_of_lt (by have := displayScale.toNat_lt; omega)] at limited
  rw [← Int64.toNat_toInt]
  omega

theorem neg_abs_of_isNegative (negative : number.isNegative = true) : -number.abs = number := by
  have below : number.unscaled < 0 := of_decide_eq_true negative
  have same : -(number.unscaled.natAbs : Int) = number.unscaled := by omega
  exact congrArg (Decimal.mk · number.scale) same

theorem abs_of_not_isNegative (positive : ¬number.isNegative = true) : number.abs = number := by
  have above : 0 ≤ number.unscaled := Int.not_lt.mp (mt decide_eq_true positive)
  have same : (number.unscaled.natAbs : Int) = number.unscaled := by omega
  exact congrArg (Decimal.mk · number.scale) same

theorem finalForm_of_isFinal (final : number.isFinal displayScale = true) :
    Evaluation.finalForm displayScale number = number := by
  obtain ⟨shortest, short⟩ := isFinal_iff.mp final
  simp only [Evaluation.finalForm, shortest]
  exact if_neg (Int64.not_lt.mpr short)

theorem checked_finalForm_of_isFinal (final : number.isFinal displayScale = true) :
    Evaluation.Checked.finalForm displayScale number = .ok number := by
  have fractional := scale_nonneg_of_strip_eq (isFinal_iff.mp final).1
  rw [Evaluation.Checked.finalForm, finalForm_of_isFinal final]
  exact unlessOverflow_of (.of_nonneg fractional)

end Decimal

namespace Evaluation

theorem evaluate_eq (resolvers : Resolvers) (context : Context) (tree : Expression) :
    evaluate resolvers context tree = walk resolvers context tree >>= fun value =>
      unlessOverflow (∀ number ∈ value.flatten, number.Reaches 0)
        (value.map (finalForm context.displayScale)) :=
  bind_congr fun value => value.tryMap_unlessOverflow (·.Reaches 0) _

theorem evaluate_eq_ok_iff {resolvers : Resolvers} {context : Context} {tree : Expression}
    {result : Value} :
    evaluate resolvers context tree = .ok result ↔
      ∃ value, walk resolvers context tree = .ok value ∧
        (∀ number ∈ value.flatten, number.Reaches 0) ∧
          value.map (finalForm context.displayScale) = result := by
  simp only [evaluate_eq, bind_eq_ok_iff, unlessOverflow_eq_ok_iff]

end Evaluation

namespace Value

theorem areFinalItems_iff {items : List Value} : areFinalItems displayScale items = true ↔
    ∀ item ∈ items, item.isFinalItem displayScale = true := by
  induction items with
  | nil => simp [areFinalItems]
  | cons item rest ih => rw [areFinalItems, Bool.and_eq_true, ih, List.forall_mem_cons]

theorem isFinalItem_list_iff {items : List Value} :
    (Value.list items).isFinalItem displayScale = true ↔
      2 ≤ items.length ∧ ∀ item ∈ items, item.isFinalItem displayScale = true := by
  rw [isFinalItem, Bool.and_eq_true, decide_eq_true_eq, areFinalItems_iff]

theorem isFinal_cases (final : value.isFinal displayScale = true) :
    (∃ number, value = scalar number ∧ number.isFinal displayScale = true) ∨
      ∃ items, value = .list items ∧ value.isFinalItem displayScale = true := by
  unfold isFinal at final
  split at final
  · exact Or.inl ⟨_, rfl, final⟩
  · exact Or.inr ⟨_, rfl, final⟩
  · cases final

theorem isFinal_of_mem_flatten (final : value.isFinalItem displayScale = true) :
    ∀ number ∈ value.flatten, number.isFinal displayScale = true := by
  induction value with
  | number number =>
      rw [isFinalItem] at final
      exact fun other member => List.mem_singleton.mp member ▸ final
  | list items ih =>
      have every := (isFinalItem_list_iff.mp final).2
      intro number member
      obtain ⟨item, among, inside⟩ := mem_flatten_list.mp member
      exact ih item among (every item among) number inside

theorem tryMap_finalForm_of_isFinal
    (final : ∀ number ∈ value.flatten, number.isFinal displayScale = true) :
    value.tryMap (Evaluation.Checked.finalForm displayScale) = .ok value :=
  (value.tryMap_congr fun number member =>
    Decimal.checked_finalForm_of_isFinal (final number member)).trans value.tryMap_ok

theorem renderItems_eq_map (numberText : Decimal → String) (items : List Value) :
    renderItems numberText items = items.map (·.render numberText) := by
  induction items with
  | nil => rfl
  | cons item rest ih => rw [renderItems, ih, List.map_cons]

theorem toText_list {items : List Value} (several : (Value.list items).isScalar = false) :
    (Value.list items).toText =
      "(" ++ "; ".intercalate (renderItems Decimal.toText items) ++ ")" := by
  rw [toText, render]
  rintro number rfl
  cases several

def compactChars (value : Value) : List Char :=
  value.toText.toList.filter (· ≠ ' ')

theorem filter_intercalate (accepts : Char → Bool) (separator : List Char)
    (texts : List (List Char)) :
    (separator.intercalate texts).filter accepts =
      (separator.filter accepts).intercalate (texts.map (·.filter accepts)) := by
  induction texts with
  | nil => simp
  | cons text rest ih =>
      cases rest with
      | nil => simp
      | cons other rest =>
          rw [List.intercalate_cons_cons, List.filter_append, List.filter_append, ih]
          simp [List.intercalate_cons_cons]

theorem compactChars_list {items : List Value} (several : 2 ≤ items.length) :
    (Value.list items).compactChars =
      '(' :: ([listSeparator].intercalate (items.map compactChars) ++ [')']) := by
  have unscalar : (Value.list items).isScalar = false := by
    rw [Bool.eq_false_iff, Ne, isScalar_iff]
    rintro ⟨number, same⟩
    rw [scalar, Value.list.injEq] at same
    rw [same] at several
    exact absurd several (by simp)
  rw [compactChars, toText_list unscalar, renderItems_eq_map]
  simp only [String.toList_append, String.toList_intercalate, List.filter_append,
    filter_intercalate, List.map_map]
  rfl

end Value

end DecimalCalculator
