/-
The shape of results.

What is done number by number keeps the nesting of a value, so it takes items to items
and results to results.  As an item of a list, a result is an item.
-/

import Mathlib
import DecimalCalculator.Evaluation.Final
import DecimalCalculator.Proofs.Value.Traversal

namespace DecimalCalculator

theorem mapM_eq_ok_iff {α β ε : Type} {step : α → Except ε β} {items : List α}
    {results : List β} : items.mapM step = .ok results ↔
      List.Forall₂ (fun item result => step item = .ok result) items results := by
  induction items generalizing results with
  | nil =>
      rw [List.forall₂_nil_left_iff]
      constructor
      · intro same
        exact (Except.ok.inj same).symm
      · intro none
        rw [none]
        rfl
  | cons item rest ih =>
      rw [List.mapM_cons, bind_eq_ok_iff, List.forall₂_cons_left_iff]
      constructor
      · intro found
        obtain ⟨result, reached, more⟩ := found
        obtain ⟨others, later, same⟩ := bind_eq_ok_iff.mp more
        exact ⟨result, others, reached, ih.mp later, (Except.ok.inj same).symm⟩
      · intro found
        obtain ⟨result, others, reached, later, same⟩ := found
        exact ⟨result, reached, bind_eq_ok_iff.mpr ⟨others, ih.mpr later, same ▸ rfl⟩⟩

namespace Value

variable {ε : Type} {transform : Decimal → Except ε Decimal} {value result : Value}
  {items results : List Value}

/-! ### Traversal of lists -/

theorem tryMapItems_eq_mapM (transform : Decimal → Except ε Decimal) (items : List Value) :
    tryMapItems transform items = items.mapM (·.tryMap transform) := by
  induction items with
  | nil => rfl
  | cons item rest ih => rw [tryMapItems, List.mapM_cons, ih]

theorem tryMapItems_eq_ok_iff : tryMapItems transform items = .ok results ↔
    List.Forall₂ (fun item image => item.tryMap transform = .ok image) items results := by
  rw [tryMapItems_eq_mapM, mapM_eq_ok_iff]

theorem tryMap_list_eq_ok_iff : (Value.list items).tryMap transform = .ok result ↔
    ∃ images, result = .list images ∧
      List.Forall₂ (fun item image => item.tryMap transform = .ok image) items images := by
  rw [tryMap, bind_eq_ok_iff]
  constructor
  · intro found
    rcases found with ⟨images, mapped, same⟩
    exact ⟨images, (Except.ok.inj same).symm, tryMapItems_eq_ok_iff.mp mapped⟩
  · intro found
    rcases found with ⟨images, same, pairs⟩
    exact ⟨images, tryMapItems_eq_ok_iff.mpr pairs, same ▸ rfl⟩

theorem tryMap_number_eq_ok_iff {number : Decimal} :
    (Value.number number).tryMap transform = .ok result ↔
      ∃ image, transform number = .ok image ∧ result = .number image := by
  rw [tryMap, bind_eq_ok_iff]
  constructor
  · intro found
    rcases found with ⟨image, mapped, same⟩
    exact ⟨image, mapped, (Except.ok.inj same).symm⟩
  · intro found
    rcases found with ⟨image, mapped, same⟩
    exact ⟨image, mapped, same ▸ rfl⟩

/-! ### Items and results -/

theorem areItems_iff : areItems items = true ↔ ∀ item ∈ items, item.isItem = true := by
  induction items with
  | nil => simp [areItems]
  | cons item rest ih => rw [areItems, Bool.and_eq_true, ih, List.forall_mem_cons]

theorem isItem_list_iff : (Value.list items).isItem = true ↔
    (Value.list items).isScalar = false ∧ ∀ item ∈ items, item.isItem = true := by
  rw [isItem, Bool.and_eq_true, Bool.not_eq_true', areItems_iff]

theorem isResult_list_iff : (Value.list items).isResult = true ↔
    ∀ item ∈ items, item.isItem = true := by
  rw [isResult, areItems_iff]

theorem exists_items_of_isResult (shaped : value.isResult = true) :
    ∃ items, value = .list items := by
  cases value with
  | number number => cases shaped
  | list items => exact ⟨items, rfl⟩

theorem isResult_scalar (number : Decimal) : (scalar number).isResult = true :=
  rfl

theorem isItem_asItem (shaped : value.isResult = true) :
    (Evaluation.asItem value).isItem = true := by
  unfold Evaluation.asItem
  cases single : value.scalar? with
  | some number => rfl
  | none =>
      obtain ⟨items, rfl⟩ := exists_items_of_isResult shaped
      rw [isItem_list_iff, isScalar, single]
      exact ⟨rfl, isResult_list_iff.mp shaped⟩

/-! ### Traversal keeps the shape -/

theorem isScalar_tryMap (mapped : value.tryMap transform = .ok result) :
    result.isScalar = value.isScalar := by
  cases value with
  | number number =>
      obtain ⟨image, _, rfl⟩ := tryMap_number_eq_ok_iff.mp mapped
      rfl
  | list items =>
      obtain ⟨images, rfl, pairs⟩ := tryMap_list_eq_ok_iff.mp mapped
      cases pairs with
      | nil => rfl
      | @cons item image rest others first later =>
          cases later with
          | cons => cases item <;> cases image <;> rfl
          | nil =>
              cases item with
              | number number =>
                  obtain ⟨form, _, rfl⟩ := tryMap_number_eq_ok_iff.mp first
                  rfl
              | list inner =>
                  obtain ⟨innerImages, rfl, _⟩ := tryMap_list_eq_ok_iff.mp first
                  rfl

theorem forall_isItem_of_pairs
    (pairs : List.Forall₂ (fun item image => item.tryMap transform = .ok image) items results)
    (step : ∀ item ∈ items, ∀ image, item.tryMap transform = .ok image →
      item.isItem = true → image.isItem = true)
    (every : ∀ item ∈ items, item.isItem = true) : ∀ image ∈ results, image.isItem = true := by
  induction pairs with
  | nil => exact every
  | cons first _ later =>
      rw [List.forall_mem_cons] at step every ⊢
      exact ⟨step.1 _ first every.1, later step.2 every.2⟩

theorem isItem_tryMap (mapped : value.tryMap transform = .ok result)
    (shaped : value.isItem = true) : result.isItem = true := by
  induction value generalizing result with
  | number number =>
      obtain ⟨image, _, rfl⟩ := tryMap_number_eq_ok_iff.mp mapped
      rfl
  | list items ih =>
      have single := isScalar_tryMap mapped
      obtain ⟨images, rfl, pairs⟩ := tryMap_list_eq_ok_iff.mp mapped
      obtain ⟨several, every⟩ := isItem_list_iff.mp shaped
      rw [isItem_list_iff, single]
      exact ⟨several, forall_isItem_of_pairs pairs (fun item member image => ih item member) every⟩

theorem isResult_tryMap (mapped : value.tryMap transform = .ok result)
    (shaped : value.isResult = true) : result.isResult = true := by
  obtain ⟨items, rfl⟩ := exists_items_of_isResult shaped
  obtain ⟨images, rfl, pairs⟩ := tryMap_list_eq_ok_iff.mp mapped
  rw [isResult_list_iff] at shaped ⊢
  exact forall_isItem_of_pairs pairs (fun item _ image => isItem_tryMap) shaped

end Value
end DecimalCalculator
