/-
Traversals and the numbers of a value.

A traversal depends on the value of its function at the numbers of the value alone.  It
succeeds exactly if the function does at each of them, and where it does, a traversal of the
result is one traversal of the value with the composed function.
-/

import Mathlib
import DecimalCalculator.Decimal.Division
import DecimalCalculator.Proofs.Value.Shape

namespace DecimalCalculator
namespace Value

variable {ε : Type} {transform other next : Decimal → Except ε Decimal} {value : Value}

theorem tryMap_list_eq_mapM (transform : Decimal → Except ε Decimal) (items : List Value) :
    (Value.list items).tryMap transform = Value.list <$> items.mapM (·.tryMap transform) := by
  rw [tryMap, tryMapItems_eq_mapM]
  rfl

theorem tryMap_congr (same : ∀ number ∈ value.flatten, transform number = other number) :
    value.tryMap transform = value.tryMap other := by
  induction value with
  | number number =>
      have only : transform number = other number := same number (List.mem_singleton_self number)
      rw [tryMap, tryMap, only]
  | list items ih =>
      rw [tryMap_list_eq_mapM, tryMap_list_eq_mapM]
      congr 1
      refine mapM_congr fun item member => ih item member fun number inside => ?_
      exact same number (mem_flatten_list.mpr ⟨item, member, inside⟩)

theorem tryMap_map (next : Decimal → Except ε Decimal) (image : Decimal → Decimal) (value : Value) :
    (value.map image).tryMap next = value.tryMap fun number => next (image number) := by
  induction value with
  | number number => rfl
  | list items ih =>
      rw [map_list, tryMap_list_eq_mapM, tryMap_list_eq_mapM, List.mapM_map]
      congr 1
      exact mapM_congr ih

/-- Where a function succeeds on every number of a value, it succeeds as one that cannot fail. -/
theorem exists_images (succeeds : ∀ number ∈ value.flatten, ∃ image, transform number = .ok image) :
    ∃ image : Decimal → Decimal,
      ∀ number ∈ value.flatten, transform number = .ok (image number) := by
  refine ⟨fun number => (transform number).toOption.getD number, ?_⟩
  intro number member
  obtain ⟨image, reached⟩ := succeeds number member
  change transform number = .ok ((transform number).toOption.getD number)
  rw [reached]
  rfl

theorem exists_tryMap_iff : (∃ result, value.tryMap transform = .ok result) ↔
    ∀ number ∈ value.flatten, ∃ image, transform number = .ok image := by
  rw [← fault?_eq_none_iff, fault?_tryMap, firstFault?_eq_none_iff]

theorem tryMap_bind_tryMap
    (succeeds : ∀ number ∈ value.flatten, ∃ image, transform number = .ok image) :
    (value.tryMap transform >>= fun result => result.tryMap next) =
      value.tryMap fun number => transform number >>= next := by
  obtain ⟨image, images⟩ := exists_images succeeds
  have mapped : value.tryMap transform = .ok (value.map image) := by
    rw [tryMap_congr images, tryMap_ok_eq_map]
  calc
    (value.tryMap transform >>= fun result => result.tryMap next) =
        (value.map image).tryMap next := by
      rw [mapped]
      rfl
    _ = value.tryMap fun number => next (image number) := tryMap_map next image value
    _ = value.tryMap fun number => transform number >>= next := by
      refine tryMap_congr fun number member => ?_
      rw [images number member]
      rfl

/-- A traversal keeps the nesting and takes the numbers to their images in order.  There is
a result exactly if every number has an image, otherwise the error is that of the first number
without one.  Traversals in sequence are one traversal as long as the first of them
succeeds. -/
theorem tryMap_isTraversal (transform : Decimal → Except ε Decimal) (value : Value) :
    ((∃ result, value.tryMap transform = .ok result) ↔
        ∀ number ∈ value.flatten, ∃ image, transform number = .ok image) ∧
      (∀ result, value.tryMap transform = .ok result ↔
        result.shape = value.shape ∧ value.flatten.mapM transform = .ok result.flatten) ∧
      (∀ error, value.tryMap transform = .error error ↔
        ∃ before number after, value.flatten = before ++ number :: after ∧
          (∀ earlier ∈ before, ∃ image, transform earlier = .ok image) ∧
          transform number = .error error) ∧
      ∀ next : Decimal → Except ε Decimal,
        (∀ number ∈ value.flatten, ∃ image, transform number = .ok image) →
          (value.tryMap transform >>= fun result => result.tryMap next) =
            value.tryMap fun number => transform number >>= next := by
  refine ⟨exists_tryMap_iff, ?_, ?_, fun next => tryMap_bind_tryMap⟩
  · intro result
    rw [tryMap_eq_ok_iff, mapM_eq_ok_iff]
  · intro error
    rw [← fault?_eq_some_iff, fault?_tryMap, firstFault?_eq_some_iff]

theorem tryMap_isTraversal_reciprocals :
    let reciprocal : Decimal → Outcome Decimal := fun number =>
      Decimal.divideAtScale 1 number 2 .halfEven
    let value : Value := .list [.number 4, .list [], .list [.number ⟨8, 1⟩]]
    (∀ number ∈ value.flatten, ∃ image, reciprocal number = .ok image) ∧
      value.tryMap reciprocal =
        .ok (.list [.number ⟨25, 2⟩, .list [], .list [.number ⟨125, 2⟩]]) ∧
      (value.tryMap fun number => reciprocal number >>= reciprocal) =
        .ok (.list [.number ⟨400, 2⟩, .list [], .list [.number ⟨80, 2⟩]]) := by
  intro reciprocal value
  obtain ⟨succeeds, -, -, composed⟩ := tryMap_isTraversal reciprocal value
  have mapped : value.tryMap reciprocal =
      .ok (.list [.number ⟨25, 2⟩, .list [], .list [.number ⟨125, 2⟩]]) := by
    cbv
  have every := succeeds.mp ⟨_, mapped⟩
  refine ⟨every, mapped, ?_⟩
  rw [← composed reciprocal every, mapped]
  cbv

end Value
end DecimalCalculator
