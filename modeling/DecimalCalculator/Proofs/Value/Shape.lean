/-
Values by their shape and their numbers.

The nesting of a value and its numbers in order fix the value.  A traversal keeps the
nesting and meets the numbers in order, so all that it does is told by what it does to
each of them: its result has the images for numbers, and it fails as on the first number
that it fails on.
-/

import Mathlib
import DecimalCalculator.Proofs.Value.Results

namespace DecimalCalculator
namespace Value

variable {ε : Type} {transform : Decimal → Except ε Decimal} {value other result : Value}

/-! ### Shape -/

def shape (value : Value) : Value :=
  value.map fun _ => 0

theorem shape_list (items : List Value) : (Value.list items).shape = .list (items.map shape) :=
  map_list _ items

theorem shape_map (transform : Decimal → Decimal) (value : Value) :
    (value.map transform).shape = value.shape := by
  induction value with
  | number value => rfl
  | list items ih =>
      rw [map_list, shape_list, shape_list, List.map_map]
      congr 1
      exact List.map_congr_left ih

theorem length_flatten_of_shape (same : value.shape = other.shape) :
    value.flatten.length = other.flatten.length := by
  have lengths := congrArg (fun value => value.flatten.length) same
  simpa only [shape, flatten_map, List.length_map] using lengths

theorem eq_of_shape_of_flatten (same : value.shape = other.shape)
    (numbers : value.flatten = other.flatten) : value = other := by
  induction value generalizing other with
  | number number =>
      cases other with
      | number form => exact congrArg Value.number (List.singleton_inj.mp numbers)
      | list others => cases same
  | list items ih =>
      cases other with
      | number form => cases same
      | list others =>
          rw [shape_list, shape_list, Value.list.injEq] at same
          rw [flatten, flatten] at numbers
          congr 1
          induction items generalizing others with
          | nil => exact (List.map_eq_nil_iff.mp same.symm).symm
          | cons item rest later =>
              obtain ⟨first, more, rfl, head, tail⟩ := List.map_eq_cons_iff.mp same.symm
              obtain ⟨front, back⟩ :=
                List.append_inj numbers (length_flatten_of_shape head.symm)
              obtain ⟨here, behind⟩ := List.forall_mem_cons.mp ih
              rw [here head.symm front, later behind more tail.symm back]

/-! ### Traversal -/

theorem shape_tryMap (mapped : value.tryMap transform = .ok result) :
    result.shape = value.shape := by
  induction value generalizing result with
  | number number =>
      obtain ⟨image, -, rfl⟩ := tryMap_number_eq_ok_iff.mp mapped
      rfl
  | list items ih =>
      obtain ⟨images, rfl, pairs⟩ := tryMap_list_eq_ok_iff.mp mapped
      rw [shape_list, shape_list]
      congr 1
      clear mapped
      induction pairs with
      | nil => rfl
      | cons first _ later =>
          obtain ⟨head, tail⟩ := List.forall_mem_cons.mp ih
          rw [List.map_cons, List.map_cons, head first, later tail]

theorem flatten_tryMap (transform : Decimal → Except ε Decimal) (value : Value) :
    flatten <$> value.tryMap transform = value.flatten.mapM transform := by
  induction value with
  | number number =>
      rw [tryMap, flatten, List.mapM_cons, List.mapM_nil]
      cases transform number with
      | error fault => rfl
      | ok image => rfl
  | list items ih =>
      have inside : flattenItems <$> tryMapItems transform items =
          (flattenItems items).mapM transform := by
        induction items with
        | nil => rfl
        | cons item rest later =>
            obtain ⟨head, tail⟩ := List.forall_mem_cons.mp ih
            rw [flattenItems, List.mapM_append, ← head, ← later tail, tryMapItems]
            cases item.tryMap transform with
            | error fault => rfl
            | ok image =>
                cases tryMapItems transform rest with
                | error fault => rfl
                | ok images => rfl
      rw [tryMap, flatten, ← inside]
      cases tryMapItems transform items with
      | error fault => rfl
      | ok images => rfl

theorem fault?_tryMap (transform : Decimal → Except ε Decimal) (value : Value) :
    fault? (value.tryMap transform) = firstFault? transform value.flatten := by
  rw [← fault?_mapM, ← flatten_tryMap, fault?_map]

theorem tryMap_eq_ok_iff : value.tryMap transform = .ok result ↔
    result.shape = value.shape ∧
      List.Forall₂ (fun number image => transform number = .ok image)
        value.flatten result.flatten := by
  rw [← mapM_eq_ok_iff, ← flatten_tryMap, map_eq_ok_iff]
  constructor
  · intro mapped
    exact ⟨shape_tryMap mapped, result, mapped, rfl⟩
  · intro found
    obtain ⟨shape, image, mapped, numbers⟩ := found
    rw [← eq_of_shape_of_flatten ((shape_tryMap mapped).trans shape.symm) numbers]
    exact mapped

/-! ### Outcomes number by number -/

/-- An outcome that is obtained from a value number by number: a result has the nesting
of the value, with the image of every number in its place, and there is none exactly if
some number has no image, in which case the first such number decides the error. -/
structure IsPointwise (transform : Decimal → Except ε Decimal) (value : Value)
    (outcome : Except ε Value) : Prop where
  result : ∀ result, outcome = .ok result ↔ result.shape = value.shape ∧
    List.Forall₂ (fun number image => transform number = .ok image) value.flatten result.flatten
  fault : fault? outcome = firstFault? transform value.flatten

theorem isPointwise_tryMap (transform : Decimal → Except ε Decimal) (value : Value) :
    IsPointwise transform value (value.tryMap transform) where
  result _ := tryMap_eq_ok_iff
  fault := fault?_tryMap transform value

end Value
end DecimalCalculator
