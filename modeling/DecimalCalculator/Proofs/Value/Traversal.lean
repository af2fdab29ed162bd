/-
Scalars and the traversal of values.
-/

import DecimalCalculator.Proofs.Outcome
import DecimalCalculator.Value

namespace DecimalCalculator
namespace Value

variable {value : Value} {number : Decimal}

@[simp]
theorem scalar?_scalar (number : Decimal) : (scalar number).scalar? = some number :=
  rfl

theorem scalar?_eq_some_iff : value.scalar? = some number ↔ value = scalar number := by
  constructor
  · intro known
    unfold scalar? at known
    split at known
    · rw [Option.some.inj known]
      rfl
    · cases known
  · intro same
    rw [same, scalar?_scalar]

theorem isScalar_iff : value.isScalar = true ↔ ∃ number, value = scalar number := by
  simp only [isScalar, Option.isSome_iff_exists, scalar?_eq_some_iff]

theorem tryMap_scalar {ε : Type} (transform : Decimal → Except ε Decimal) (number : Decimal) :
    (scalar number).tryMap transform = scalar <$> transform number := by
  simp only [scalar, tryMap, tryMapItems]
  cases transform number with
  | error error => rfl
  | ok result => rfl

/-! ### Numbers of nested lists -/

theorem mapItems_eq_map (transform : Decimal → Decimal) (items : List Value) :
    mapItems transform items = items.map (·.map transform) := by
  induction items with
  | nil => rfl
  | cons item rest ih => rw [mapItems, ih, List.map_cons]

theorem map_list (transform : Decimal → Decimal) (items : List Value) :
    (Value.list items).map transform = .list (items.map (·.map transform)) := by
  rw [map, mapItems_eq_map]

theorem flattenItems_eq_flatMap (items : List Value) :
    flattenItems items = items.flatMap flatten := by
  induction items with
  | nil => rfl
  | cons item rest ih => rw [flattenItems, ih, List.flatMap_cons]

theorem mem_flatten_list {items : List Value} :
    number ∈ (Value.list items).flatten ↔ ∃ item ∈ items, number ∈ item.flatten := by
  rw [flatten, flattenItems_eq_flatMap, List.mem_flatMap]

theorem flatten_map (transform : Decimal → Decimal) (value : Value) :
    (value.map transform).flatten = value.flatten.map transform := by
  induction value with
  | number value => rfl
  | list items ih =>
      rw [map, flatten, flatten]
      induction items with
      | nil => rfl
      | cons item rest later =>
          obtain ⟨head, tail⟩ := List.forall_mem_cons.mp ih
          rw [mapItems, flattenItems, flattenItems, List.map_append, head, later tail]

theorem mem_flatten_map {transform : Decimal → Decimal} :
    number ∈ (value.map transform).flatten ↔ ∃ before ∈ value.flatten, transform before = number := by
  rw [flatten_map, List.mem_map]

theorem tryMap_ok_eq_map {ε : Type} (transform : Decimal → Decimal) (value : Value) :
    value.tryMap (fun number => (.ok (transform number) : Except ε Decimal)) =
      .ok (value.map transform) := by
  induction value with
  | number number => rfl
  | list items ih =>
      have mapped : tryMapItems (fun number => (.ok (transform number) : Except ε Decimal)) items =
          .ok (items.map (·.map transform)) := by
        induction items with
        | nil => rfl
        | cons item rest more =>
            obtain ⟨first, later⟩ := List.forall_mem_cons.mp ih
            rw [tryMapItems, first, more later]
            rfl
      rw [tryMap, mapped, map_list]
      rfl

theorem tryMap_unlessOverflow (allowed : Decimal → Prop) [DecidablePred allowed]
    (transform : Decimal → Decimal) (value : Value) :
    value.tryMap (fun number => unlessOverflow (allowed number) (transform number)) =
      unlessOverflow (∀ number ∈ value.flatten, allowed number) (value.map transform) := by
  induction value with
  | number number =>
      rw [tryMap, bind_pure_comp, map_unlessOverflow]
      exact unlessOverflow_congr (by simp [flatten]) fun _ => rfl
  | list items ih =>
      have mapped : tryMapItems (fun number => unlessOverflow (allowed number) (transform number))
          items = unlessOverflow (∀ number ∈ flattenItems items, allowed number)
            (mapItems transform items) := by
        induction items with
        | nil => rfl
        | cons item rest more =>
            obtain ⟨first, later⟩ := List.forall_mem_cons.mp ih
            rw [tryMapItems, first, more later]
            simp only [bind_pure_comp, map_unlessOverflow, unlessOverflow_bind]
            refine unlessOverflow_congr ?_ fun _ => rfl
            rw [flattenItems, List.forall_mem_append]
      rw [tryMap, mapped, bind_pure_comp, map_unlessOverflow]
      rfl

theorem map_id (value : Value) : value.map id = value := by
  induction value with
  | number number => rfl
  | list items ih => rw [map_list, List.map_congr_left ih, List.map_id']

theorem tryMap_ok {ε : Type} (value : Value) :
    value.tryMap (fun number => (.ok number : Except ε Decimal)) = .ok value :=
  (tryMap_ok_eq_map id value).trans (congrArg Except.ok value.map_id)

end Value
end DecimalCalculator
