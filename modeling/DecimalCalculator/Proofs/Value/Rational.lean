/-
Values over the rational numbers.

A value stands for the same nesting of the rational numbers that its numbers stand
for.  Operations on numbers carry over to operations on rational numbers wherever
they do so number by number, and the shape of a value is what is left when the
numbers are forgotten.
-/

import Mathlib
import DecimalCalculator.Evaluation.Walk
import DecimalCalculator.Proofs.Decimal.Rational
import DecimalCalculator.Proofs.Value.Traversal

namespace DecimalCalculator

inductive RationalValue where
  | number (value : ℚ)
  | list (items : List RationalValue)

namespace RationalValue

@[elab_as_elim, induction_eliminator]
theorem induction {motive : RationalValue → Prop} (number : ∀ value, motive (.number value))
    (list : ∀ items, (∀ item ∈ items, motive item) → motive (.list items))
    (value : RationalValue) : motive value :=
  @RationalValue.rec motive (fun items => ∀ item ∈ items, motive item) number list
    (fun _ absent => nomatch absent)
    (fun _ _ first rest => List.forall_mem_cons.mpr ⟨first, rest⟩)
    value

def scalar (value : ℚ) : RationalValue :=
  .list [.number value]

def scalar? : RationalValue → Option ℚ
  | .list [.number value] => some value
  | _ => none

/-- The item that a value becomes inside a list: a scalar is its number. -/
def asItem (value : RationalValue) : RationalValue :=
  match value.scalar? with
  | some single => .number single
  | none => value

mutual

def map (transform : ℚ → ℚ) : RationalValue → RationalValue
  | .number value => .number (transform value)
  | .list items => .list (mapItems transform items)

def mapItems (transform : ℚ → ℚ) : List RationalValue → List RationalValue
  | [] => []
  | item :: rest => item.map transform :: mapItems transform rest

end

/-- Applies an operation to two values, at least one of which is a scalar. -/
def broadcast (operation : ℚ → ℚ → ℚ) (left right : RationalValue) : Option RationalValue :=
  match left.scalar?, right.scalar? with
  | some scalar, _ => some (right.map fun number => operation scalar number)
  | none, some scalar => some (left.map fun number => operation number scalar)
  | none, none => none

def shape (value : RationalValue) : RationalValue :=
  value.map fun _ => 0

theorem mapItems_eq_map (transform : ℚ → ℚ) (items : List RationalValue) :
    mapItems transform items = items.map (·.map transform) := by
  induction items with
  | nil => rfl
  | cons item rest ih => rw [mapItems, ih, List.map_cons]

theorem map_list (transform : ℚ → ℚ) (items : List RationalValue) :
    (RationalValue.list items).map transform = .list (items.map (·.map transform)) := by
  rw [map, mapItems_eq_map]

theorem map_map (first second : ℚ → ℚ) (value : RationalValue) :
    (value.map first).map second = value.map (second ∘ first) := by
  induction value with
  | number value => rfl
  | list items ih =>
      rw [map_list, map_list, map_list, List.map_map]
      congr 1
      exact List.map_congr_left ih

theorem map_id (value : RationalValue) : value.map id = value := by
  induction value with
  | number value => rfl
  | list items ih => rw [map_list, List.map_congr_left ih, List.map_id']

theorem shape_map (transform : ℚ → ℚ) (value : RationalValue) :
    (value.map transform).shape = value.shape :=
  map_map transform _ value

theorem scalar?_map (transform : ℚ → ℚ) (value : RationalValue) :
    (value.map transform).scalar? = value.scalar?.map transform := by
  cases value with
  | number value => rfl
  | list items =>
      match items with
      | [] => rfl
      | [.number value] => rfl
      | [.list items] => rfl
      | .number _ :: _ :: _ => rfl
      | .list _ :: _ :: _ => rfl

theorem asItem_map (transform : ℚ → ℚ) (value : RationalValue) :
    (value.map transform).asItem = value.asItem.map transform := by
  rw [asItem, asItem, scalar?_map]
  cases value.scalar? with
  | none => rfl
  | some number => rfl

theorem shape_list (items : List RationalValue) :
    (RationalValue.list items).shape = .list (items.map shape) :=
  map_list _ items

theorem asItem_shape (value : RationalValue) : value.shape.asItem = value.asItem.shape :=
  asItem_map _ value

end RationalValue

namespace Value

mutual

/-- The rational numbers that the numbers of a value stand for. -/
def toRational : Value → RationalValue
  | .number value => .number value.value
  | .list items => .list (itemsToRational items)

def itemsToRational : List Value → List RationalValue
  | [] => []
  | item :: rest => item.toRational :: itemsToRational rest

end

theorem itemsToRational_eq_map (items : List Value) :
    itemsToRational items = items.map toRational := by
  induction items with
  | nil => rfl
  | cons item rest ih => rw [itemsToRational, ih, List.map_cons]

theorem toRational_list (items : List Value) :
    (Value.list items).toRational = .list (items.map toRational) := by
  rw [toRational, itemsToRational_eq_map]

theorem scalar?_toRational (value : Value) :
    value.toRational.scalar? = value.scalar?.map Decimal.value := by
  cases value with
  | number value => rfl
  | list items =>
      match items with
      | [] => rfl
      | [.number value] => rfl
      | [.list items] => rfl
      | .number _ :: _ :: _ => rfl
      | .list _ :: _ :: _ => rfl

theorem toRational_asItem (value : Value) :
    (Evaluation.asItem value).toRational = value.toRational.asItem := by
  rw [Evaluation.asItem, RationalValue.asItem, scalar?_toRational]
  cases value.scalar? with
  | none => rfl
  | some number => rfl

theorem map_toRational_map {transform : Decimal → Decimal} {view exact : ℚ → ℚ} {value : Value}
    (carries : ∀ number ∈ value.flatten, view (transform number).value = exact number.value) :
    (value.map transform).toRational.map view = value.toRational.map exact := by
  induction value with
  | number number => exact congrArg RationalValue.number (carries number List.mem_cons_self)
  | list items ih =>
      rw [map_list, toRational_list, toRational_list, RationalValue.map_list,
        RationalValue.map_list, List.map_map, List.map_map, List.map_map]
      congr 1
      refine List.map_congr_left fun item member => ih item member fun number inside => ?_
      exact carries number (mem_flatten_list.mpr ⟨item, member, inside⟩)

theorem toRational_map {transform : Decimal → Decimal} {exact : ℚ → ℚ} {value : Value}
    (carries : ∀ number ∈ value.flatten, (transform number).value = exact number.value) :
    (value.map transform).toRational = value.toRational.map exact := by
  have viewed : (value.map transform).toRational.map id = value.toRational.map exact :=
    map_toRational_map carries
  rwa [RationalValue.map_id] at viewed

theorem shape_toRational_map (transform : Decimal → Decimal) (value : Value) :
    (value.map transform).toRational.shape = value.toRational.shape :=
  map_toRational_map fun _ _ => rfl

end Value
end DecimalCalculator
