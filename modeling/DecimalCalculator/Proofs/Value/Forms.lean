/-
Values that differ only in the forms of their numbers.

They have one shape, so a traversal meets their numbers in pairs; traversals that
concur on every pair they meet concur as a whole.
-/

import Mathlib
import DecimalCalculator.Proofs.Decimal.Forms
import DecimalCalculator.Proofs.Value.Rational

namespace DecimalCalculator
namespace Value

variable {value other : Value} {items others : List Value}

/-- Two values with one shape whose numbers are pairwise equal. -/
def EqualValues (value other : Value) : Prop :=
  value.toRational = other.toRational

theorem equalValues_number_iff {number : Decimal} :
    EqualValues (.number number) other ↔
      ∃ form : Decimal, other = .number form ∧ number.value = form.value := by
  cases other with
  | number form => simp [EqualValues, toRational]
  | list others => simp [EqualValues, toRational]

theorem equalValues_list_iff :
    EqualValues (.list items) other ↔
      ∃ others, other = .list others ∧ List.Forall₂ EqualValues items others := by
  cases other with
  | number form => simp [EqualValues, toRational]
  | list others =>
      have pairs : items.map toRational = others.map toRational ↔
          List.Forall₂ EqualValues items others := by
        rw [← List.forall₂_eq_eq_eq, List.forall₂_map_left_iff, List.forall₂_map_right_iff]
        rfl
      simp [EqualValues, toRational_list, pairs]

/-! ### Scalars and items -/

theorem EqualValues.scalar? (same : EqualValues value other) :
    Option.Rel Decimal.EqualValues value.scalar? other.scalar? := by
  have scalars := congrArg RationalValue.scalar? same
  rw [scalar?_toRational, scalar?_toRational] at scalars
  cases first : value.scalar? with
  | none =>
      cases second : other.scalar? with
      | none => exact .none
      | some form =>
          rw [first, second] at scalars
          cases scalars
  | some number =>
      cases second : other.scalar? with
      | none =>
          rw [first, second] at scalars
          cases scalars
      | some form =>
          rw [first, second] at scalars
          exact .some (Option.some.inj scalars)

theorem EqualValues.asItem (same : EqualValues value other) :
    EqualValues (Evaluation.asItem value) (Evaluation.asItem other) := by
  rw [EqualValues, toRational_asItem, toRational_asItem, same]

theorem equalValues_scalar {number form : Decimal} (same : number.value = form.value) :
    EqualValues (scalar number) (scalar form) := by
  rw [EqualValues, scalar, scalar, toRational_list, toRational_list, List.map_singleton,
    List.map_singleton, toRational, toRational, same]

theorem EqualValues.flatten (same : EqualValues value other) :
    List.Forall₂ Decimal.EqualValues value.flatten other.flatten := by
  induction value generalizing other with
  | number number =>
      obtain ⟨form, rfl, equal⟩ := equalValues_number_iff.mp same
      exact .cons equal .nil
  | list items ih =>
      obtain ⟨others, rfl, pairs⟩ := equalValues_list_iff.mp same
      rw [Value.flatten, Value.flatten]
      clear same
      induction pairs with
      | nil => exact .nil
      | cons first _ later =>
          obtain ⟨head, tail⟩ := List.forall_mem_cons.mp ih
          rw [flattenItems, flattenItems]
          exact List.rel_append (head first) (later tail)

/-! ### Traversal -/

mutual

/-- A condition on the numbers that a traversal reaches: those up to the first failure. -/
def Traverses (transform : Decimal → Outcome Decimal) (fits : Decimal → Prop) : Value → Prop
  | .number value => fits value
  | .list items => TraversesItems transform fits items

def TraversesItems (transform : Decimal → Outcome Decimal) (fits : Decimal → Prop) :
    List Value → Prop
  | [] => True
  | item :: rest =>
      item.Traverses transform fits ∧
        ∀ result, item.tryMap transform = .ok result → TraversesItems transform fits rest

end

theorem tryMap_concur {transform transform' : Decimal → Outcome Decimal}
    {fits fits' : Decimal → Prop}
    (step : ∀ number form : Decimal, number.value = form.value → fits number → fits' form →
      Concur Decimal.EqualValues (transform number) (transform' form))
    (same : EqualValues value other) (left : value.Traverses transform fits)
    (right : other.Traverses transform' fits') :
    Concur EqualValues (value.tryMap transform) (other.tryMap transform') := by
  induction value generalizing other with
  | number number =>
      obtain ⟨form, rfl, equal⟩ := equalValues_number_iff.mp same
      refine (step number form equal left right).bind fun result image values _ _ => .ok ?_
      exact congrArg RationalValue.number values
  | list items ih =>
      obtain ⟨others, rfl, pairs⟩ := equalValues_list_iff.mp same
      have mapped : Concur (List.Forall₂ EqualValues) (tryMapItems transform items)
          (tryMapItems transform' others) := by
        clear same
        induction pairs with
        | nil => exact .ok .nil
        | cons first _ later =>
            obtain ⟨head, tail⟩ := List.forall_mem_cons.mp ih
            refine (head first left.1 right.1).bind fun result image equal found found' => ?_
            refine (later tail (left.2 result found) (right.2 image found')).bind
              fun results images rest _ _ => ?_
            exact .ok (.cons equal rest)
      exact mapped.bind fun results images rest _ _ =>
        .ok (equalValues_list_iff.mpr ⟨images, rfl, rest⟩)

theorem map_eq_map {transform : Decimal → Decimal} (same : EqualValues value other)
    (unites : ∀ number ∈ value.flatten, ∀ form ∈ other.flatten, number.value = form.value →
      transform number = transform form) :
    value.map transform = other.map transform := by
  induction value generalizing other with
  | number number =>
      obtain ⟨form, rfl, equal⟩ := equalValues_number_iff.mp same
      exact congrArg Value.number
        (unites number List.mem_cons_self form List.mem_cons_self equal)
  | list items ih =>
      obtain ⟨others, rfl, pairs⟩ := equalValues_list_iff.mp same
      rw [map_list, map_list]
      congr 1
      clear same
      induction pairs with
      | nil => rfl
      | cons first _ later =>
          obtain ⟨head, tail⟩ := List.forall_mem_cons.mp ih
          rw [List.map_cons, List.map_cons]
          refine congrArg₂ List.cons (head first ?_) (later tail ?_)
          · intro number member form member'
            exact unites number (mem_flatten_list.mpr ⟨_, List.mem_cons_self, member⟩) form
              (mem_flatten_list.mpr ⟨_, List.mem_cons_self, member'⟩)
          · intro number member form member'
            obtain ⟨item, among, inside⟩ := mem_flatten_list.mp member
            obtain ⟨image, among', inside'⟩ := mem_flatten_list.mp member'
            exact unites number (mem_flatten_list.mpr ⟨item, List.mem_cons_of_mem _ among, inside⟩)
              form (mem_flatten_list.mpr ⟨image, List.mem_cons_of_mem _ among', inside'⟩)

end Value
end DecimalCalculator
