/-
An evaluation fails exactly as the first of its subtrees that fails.

A node fails as its first operand that fails, and adds a fault of its own only if all of
them have values.  So no subtree that fails is passed over, whatever the resolvers are.
Only the final pass is run once, over the whole value.
-/

import Mathlib
import DecimalCalculator.Evaluation.Order
import DecimalCalculator.Evaluation.Standard
import DecimalCalculator.Proofs.Value.Final

namespace DecimalCalculator

section Lists

variable {α β ε : Type} {step : α → Except ε β}

theorem firstFault?_singleton (item : α) : firstFault? step [item] = fault? (step item) := by
  rw [firstFault?_cons]
  exact Option.or_none

theorem firstFault?_append (before after : List α) :
    firstFault? step (before ++ after) = (firstFault? step before).or (firstFault? step after) :=
  List.findSome?_append

theorem firstFault?_congr {other : α → Except ε β} {items : List α}
    (same : ∀ item ∈ items, fault? (step item) = fault? (other item)) :
    firstFault? step items = firstFault? other items := by
  induction items with
  | nil => rfl
  | cons item rest ih =>
      obtain ⟨first, later⟩ := List.forall_mem_cons.mp same
      rw [firstFault?_cons, firstFault?_cons, first, ih later]

theorem firstFault?_flatMap {expand : α → List α} {items : List α}
    (same : ∀ item ∈ items, firstFault? step (expand item) = fault? (step item)) :
    firstFault? step (items.flatMap expand) = firstFault? step items := by
  induction items with
  | nil => rfl
  | cons item rest ih =>
      obtain ⟨first, later⟩ := List.forall_mem_cons.mp same
      rw [List.flatMap_cons, firstFault?_append, firstFault?_cons, first, ih later]

end Lists

namespace Evaluation

variable {resolvers : Resolvers} {context : Context} {error : EvaluationError}

/-! ### One node -/

theorem walkItems_of_fault {items : List Expression}
    (failed : firstFault? (walk resolvers context) items = some error) :
    walkItems resolvers context items = .error error := by
  induction items with
  | nil => cases failed
  | cons item rest ih =>
      rw [firstFault?_cons] at failed
      rw [walkItems]
      cases walked : walk resolvers context item with
      | error fault =>
          rw [walked] at failed
          exact congrArg Except.error (Option.some.inj failed)
      | ok value =>
          rw [walked] at failed
          change (walkItems resolvers context rest >>= _) = _
          rw [ih failed]
          rfl

theorem walkOptional_of_fault {optional : Option Expression}
    (failed : firstFault? (walk resolvers context) optional.toList = some error) :
    walkOptional resolvers context optional = .error error := by
  cases optional with
  | none => cases failed
  | some expression =>
      rw [Option.toList_some, firstFault?_singleton] at failed
      exact fault?_bind_of_fault failed

theorem walkOptional_of_no_fault {optional : Option Expression}
    (passed : firstFault? (walk resolvers context) optional.toList = none) :
    ∃ found, walkOptional resolvers context optional = .ok found := by
  cases optional with
  | none => exact ⟨none, rfl⟩
  | some expression =>
      rw [Option.toList_some, firstFault?_singleton] at passed
      obtain ⟨value, walked⟩ := fault?_eq_none_iff.mp passed
      exact ⟨some value, by rw [walkOptional, walked]; rfl⟩

theorem walk_of_fault {tree : Expression}
    (failed : firstFault? (walk resolvers context) tree.operands = some error) :
    walk resolvers context tree = .error error := by
  cases tree with
  | number text => cases failed
  | constant name => cases failed
  | negative operand =>
      rw [Expression.operands, firstFault?_singleton] at failed
      rw [walk]
      exact fault?_bind_of_fault failed
  | brackets kind content =>
      rw [Expression.operands, firstFault?_singleton] at failed
      rw [walk]
      exact fault?_bind_of_fault failed
  | operator symbol left right =>
      rw [Expression.operands, firstFault?_cons, firstFault?_singleton, Option.or_eq_some_iff] at failed
      rw [walk]
      rcases failed with first | ⟨passed, second⟩
      · exact fault?_bind_of_fault first
      · obtain ⟨value, walked⟩ := fault?_eq_none_iff.mp passed
        rw [walked]
        change (walk resolvers context right >>= _) = _
        exact fault?_bind_of_fault second
  | suffix symbol count operand =>
      rw [walk, walkOptional_of_fault failed]
      rfl
  | function name nameSuffix operand =>
      rw [Expression.operands, firstFault?_append, Option.or_eq_some_iff] at failed
      rw [walk]
      rcases failed with first | ⟨passed, second⟩
      · rw [walkOptional_of_fault first]
        rfl
      · obtain ⟨found, walked⟩ := walkOptional_of_no_fault passed
        rw [walked, walkOptional_of_fault second]
        rfl
  | list items =>
      rw [Expression.operands] at failed
      rw [walk, walkItems_of_fault failed]
      rfl

/-! ### Whole trees -/

theorem fault?_walk (tree : Expression) :
    fault? (walk resolvers context tree) =
      firstFault? (walk resolvers context) tree.evaluationOrder := by
  induction tree using Expression.induction_operands with
  | step tree ih =>
      have under := firstFault?_flatMap fun operand member => (ih operand member).symm
      rw [Expression.evaluationOrder_eq, firstFault?_append, under, firstFault?_singleton]
      cases failed : firstFault? (walk resolvers context) tree.operands with
      | none => rfl
      | some error =>
          rw [walk_of_fault failed]
          rfl

theorem evaluate_eq_error_iff (tree : Expression) :
    evaluate resolvers context tree = .error error ↔
      walk resolvers context tree = .error error ∨
        error = .overflow ∧ ∃ value, walk resolvers context tree = .ok value ∧
          ∃ number ∈ value.flatten, ¬number.Reaches 0 := by
  rw [evaluate_eq]
  cases walk resolvers context tree with
  | error fault =>
      constructor
      · exact Or.inl
      · rintro (failed | ⟨-, value, impossible, -⟩)
        · exact failed
        · cases impossible
  | ok value =>
      change unlessOverflow _ _ = _ ↔ _
      rw [unlessOverflow_eq_error_iff]
      push Not
      constructor
      · rintro ⟨far, same⟩
        exact Or.inr ⟨same, value, rfl, far⟩
      · rintro (impossible | ⟨same, other, known, far⟩)
        · cases impossible
        · cases known
          exact ⟨far, same⟩

/-- The numbers of all values that the walk computes can be brought to the scale 0. -/
def StaysInReach (resolvers : Resolvers) (context : Context) (tree : Expression) : Prop :=
  ∀ subtree, subtree.Occurs tree → ∀ value, walk resolvers context subtree = .ok value →
    ∀ number ∈ value.flatten, number.Reaches 0

theorem fault?_evaluate {tree subtree : Expression} (stays : StaysInReach resolvers context tree)
    (occurs : subtree.Occurs tree) :
    fault? (evaluate resolvers context subtree) = fault? (walk resolvers context subtree) := by
  ext error
  rw [fault?_eq_some_iff, fault?_eq_some_iff, evaluate_eq_error_iff]
  refine or_iff_left ?_
  rintro ⟨-, value, walked, number, member, far⟩
  exact far (stays subtree occurs value walked number member)

theorem fault?_evaluate_eq_firstFault? {tree : Expression}
    (stays : StaysInReach resolvers context tree) :
    fault? (evaluate resolvers context tree) =
      firstFault? (evaluate resolvers context) tree.evaluationOrder := by
  rw [fault?_evaluate stays .here, fault?_walk]
  exact firstFault?_congr fun subtree member =>
    (fault?_evaluate stays (Expression.mem_evaluationOrder_iff.mp member)).symm

/-- The walk fails exactly if one of the subtrees does on its own, and then with the error of
the first one, each subtree coming after those under it.  The final pass adds no failure but
that of a number at the scale `-2 ^ 63`, and without such numbers an evaluation fails exactly
if one of the subtrees does. -/
theorem evaluate_first_fault (resolvers : Resolvers) (context : Context) (tree : Expression) :
    (∀ error, walk resolvers context tree = .error error ↔
      ∃ before first after, tree.evaluationOrder = before ++ first :: after ∧
        (∀ earlier ∈ before, ∃ value, walk resolvers context earlier = .ok value) ∧
        walk resolvers context first = .error error) ∧
      (∀ error, evaluate resolvers context tree = .error error ↔
        walk resolvers context tree = .error error ∨
          error = .overflow ∧ ∃ value, walk resolvers context tree = .ok value ∧
            ∃ number ∈ value.flatten, ¬number.Reaches 0) ∧
      (StaysInReach resolvers context tree →
        (∀ error, evaluate resolvers context tree = .error error ↔
          ∃ before first after, tree.evaluationOrder = before ++ first :: after ∧
            (∀ earlier ∈ before, ∃ value, evaluate resolvers context earlier = .ok value) ∧
            evaluate resolvers context first = .error error) ∧
        ((∃ value, evaluate resolvers context tree = .ok value) ↔
          ∀ subtree, subtree.Occurs tree →
            ∃ value, evaluate resolvers context subtree = .ok value)) ∧
      ∀ subtree, subtree ∈ tree.evaluationOrder ↔ subtree.Occurs tree := by
  refine ⟨fun error => ?_, fun error => evaluate_eq_error_iff tree, fun stays => ⟨fun error => ?_, ?_⟩,
    fun subtree => Expression.mem_evaluationOrder_iff⟩
  · rw [← fault?_eq_some_iff, fault?_walk]
    exact firstFault?_eq_some_iff
  · rw [← fault?_eq_some_iff, fault?_evaluate_eq_firstFault? stays]
    exact firstFault?_eq_some_iff
  · rw [← fault?_eq_none_iff, fault?_evaluate_eq_firstFault? stays, firstFault?_eq_none_iff]
    simp only [Expression.mem_evaluationOrder_iff]

theorem evaluate_first_fault_suffix :
    let tree : Expression := .function "log" (some (.operator '/' (.number "1") (.number "0")))
      (some (.number "2"))
    StaysInReach .standard {} tree ∧
      evaluate .standard {} tree = .error .divisionByZero := by
  intro tree
  have stays : StaysInReach .standard {} tree := by
    intro subtree occurs value walked number member
    have listed : subtree ∈ [.number "2", .number "1", .number "0",
        .operator '/' (.number "1") (.number "0"), tree] :=
      Expression.mem_evaluationOrder_iff.mpr occurs
    simp only [List.mem_cons, List.not_mem_nil, or_false] at listed
    rcases listed with rfl | rfl | rfl | rfl | rfl
    · cases walked
      cases List.mem_singleton.mp member
      decide
    · cases walked
      cases List.mem_singleton.mp member
      decide
    · cases walked
      cases List.mem_singleton.mp member
      decide
    · cases walked
    · cases walked
  refine ⟨stays, (((evaluate_first_fault .standard {} tree).2.2.1 stays).1 _).mpr ?_⟩
  refine ⟨[.number "2", .number "1", .number "0"], .operator '/' (.number "1") (.number "0"),
    [tree], rfl, ?_, by cbv⟩
  simp only [List.forall_mem_cons, List.not_mem_nil, false_implies, implies_true, and_true]
  exact ⟨⟨_, rfl⟩, ⟨_, rfl⟩, ⟨_, rfl⟩⟩

/-- Zero times a number at the scale `-2 ^ 63` has a value, but this number has none. -/
theorem evaluate_zero_times_unreached :
    let factor : Expression := .operator '^' (.number "1e1") (.number "9223372036854775808")
    let tree : Expression := .operator '*' (.number "0") factor
    factor.Occurs tree ∧ evaluate .standard {} tree = .ok (.scalar 0) ∧
      evaluate .standard {} factor = .error .overflow := by
  intro factor tree
  have member : factor ∈ tree.children := List.mem_cons_of_mem _ List.mem_cons_self
  exact ⟨.under member .here, by cbv, by cbv⟩

end Evaluation
end DecimalCalculator
