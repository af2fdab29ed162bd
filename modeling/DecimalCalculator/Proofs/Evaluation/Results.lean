/-
Every value that the evaluation leaves is a result.

Resolvers of names that yield results make the walk yield results: literals are scalars,
lists take scalars in as numbers, and everything else is done number by number.  The
standard resolvers are of this kind.
-/

import DecimalCalculator.Evaluation.Standard
import DecimalCalculator.Proofs.Value.Results

namespace DecimalCalculator

/-- Whether the resolvers that have whole values as their answers answer with results. -/
structure Resolvers.YieldResults (resolvers : Resolvers) : Prop where
  constants : ∀ name context value, resolvers.constants name context = .ok (some value) →
    value.isResult = true
  listFunctions : ∀ name suffix operand functions context value,
    resolvers.listFunctions name suffix operand functions context = .ok (some value) →
      operand.isResult = true → value.isResult = true

/-! ### The standard resolvers -/

namespace Standard

variable {context : Context} {name : String} {value operand : Value}

theorem isResult_of_scalar {outcome : Outcome Decimal}
    (found : (do return some (.scalar (← outcome)) : Outcome (Option Value)) = .ok (some value)) :
    value.isResult = true := by
  obtain ⟨number, _, same⟩ := bind_eq_ok_iff.mp found
  cases same
  exact Value.isResult_scalar number

theorem isResult_constants (found : constants name context = .ok (some value)) :
    value.isResult = true := by
  unfold constants at found
  split at found
  case h_7 => cases found
  all_goals exact isResult_of_scalar found

theorem isResult_listFunctions {suffix : Option Decimal} {functions : FunctionResolver}
    (applied : listFunctions name suffix operand functions context = .ok (some value))
    (shaped : operand.isResult = true) : value.isResult = true := by
  unfold listFunctions at applied
  split at applied
  · exact isResult_of_scalar applied
  · exact isResult_of_scalar applied
  · exact isResult_of_scalar applied
  · exact isResult_of_scalar applied
  · obtain ⟨result, mapped, same⟩ := bind_eq_ok_iff.mp applied
    cases same
    exact Value.isResult_tryMap mapped shaped

end Standard

theorem Resolvers.standard_yieldResults : Resolvers.standard.YieldResults where
  constants _ _ _ found := Standard.isResult_constants found
  listFunctions _ _ _ _ _ _ applied shaped := Standard.isResult_listFunctions applied shaped

/-! ### The walk -/

namespace Evaluation

variable {resolvers : Resolvers} {context : Context} {value : Value}

theorem eq_ok_some_of_resolved {α : Type} {unknown : EvaluationError}
    {answer : Outcome (Option α)} {result : α} (found : resolved unknown answer = .ok result) :
    answer = .ok (some result) := by
  obtain ⟨known, answered, same⟩ := bind_eq_ok_iff.mp found
  cases known with
  | none => cases same
  | some known =>
      cases same
      exact answered

theorem isResult_literalValue {text : String} (read : literalValue text = .ok value) :
    value.isResult = true := by
  unfold literalValue at read
  split at read
  · cases read
    exact Value.isResult_scalar _
  · cases read

theorem isResult_broadcast {symbol : Char} {operation : Decimal → Decimal → Outcome Decimal}
    {left right : Value} (combined : broadcast symbol operation left right = .ok value)
    (leftShaped : left.isResult = true) (rightShaped : right.isResult = true) :
    value.isResult = true := by
  unfold broadcast at combined
  split at combined
  · exact Value.isResult_tryMap combined rightShaped
  · exact Value.isResult_tryMap combined leftShaped
  · cases combined

theorem isResult_applyFunction (yield : resolvers.YieldResults) {name : String}
    {suffix : Option Decimal} {operand : Option Value}
    (applied : applyFunction resolvers context name suffix operand = .ok value)
    (shaped : ∀ argument ∈ operand, argument.isResult = true) : value.isResult = true := by
  cases operand with
  | none =>
      obtain ⟨number, _, same⟩ := bind_eq_ok_iff.mp applied
      cases same
      exact Value.isResult_scalar number
  | some argument =>
      simp only [applyFunction] at applied
      split at applied
      · obtain ⟨number, _, same⟩ := bind_eq_ok_iff.mp applied
        cases same
        exact Value.isResult_scalar number
      · exact yield.listFunctions _ _ _ _ _ _ (eq_ok_some_of_resolved applied)
          (shaped argument rfl)

theorem forall_mem_walkOptional {optional : Option Expression} {found : Option Value}
    {property : Value → Prop} (walked : walkOptional resolvers context optional = .ok found)
    (every : ∀ tree ∈ optional, ∀ value, walk resolvers context tree = .ok value →
      property value) : ∀ value ∈ found, property value := by
  cases optional with
  | none =>
      cases walked
      exact fun value absent => nomatch absent
  | some tree =>
      obtain ⟨value, walkedTree, same⟩ := bind_eq_ok_iff.mp walked
      cases same
      intro other member
      cases member
      exact every tree rfl value walkedTree

theorem areItems_walkItems {items : List Expression} {values : List Value}
    (walked : walkItems resolvers context items = .ok values)
    (every : ∀ item ∈ items, ∀ value, walk resolvers context item = .ok value →
      value.isResult = true) : Value.areItems values = true := by
  induction items generalizing values with
  | nil =>
      cases walked
      rfl
  | cons item rest ih =>
      rw [List.forall_mem_cons] at every
      obtain ⟨first, walkedFirst, more⟩ := bind_eq_ok_iff.mp walked
      obtain ⟨others, walkedRest, same⟩ := bind_eq_ok_iff.mp more
      cases same
      rw [Value.areItems, Value.isItem_asItem (every.1 first walkedFirst), ih walkedRest every.2]
      rfl

theorem isResult_walk (yield : resolvers.YieldResults) (tree : Expression) :
    ∀ value, walk resolvers context tree = .ok value → value.isResult = true := by
  induction tree with
  | number text =>
      intro value walked
      exact isResult_literalValue walked
  | constant name =>
      intro value walked
      exact yield.constants name context value (eq_ok_some_of_resolved walked)
  | negative operand ih =>
      intro value walked
      obtain ⟨inner, walkedInner, mapped⟩ := bind_eq_ok_iff.mp walked
      exact Value.isResult_tryMap mapped (ih inner walkedInner)
  | brackets kind content ih =>
      intro value walked
      obtain ⟨inner, walkedInner, mapped⟩ := bind_eq_ok_iff.mp walked
      exact Value.isResult_tryMap mapped (ih inner walkedInner)
  | suffix symbol count operand ih =>
      intro value walked
      obtain ⟨found, walkedOperand, mapped⟩ := bind_eq_ok_iff.mp walked
      have shaped := forall_mem_walkOptional walkedOperand ih
      cases found with
      | none => cases mapped
      | some inner => exact Value.isResult_tryMap mapped (shaped inner rfl)
  | function name nameSuffix operand _ applied =>
      intro value walked
      obtain ⟨argument, walkedOperand, more⟩ := bind_eq_ok_iff.mp walked
      obtain ⟨suffixValue, _, rest⟩ := bind_eq_ok_iff.mp more
      obtain ⟨number, _, called⟩ := bind_eq_ok_iff.mp rest
      exact isResult_applyFunction yield called (forall_mem_walkOptional walkedOperand applied)
  | operator symbol left right first second =>
      intro value walked
      obtain ⟨leftValue, walkedLeft, more⟩ := bind_eq_ok_iff.mp walked
      obtain ⟨rightValue, walkedRight, combined⟩ := bind_eq_ok_iff.mp more
      exact isResult_broadcast combined (first leftValue walkedLeft)
        (second rightValue walkedRight)
  | list items ih =>
      intro value walked
      obtain ⟨values, walkedItems, same⟩ := bind_eq_ok_iff.mp walked
      cases same
      exact areItems_walkItems walkedItems ih

/-- The value of any tree under the standard resolvers is a list, and inside it no list
holds a number alone. -/
theorem evaluate_isResult (context : Context) (tree : Expression) {value : Value}
    (evaluated : evaluate .standard context tree = .ok value) : value.isResult = true := by
  obtain ⟨walked, walkedTree, mapped⟩ := bind_eq_ok_iff.mp evaluated
  exact Value.isResult_tryMap mapped
    (isResult_walk Resolvers.standard_yieldResults tree walked walkedTree)

theorem evaluate_isResult_nested_lists :
    evaluate .standard {} (.list [.list [.list [.number "1.50"]], .list []]) =
        .ok (.list [.number ⟨15, 1⟩, .list []]) ∧
      (Value.list [.number ⟨15, 1⟩, .list []]).isResult = true := by
  have evaluated : evaluate .standard {} (.list [.list [.list [.number "1.50"]], .list []]) =
      .ok (.list [.number ⟨15, 1⟩, .list []]) := by cbv
  exact ⟨evaluated, evaluate_isResult {} _ evaluated⟩

end Evaluation
end DecimalCalculator
