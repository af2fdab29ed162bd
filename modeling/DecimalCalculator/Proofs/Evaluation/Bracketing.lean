/-
Round brackets around one operand change no value.

Round brackets keep every number, and an operator looks at its right operand only to
see whether it is a percentage.  Brackets around anything else change neither the
value of a tree nor the error that its evaluation ends with.
-/

import DecimalCalculator.Calculator
import DecimalCalculator.Proofs.Expression.Bracketing
import DecimalCalculator.Proofs.Value.Traversal

namespace DecimalCalculator

variable {tree other : Expression}

open Expression (BracketsOperand)

namespace Expression

theorem DiffersInNode.isSuffix_eq (differs : tree.DiffersInNode BracketsOperand other)
    (symbol : Char) : other.isSuffix symbol = tree.isSuffix symbol := by
  cases differs with
  | here replaced => cases replaced <;> rfl
  | _ => rfl

end Expression

namespace Evaluation

variable {context : Context}

theorem walk_round_brackets (tree : Expression) :
    walk .standard context (.brackets roundBrackets tree) = walk .standard context tree := by
  rw [walk]
  cases walk .standard context tree with
  | error error => rfl
  | ok value => exact Value.tryMap_ok value

theorem walk_operator_congr {resolvers : Resolvers} (symbol : Char)
    {left newLeft right newRight : Expression}
    (first : walk resolvers context newLeft = walk resolvers context left)
    (second : walk resolvers context newRight = walk resolvers context right)
    (percent : newRight.isSuffix percentSign = right.isSuffix percentSign) :
    walk resolvers context (.operator symbol newLeft newRight) =
      walk resolvers context (.operator symbol left right) := by
  have same : operation resolvers context symbol newRight =
      operation resolvers context symbol right := by
    funext base number
    rw [operation, operation, percent]
  rw [walk, walk, first, second, same]

theorem walk_of_bracketsOperand (replaced : BracketsOperand tree other) :
    walk .standard context other = walk .standard context tree := by
  cases replaced with
  | left symbol left right => exact walk_operator_congr symbol (walk_round_brackets left) rfl rfl
  | right symbol left whole =>
      exact walk_operator_congr symbol rfl (walk_round_brackets _) whole.symm
  | negative operand =>
      have same : walk .standard context (.brackets roundBrackets operand) =
          walk .standard context operand := walk_round_brackets operand
      rw [walk, same, walk]

theorem walkItems_congr {resolvers : Resolvers} {item replacement : Expression}
    (before after : List Expression)
    (same : walk resolvers context replacement = walk resolvers context item) :
    walkItems resolvers context (before ++ replacement :: after) =
      walkItems resolvers context (before ++ item :: after) := by
  induction before with
  | nil => rw [List.nil_append, List.nil_append, walkItems, walkItems, same]
  | cons first rest ih => rw [List.cons_append, List.cons_append, walkItems, walkItems, ih]

theorem walk_of_differs (differs : tree.DiffersInNode BracketsOperand other) :
    walk .standard context other = walk .standard context tree := by
  induction differs with
  | here replaced => exact walk_of_bracketsOperand replaced
  | left symbol right inside ih => exact walk_operator_congr symbol ih rfl rfl
  | right symbol left inside ih =>
      exact walk_operator_congr symbol rfl ih (inside.isSuffix_eq percentSign)
  | negative inside ih => rw [walk, walk, ih]
  | brackets kind inside ih => rw [walk, walk, ih]
  | suffix symbol count inside ih => rw [walk, walk, walkOptional, walkOptional, ih]
  | functionSuffix name operand inside ih =>
      rw [walk, walk, walkOptional, walkOptional, ih]
  | functionOperand name nameSuffix inside ih =>
      rw [walk, walk, walkOptional, walkOptional, ih]
  | item before after inside whole result ih =>
      rw [walk, walk, whole, result, walkItems_congr before after ih]

end Evaluation

namespace Calculator

/-- Brackets that make the precedence of operators explicit change nothing: the tree with
round brackets around one operand is what its text is built to, and it has the same value
or fails with the same error. -/
theorem calculate_brackets_operand (context : Context) {text : String}
    (built : ({ context := context } : Calculator).build text = .ok tree)
    (differs : tree.DiffersInNode BracketsOperand other) :
    ({ context := context } : Calculator).build (other.render .standard) = .ok other ∧
      ({ context := context } : Calculator).evaluate other =
        ({ context := context } : Calculator).calculate text := by
  have usable : SymbolTables.standard.Unambiguous :=
    SymbolTables.standard.validate_eq_ok_iff.mp rfl
  have round : ⟨'(', ')', roundBrackets⟩ ∈ SymbolTables.standard.brackets :=
    List.mem_cons_self
  constructor
  · have known : Expression.build .standard text = .ok tree := mapError_eq_ok_iff.mp built
    exact mapError_eq_ok_iff.mpr
      (Expression.build_render_of_differs usable round known differs)
  · have same : Evaluation.walk .standard context other = Evaluation.walk .standard context tree :=
      Evaluation.walk_of_differs differs
    rw [calculate, built, evaluate, Evaluation.evaluate, same]
    rfl

set_option maxRecDepth 4000 in
theorem calculate_brackets_operand_percentage :
    let percentage : Expression := .suffix '%' 1 (some (.number "50"))
    let difference : Expression := .operator '-' (.number "7") (.number "2")
    let whole (base : Expression) : Expression :=
      .list [.function "abs" none (some (.brackets 1 (.operator '-' base percentage))),
        .number "1"]
    ({} : Calculator).build "abs(7-2-50%);1" = .ok (whole difference) ∧
      (whole difference).DiffersInNode BracketsOperand (whole (.brackets 1 difference)) ∧
      ((whole (.brackets 1 difference)).render .standard = "abs((7-2)-50%);1") ∧
      ({} : Calculator).build ((whole (.brackets 1 difference)).render .standard) =
        .ok (whole (.brackets 1 difference)) ∧
      ({} : Calculator).evaluate (whole (.brackets 1 difference)) =
        ({} : Calculator).calculate "abs(7-2-50%);1" := by
  intro percentage difference whole
  have built : ({} : Calculator).build "abs(7-2-50%);1" = .ok (whole difference) := by cbv
  have differs : (whole difference).DiffersInNode BracketsOperand
      (whole (.brackets 1 difference)) :=
    .item [] [.number "1"]
      (.functionOperand "abs" none (.brackets 1 (.here (.left '-' difference percentage))))
      rfl rfl
  exact ⟨built, differs, by decide, calculate_brackets_operand {} built differs⟩

end Calculator
end DecimalCalculator
