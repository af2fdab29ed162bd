/-
The nodes of an expression tree, and the operators that a tree shows outside
brackets.
-/

import DecimalCalculator.Expression.SymbolTables
import DecimalCalculator.Expression.Tree

namespace DecimalCalculator
namespace Expression

/-! ### Nodes -/

def children : Expression → List Expression
  | .number _ => []
  | .operator _ left right => [left, right]
  | .negative operand => [operand]
  | .brackets _ content => [content]
  | .suffix _ _ operand => operand.toList
  | .function _ nameSuffix operand => nameSuffix.toList ++ operand.toList
  | .constant _ => []
  | .list items => items

/-- An occurrence of a node in a tree, the outermost node included. -/
inductive Occurs (node : Expression) : Expression → Prop where
  | here : Occurs node node
  | under {child tree : Expression} (member : child ∈ tree.children) (inside : Occurs node child) :
      Occurs node tree

/-! ### Operators outside brackets -/

mutual

/-- The operators that are reached without passing through brackets.  A negation
counts as the operator that is its sign. -/
def exposedOperators : Expression → List Char
  | .number _ => []
  | .operator symbol left right => left.exposedOperators ++ symbol :: right.exposedOperators
  | .negative operand => '-' :: operand.exposedOperators
  | .brackets _ _ => []
  | .suffix _ _ operand => exposedOperatorsOptional operand
  | .function _ nameSuffix operand =>
      exposedOperatorsOptional nameSuffix ++ exposedOperatorsOptional operand
  | .constant _ => []
  | .list items => exposedOperatorsItems items

def exposedOperatorsOptional : Option Expression → List Char
  | none => []
  | some expression => expression.exposedOperators

def exposedOperatorsItems : List Expression → List Char
  | [] => []
  | item :: rest => item.exposedOperators ++ exposedOperatorsItems rest

end

/-- Whether all exposed operators are registered with allowed priorities. -/
def ExposesOnly (tables : SymbolTables) (allowed : Int → Prop) (expression : Expression) : Prop :=
  ∀ symbol ∈ expression.exposedOperators,
    ∃ priority, tables.priority? symbol = some priority ∧ allowed priority

/-- What the priorities demand of the outermost node: operators of one priority group
from left to right, and the operands of functions and suffix operators are not divided. -/
def RespectsPriorities (tables : SymbolTables) : Expression → Prop
  | .operator symbol left right =>
      ∃ priority, tables.priority? symbol = some priority ∧
        left.ExposesOnly tables (priority ≤ ·) ∧ right.ExposesOnly tables (priority < ·)
  | .negative operand =>
      ∃ priority, tables.priority? '-' = some priority ∧
        operand.ExposesOnly tables (priority < ·)
  | .suffix _ _ operand => exposedOperatorsOptional operand = []
  | .function _ nameSuffix operand =>
      exposedOperatorsOptional nameSuffix = [] ∧ exposedOperatorsOptional operand = []
  | _ => True

/-- Whether every list directly under the outermost node is the content of brackets. -/
def KeepsListsInBrackets (expression : Expression) : Prop :=
  ∀ items, .list items ∈ expression.children →
    ∃ kind, expression = .brackets kind (.list items)

end Expression
end DecimalCalculator
