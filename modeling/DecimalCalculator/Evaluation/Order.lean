/-
The order in which the subtrees of an expression are evaluated.
-/

import DecimalCalculator.Expression.Nodes

namespace DecimalCalculator
namespace Expression

/-- The trees directly under the outermost node in the order of their evaluation, in which
the operand of a function comes before its suffix. -/
def operands : Expression → List Expression
  | .number _ => []
  | .operator _ left right => [left, right]
  | .negative operand => [operand]
  | .brackets _ content => [content]
  | .suffix _ _ operand => operand.toList
  | .function _ nameSuffix operand => operand.toList ++ nameSuffix.toList
  | .constant _ => []
  | .list items => items

mutual

/-- All subtrees, the tree itself included, each of them after those under it. -/
def evaluationOrder : Expression → List Expression
  | .number text => [.number text]
  | .operator symbol left right =>
      left.evaluationOrder ++ right.evaluationOrder ++ [.operator symbol left right]
  | .negative operand => operand.evaluationOrder ++ [.negative operand]
  | .brackets kind content => content.evaluationOrder ++ [.brackets kind content]
  | .suffix symbol count operand =>
      evaluationOrderOptional operand ++ [.suffix symbol count operand]
  | .function name nameSuffix operand =>
      evaluationOrderOptional operand ++ evaluationOrderOptional nameSuffix ++
        [.function name nameSuffix operand]
  | .constant name => [.constant name]
  | .list items => evaluationOrderItems items ++ [.list items]

def evaluationOrderOptional : Option Expression → List Expression
  | none => []
  | some expression => expression.evaluationOrder

def evaluationOrderItems : List Expression → List Expression
  | [] => []
  | item :: rest => item.evaluationOrder ++ evaluationOrderItems rest

end

/-! ### Subtrees -/

theorem mem_operands_iff {tree operand : Expression} :
    operand ∈ tree.operands ↔ operand ∈ tree.children := by
  cases tree with
  | function name nameSuffix argument =>
      rw [operands, children, List.mem_append, List.mem_append]
      exact Or.comm
  | _ => exact Iff.rfl

/-- A property of all trees, from the step from the operands of a node to the node. -/
theorem induction_operands {motive : Expression → Prop}
    (step : ∀ tree, (∀ operand ∈ tree.operands, motive operand) → motive tree)
    (tree : Expression) : motive tree := by
  induction tree with
  | number text => exact step _ nofun
  | constant name => exact step _ nofun
  | negative operand ih => exact step _ (List.forall_mem_singleton.mpr ih)
  | brackets kind content ih => exact step _ (List.forall_mem_singleton.mpr ih)
  | operator symbol left right first second =>
      exact step _ (List.forall_mem_cons.mpr ⟨first, List.forall_mem_singleton.mpr second⟩)
  | suffix symbol count operand ih =>
      exact step _ fun inner member => ih inner (Option.mem_toList.mp member)
  | function name nameSuffix operand suffixed applied =>
      apply step
      intro inner member
      rcases List.mem_append.mp member with inOperand | inSuffix
      · exact applied inner (Option.mem_toList.mp inOperand)
      · exact suffixed inner (Option.mem_toList.mp inSuffix)
  | list items ih => exact step _ ih

theorem evaluationOrderOptional_eq (optional : Option Expression) :
    evaluationOrderOptional optional = optional.toList.flatMap evaluationOrder := by
  cases optional with
  | none => rfl
  | some expression => exact (List.append_nil _).symm

theorem evaluationOrderItems_eq (items : List Expression) :
    evaluationOrderItems items = items.flatMap evaluationOrder := by
  induction items with
  | nil => rfl
  | cons item rest ih => rw [evaluationOrderItems, ih, List.flatMap_cons]

theorem evaluationOrder_eq (tree : Expression) :
    tree.evaluationOrder = tree.operands.flatMap evaluationOrder ++ [tree] := by
  cases tree with
  | number text => rfl
  | constant name => rfl
  | negative operand => simp [evaluationOrder, operands]
  | brackets kind content => simp [evaluationOrder, operands]
  | operator symbol left right => simp [evaluationOrder, operands]
  | suffix symbol count operand => rw [evaluationOrder, operands, evaluationOrderOptional_eq]
  | function name nameSuffix operand =>
      rw [evaluationOrder, operands, List.flatMap_append, evaluationOrderOptional_eq,
        evaluationOrderOptional_eq]
  | list items => rw [evaluationOrder, operands, evaluationOrderItems_eq]

/-- The subtrees in the order of evaluation are those that occur in the tree. -/
theorem mem_evaluationOrder_iff {tree subtree : Expression} :
    subtree ∈ tree.evaluationOrder ↔ subtree.Occurs tree := by
  induction tree using induction_operands with
  | step tree ih =>
      rw [evaluationOrder_eq, List.mem_append, List.mem_flatMap, List.mem_singleton]
      constructor
      · intro found
        rcases found with ⟨operand, member, inside⟩ | same
        · exact .under (mem_operands_iff.mp member) ((ih operand member).mp inside)
        · exact same ▸ .here
      · intro occurs
        cases occurs with
        | here => exact Or.inr rfl
        | @under child _ member inside =>
            have operand := mem_operands_iff.mpr member
            exact Or.inl ⟨child, operand, (ih child operand).mpr inside⟩

end Expression
end DecimalCalculator
