/-
Operations on lists are done number by number.

An operator takes a scalar through the numbers of the other side, in their order and on
the side where it stands, and every standard function that does not take a list as a whole
has on each number of a list the value that it has on that number alone.
-/

import Mathlib
import DecimalCalculator.Evaluation.Standard
import DecimalCalculator.Evaluation.Walk
import DecimalCalculator.Proofs.Value.Shape

namespace DecimalCalculator

theorem Expression.isSuffix_iff {symbol : Char} {tree : Expression} :
    tree.isSuffix symbol = true ↔ ∃ count operand, tree = .suffix symbol count operand := by
  constructor
  · intro outermost
    cases tree with
    | suffix found count operand =>
        rw [isSuffix, beq_iff_eq] at outermost
        exact ⟨count, operand, outermost ▸ rfl⟩
    | _ => cases outermost
  · intro found
    obtain ⟨count, operand, rfl⟩ := found
    exact beq_self_eq_true symbol

theorem resolved_map_some {α : Type} (unknown : EvaluationError) (outcome : Outcome α) :
    resolved unknown (some <$> outcome) = outcome := by
  cases outcome with
  | error fault => rfl
  | ok result => rfl

def Standard.wholeListFunctions : List String :=
  ["A", "sum", "gcd", "lcm"]

theorem Standard.listFunctions_eq {name : String} (single : name ∉ wholeListFunctions)
    (suffix : Option Decimal) (operand : Value) (functions : FunctionResolver)
    (context : Context) :
    listFunctions name suffix operand functions context =
      some <$> operand.tryMap fun number =>
        resolved (.unknownFunction name) (functions name suffix (some number) context) := by
  unfold listFunctions
  split
  · exact absurd (by decide) single
  · exact absurd (by decide) single
  · exact absurd (by decide) single
  · exact absurd (by decide) single
  · rfl

theorem Value.scalar?_eq_none {value : Value} (list : value.isScalar = false) :
    value.scalar? = none :=
  Option.not_isSome_iff_eq_none.mp (Bool.eq_false_iff.mp list)

namespace Evaluation

variable {resolvers : Resolvers} {context : Context}

/-! ### Operators -/

/-- What an operation on numbers makes of two values: a scalar on the left meets every
number on the right, otherwise a scalar on the right meets every number on the left, and
there is no result for two lists. -/
structure IsBroadcast (symbol : Char) (rule : Decimal → Decimal → Outcome Decimal)
    (left right : Value) (outcome : Outcome Value) : Prop where
  ofLeft : ∀ scalar, left = .scalar scalar → Value.IsPointwise (rule scalar) right outcome
  ofRight : left.isScalar = false → ∀ scalar, right = .scalar scalar →
    Value.IsPointwise (fun number => rule number scalar) left outcome
  lists : left.isScalar = false → right.isScalar = false →
    outcome = .error (.operatorBetweenLists symbol)

theorem isBroadcast_broadcast (symbol : Char) (rule : Decimal → Decimal → Outcome Decimal)
    (left right : Value) : IsBroadcast symbol rule left right (broadcast symbol rule left right) where
  ofLeft := by
    intro scalar same
    rw [same]
    exact Value.isPointwise_tryMap (rule scalar) right
  ofRight := by
    intro list scalar same
    rw [same, broadcast, Value.scalar?_eq_none list, Value.scalar?_scalar]
    exact Value.isPointwise_tryMap (fun number => rule number scalar) left
  lists := by
    intro list other
    rw [broadcast, Value.scalar?_eq_none list, Value.scalar?_eq_none other]

theorem walk_operator_eq_broadcast (symbol : Char) {left right : Expression}
    {leftValue rightValue : Value} (walkedLeft : walk resolvers context left = .ok leftValue)
    (walkedRight : walk resolvers context right = .ok rightValue) :
    walk resolvers context (.operator symbol left right) =
      broadcast symbol (operation resolvers context symbol right) leftValue rightValue := by
  rw [walk, walkedLeft, walkedRight]
  rfl

theorem operation_of_percent (symbol : Char) {right : Expression}
    (percent : right.isSuffix percentSign = true) :
    operation resolvers context symbol right = fun first second =>
      resolved (.percentNotAllowed symbol)
        (resolvers.operators.combinePercent symbol first second context) := by
  funext first second
  rw [operation, if_pos percent]

theorem operation_of_plain (symbol : Char) {right : Expression}
    (plain : ¬right.isSuffix percentSign = true) :
    operation resolvers context symbol right = fun first second =>
      resolved (.unknownOperator symbol)
        (resolvers.operators.combine symbol first second context) := by
  funext first second
  rw [operation, if_neg plain]

/-! ### Functions -/

/-- The number that a function name has for its suffix, or that it has none. -/
def SuffixIs (resolvers : Resolvers) (context : Context) : Option Expression → Option Decimal → Prop :=
  Option.Rel fun tree number => walk resolvers context tree = .ok (.scalar number)

theorem walk_function_eq {name : String} {nameSuffix : Option Expression}
    {number : Option Decimal} {operand : Expression} {value : Value}
    (suffixed : SuffixIs resolvers context nameSuffix number)
    (walked : walk resolvers context operand = .ok value) :
    walk resolvers context (.function name nameSuffix (some operand)) =
      applyFunction resolvers context name number (some value) := by
  rw [walk, walkOptional, walked]
  cases suffixed with
  | none => rfl
  | some known =>
      rw [walkOptional, known]
      rfl

theorem applyFunction_scalar (name : String) (suffix : Option Decimal) (number : Decimal) :
    applyFunction resolvers context name suffix (some (.scalar number)) =
      Value.scalar <$> resolved (.unknownFunction name)
        (resolvers.functions name suffix (some number) context) := by
  simp only [applyFunction, Value.scalar?_scalar]
  cases resolved (.unknownFunction name) (resolvers.functions name suffix (some number) context) with
  | error fault => rfl
  | ok result => rfl

theorem applyFunction_list {name : String} (single : name ∉ Standard.wholeListFunctions)
    (suffix : Option Decimal) {value : Value} (list : value.isScalar = false) :
    applyFunction .standard context name suffix (some value) =
      value.tryMap fun number => resolved (.unknownFunction name)
        (Standard.functions name suffix (some number) context) := by
  simp only [applyFunction, Value.scalar?_eq_none list]
  change resolved _ (Standard.listFunctions name suffix value Standard.functions context) = _
  rw [Standard.listFunctions_eq single, resolved_map_some]

/-! ### Number by number -/

theorem isBroadcast_walk (symbol : Char) {left right : Expression} {leftValue rightValue : Value}
    (walkedLeft : walk resolvers context left = .ok leftValue)
    (walkedRight : walk resolvers context right = .ok rightValue) :
    ((∃ count operand, right = .suffix percentSign count operand) →
        IsBroadcast symbol
          (fun first second => resolved (.percentNotAllowed symbol)
            (resolvers.operators.combinePercent symbol first second context))
          leftValue rightValue (walk resolvers context (.operator symbol left right))) ∧
      ((¬∃ count operand, right = .suffix percentSign count operand) →
        IsBroadcast symbol
          (fun first second => resolved (.unknownOperator symbol)
            (resolvers.operators.combine symbol first second context))
          leftValue rightValue (walk resolvers context (.operator symbol left right))) := by
  rw [walk_operator_eq_broadcast symbol walkedLeft walkedRight, ← Expression.isSuffix_iff]
  constructor
  · intro percent
    rw [operation_of_percent symbol percent]
    exact isBroadcast_broadcast _ _ _ _
  · intro plain
    rw [operation_of_plain symbol plain]
    exact isBroadcast_broadcast _ _ _ _

theorem isPointwise_walk_function {name : String} (single : name ∉ Standard.wholeListFunctions)
    {nameSuffix : Option Expression} {number : Option Decimal}
    (suffixed : SuffixIs .standard context nameSuffix number) {operand : Expression} {value : Value}
    (walked : walk .standard context operand = .ok value) (list : value.isScalar = false) :
    Value.IsPointwise
      (fun argument => resolved (.unknownFunction name)
        (Standard.functions name number (some argument) context))
      value (walk .standard context (.function name nameSuffix (some operand))) := by
  rw [walk_function_eq suffixed walked, applyFunction_list single number list]
  exact Value.isPointwise_tryMap _ value

theorem walk_function_scalar (name : String) {nameSuffix : Option Expression}
    {number : Option Decimal} (suffixed : SuffixIs .standard context nameSuffix number)
    {operand : Expression} {argument : Decimal}
    (walked : walk .standard context operand = .ok (.scalar argument)) :
    walk .standard context (.function name nameSuffix (some operand)) =
      Value.scalar <$> resolved (.unknownFunction name)
        (Standard.functions name number (some argument) context) := by
  rw [walk_function_eq suffixed walked, applyFunction_scalar]
  rfl

/-- Operators are broadcast, with the rule for percentages exactly in front of a
percentage.  A standard function of single numbers has on a list the values that it has
on the numbers alone. -/
theorem walk_pointwise (resolvers : Resolvers) (context : Context) :
    (∀ symbol left right leftValue rightValue,
      walk resolvers context left = .ok leftValue → walk resolvers context right = .ok rightValue →
        ((∃ count operand, right = .suffix percentSign count operand) →
          IsBroadcast symbol
            (fun first second => resolved (.percentNotAllowed symbol)
              (resolvers.operators.combinePercent symbol first second context))
            leftValue rightValue (walk resolvers context (.operator symbol left right))) ∧
        ((¬∃ count operand, right = .suffix percentSign count operand) →
          IsBroadcast symbol
            (fun first second => resolved (.unknownOperator symbol)
              (resolvers.operators.combine symbol first second context))
            leftValue rightValue (walk resolvers context (.operator symbol left right)))) ∧
      ∀ name nameSuffix number operand value, name ∉ Standard.wholeListFunctions →
        SuffixIs .standard context nameSuffix number →
        walk .standard context operand = .ok value → value.isScalar = false →
          ∃ alone : Decimal → Outcome Decimal,
            (∀ argument, alone argument = resolved (.unknownFunction name)
              (Standard.functions name number (some argument) context)) ∧
            (∀ tree argument, walk .standard context tree = .ok (.scalar argument) →
              walk .standard context (.function name nameSuffix (some tree)) =
                Value.scalar <$> alone argument) ∧
            Value.IsPointwise alone value
              (walk .standard context (.function name nameSuffix (some operand))) := by
  constructor
  · intro symbol left right leftValue rightValue walkedLeft walkedRight
    exact isBroadcast_walk symbol walkedLeft walkedRight
  · intro name nameSuffix number operand value single suffixed walked list
    refine ⟨_, fun _ => rfl, ?_, isPointwise_walk_function single suffixed walked list⟩
    exact fun tree argument walkedTree => walk_function_scalar name suffixed walkedTree

theorem walk_pointwise_nested_percentages :
    let percentages : Expression :=
      .suffix '%' 1 (some (.list [.number "50", .list [.number "25", .number "10"]]))
    let fractions : Value := .list [.number ⟨50, 2⟩, .list [.number ⟨25, 2⟩, .number ⟨10, 2⟩]]
    let powers : Expression := .list [.number "8", .list []]
    walk .standard {} (.operator '-' (.number "8") percentages) =
        .ok (.list [.number ⟨400, 2⟩, .list [.number ⟨600, 2⟩, .number ⟨720, 2⟩]]) ∧
      IsBroadcast '-'
        (fun first second => resolved (.percentNotAllowed '-')
          (Standard.combinePercent '-' first second {}))
        (.scalar 8) fractions (walk .standard {} (.operator '-' (.number "8") percentages)) ∧
      Value.IsPointwise
        (fun argument => resolved (.unknownFunction "sqrt")
          (Standard.functions "sqrt" (some 3) (some argument) {}))
        (.list [.number 8, .list []])
        (walk .standard {} (.function "sqrt" (some (.number "3")) (some powers))) := by
  intro percentages fractions powers
  have eight : walk .standard {} (.number "8") = .ok (.scalar 8) := by cbv
  have three : walk .standard {} (.number "3") = .ok (.scalar 3) := by cbv
  have parts : walk .standard {} percentages = .ok fractions := by cbv
  have list : walk .standard {} powers = .ok (.list [.number 8, .list []]) := by cbv
  obtain ⟨operators, functions⟩ := walk_pointwise .standard {}
  obtain ⟨percent, -⟩ := operators '-' (.number "8") percentages _ _ eight parts
  obtain ⟨alone, known, -, pointwise⟩ := functions "sqrt" (some (.number "3")) (some 3) powers _
    (by decide) (.some three) list rfl
  refine ⟨by cbv, percent ⟨1, _, rfl⟩, ?_⟩
  rw [← funext known]
  exact pointwise

end Evaluation
end DecimalCalculator
