/-
Expressions that were built from texts are evaluated without fault in their shape.

Every symbol, kind and function of a built tree is one that the standard resolvers
have a meaning for, and the suffix of a function name is a single number, so the
only faults left are those of names, of numbers and of lists between operators.
-/

import DecimalCalculator.Calculator
import DecimalCalculator.Proofs.Evaluation.Faults
import DecimalCalculator.Proofs.Expression.Registered
import DecimalCalculator.Proofs.Value.Traversal

namespace DecimalCalculator

attribute [local simp] EvaluationError.blamesShape

variable {context : Context}

namespace Evaluation

/-! ### Suffixes of functions -/

theorem isScalar_of_isNumeral {resolvers : Resolvers} {tree : Expression}
    (numeral : tree.IsNumeral) :
    ∀ value, walk resolvers context tree = .ok value → value.isScalar = true := by
  induction numeral with
  | literal text =>
      intro value walked
      rw [walk, literalValue] at walked
      cases known : Decimal.ofText? text with
      | none =>
          rw [known] at walked
          cases walked
      | some number =>
          rw [known] at walked
          cases walked
          rfl
  | bare symbol count =>
      intro value walked
      rw [walk, walkOptional] at walked
      cases walked
  | suffixed symbol count inner single =>
      intro value walked
      rw [walk, walkOptional] at walked
      obtain ⟨operand, found, mapped⟩ := bind_eq_ok_iff.mp walked
      obtain ⟨first, walkedFirst, same⟩ := bind_eq_ok_iff.mp found
      cases same
      obtain ⟨number, rfl⟩ := Value.isScalar_iff.mp (single first walkedFirst)
      have mapped : (Value.scalar number).tryMap _ = .ok value := mapped
      rw [Value.tryMap_scalar, map_eq_ok_iff] at mapped
      obtain ⟨result, _, rfl⟩ := mapped
      rfl

/-! ### The walk -/

theorem sparesShape_applyFunction (name : String) (nameSuffix : Option Decimal)
    (operand : Option Value) (applied : nameSuffix.isSome ∨ operand.isSome) :
    SparesShape (applyFunction .standard context name nameSuffix operand) := by
  unfold applyFunction
  cases operand with
  | none =>
      simp at applied
      simp [Resolvers.standard, Standard.sparesShape_functions, applied]
  | some operand =>
      simp only
      cases operand.scalar? with
      | none => simp [Resolvers.standard, Standard.sparesShape_listFunctions]
      | some number => simp [Resolvers.standard, Standard.sparesShape_functions]

theorem sparesShape_operation {symbol : Char}
    (known : symbol ∈ SymbolTables.standard.operatorSymbols) (rightOperand : Expression)
    (left right : Decimal) :
    SparesShape (operation .standard context symbol rightOperand left right) := by
  simp [operation, Resolvers.standard, Standard.sparesShape_combine,
    Standard.sparesShape_combinePercent, Standard.combine_ne_none known]

theorem sparesShape_broadcast (symbol : Char) {operation : Decimal → Decimal → Outcome Decimal}
    (spares : ∀ left right, SparesShape (operation left right)) (left right : Value) :
    SparesShape (broadcast symbol operation left right) := by
  unfold broadcast
  split
  · exact right.sparesShape_tryMap fun number => spares _ number
  · exact left.sparesShape_tryMap fun number => spares number _
  · simp

theorem sparesShape_suffixNumber {nameSuffix : Option Value}
    (single : ∀ value ∈ nameSuffix, value.isScalar = true) (name : String) :
    SparesShape (suffixNumber name nameSuffix) := by
  cases nameSuffix with
  | none => simp [suffixNumber]
  | some value =>
      obtain ⟨number, rfl⟩ := Value.isScalar_iff.mp (single value rfl)
      simp [suffixNumber]

theorem sparesShape_walkOptional {optional : Option Expression}
    (spares : ∀ tree ∈ optional, SparesShape (walk .standard context tree)) :
    SparesShape (walkOptional .standard context optional) := by
  cases optional with
  | none => simp [walkOptional]
  | some tree => simp [walkOptional, spares]

theorem sparesShape_walkItems {items : List Expression}
    (spares : ∀ item ∈ items, SparesShape (walk .standard context item)) :
    SparesShape (walkItems .standard context items) := by
  induction items with
  | nil => simp [walkItems]
  | cons item rest ih =>
      have later := ih fun other member => spares other (List.mem_cons_of_mem item member)
      simp [walkItems, spares, later]

theorem isSome_of_walkOptional {resolvers : Resolvers} {optional : Option Expression}
    {value : Option Value} (walked : walkOptional resolvers context optional = .ok value) :
    value.isSome = optional.isSome := by
  cases optional with
  | none =>
      cases walked
      rfl
  | some tree =>
      obtain ⟨result, _, same⟩ := bind_eq_ok_iff.mp walked
      cases same
      rfl

theorem isSome_of_suffixNumber {name : String} {value : Option Value} {number : Option Decimal}
    (found : suffixNumber name value = .ok number) : number.isSome = value.isSome := by
  cases value with
  | none =>
      cases found
      rfl
  | some value =>
      simp only [suffixNumber] at found
      cases single : value.scalar? with
      | none =>
          rw [single] at found
          cases found
      | some known =>
          rw [single] at found
          cases found
          rfl

theorem sparesShape_walk (tree : Expression) :
    (∀ node : Expression, node.Occurs tree → node.IsRegistered .standard) →
      SparesShape (walk .standard context tree) := by
  induction tree with
  | number text =>
      intro _
      unfold walk literalValue
      split
      · simp
      · simp
  | constant name =>
      intro _
      simp [walk, Resolvers.standard, Standard.sparesShape_constants]
  | negative operand ih =>
      intro registered
      have inner := ih fun node inside => registered node (.under List.mem_cons_self inside)
      simp [walk, inner, Value.sparesShape_tryMap]
  | brackets kind content ih =>
      intro registered
      have inner := ih fun node inside => registered node (.under List.mem_cons_self inside)
      have known : kind ∈ SymbolTables.standard.brackets.map (·.kind) := registered _ .here
      rw [walk, SparesShape.bind_iff]
      refine ⟨inner, fun value _ => value.sparesShape_tryMap fun number => ?_⟩
      simp [Resolvers.standard, Standard.sparesShape_brackets, Standard.brackets_ne_none known]
  | operator symbol left right first second =>
      intro registered
      have leftSpares := first fun node inside => registered node (.under List.mem_cons_self inside)
      have rightSpares := second fun node inside =>
        registered node (.under (List.mem_cons_of_mem left List.mem_cons_self) inside)
      have known : symbol ∈ SymbolTables.standard.operatorSymbols := registered _ .here
      have operates : ∀ first second,
          SparesShape (operation .standard context symbol right first second) :=
        sparesShape_operation known right
      have combined := sparesShape_broadcast symbol operates
      simp [walk, leftSpares, rightSpares, combined]
  | suffix symbol count operand ih =>
      intro registered
      have inner := sparesShape_walkOptional fun tree member =>
        ih tree member fun node inside =>
          registered node (.under (Option.mem_toList.mpr member) inside)
      have known : symbol ∈ SymbolTables.standard.suffixes ∧ 0 < count := registered _ .here
      rw [walk, SparesShape.bind_iff]
      refine ⟨inner, fun found _ => ?_⟩
      cases found with
      | none => simp
      | some value =>
          refine value.sparesShape_tryMap fun number => ?_
          simp [Resolvers.standard, Standard.sparesShape_suffixes,
            Standard.suffixes_ne_none known.1]
  | function name nameSuffix operand suffixed applied =>
      intro registered
      have node : Expression.IsRegistered .standard (.function name nameSuffix operand) :=
        registered _ .here
      obtain ⟨_, argument, numeral⟩ := node
      have operandSpares := sparesShape_walkOptional fun tree member =>
        applied tree member fun node inside =>
          registered node (.under (List.mem_append_right _ (Option.mem_toList.mpr member)) inside)
      have suffixSpares := sparesShape_walkOptional fun tree member =>
        suffixed tree member fun node inside =>
          registered node (.under (List.mem_append_left _ (Option.mem_toList.mpr member)) inside)
      rw [walk, SparesShape.bind_iff]
      refine ⟨operandSpares, fun operandValue walkedOperand => ?_⟩
      rw [SparesShape.bind_iff]
      refine ⟨suffixSpares, fun suffixValue walkedSuffix => ?_⟩
      rw [SparesShape.bind_iff]
      refine ⟨sparesShape_suffixNumber ?_ name, fun number found => ?_⟩
      · intro value member
        cases nameSuffix with
        | none =>
            cases walkedSuffix
            cases member
        | some tree =>
            obtain ⟨result, walked, same⟩ := bind_eq_ok_iff.mp walkedSuffix
            cases same
            cases member
            exact isScalar_of_isNumeral (numeral tree rfl) _ walked
      · apply sparesShape_applyFunction
        rw [isSome_of_suffixNumber found, isSome_of_walkOptional walkedSuffix,
          isSome_of_walkOptional walkedOperand]
        exact argument
  | list items ih =>
      intro registered
      have every := sparesShape_walkItems fun item member =>
        ih item member fun node inside => registered node (.under member inside)
      simp [walk, every]

theorem sparesShape_evaluate {tree : Expression}
    (registered : ∀ node : Expression, node.Occurs tree → node.IsRegistered .standard) :
    SparesShape (evaluate .standard context tree) := by
  rw [evaluate, SparesShape.bind_iff]
  refine ⟨sparesShape_walk tree registered, fun value _ => value.sparesShape_tryMap fun number => ?_⟩
  exact sparesShape_unlessOverflow _ _

end Evaluation

namespace Calculator

/-- No text makes the standard calculator, in whatever context, blame the shape of the
tree: all nodes of the tree are registered, and the suffix of a function that has a
value is a scalar. -/
theorem calculate_never_blames_shape (context : Context) (text : String) :
    (∀ fault, ({ context := context } : Calculator).calculate text = .error (.evaluation fault) →
        fault.blamesShape = false) ∧
      ∀ tree, ({ context := context } : Calculator).build text = .ok tree →
        ∀ node : Expression, node.Occurs tree → node.IsRegistered .standard ∧
          ∀ name nameSuffix operand, node = .function name (some nameSuffix) operand →
            ∀ value, Evaluation.walk .standard context nameSuffix = .ok value →
              value.isScalar = true := by
  have usable : SymbolTables.standard.Unambiguous :=
    SymbolTables.standard.validate_eq_ok_iff.mp rfl
  have built {tree : Expression}
      (stands : ({ context := context } : Calculator).build text = .ok tree) :
      ∀ node : Expression, node.Occurs tree → node.IsRegistered .standard := by
    exact Expression.isRegistered_of_build usable (mapError_eq_ok_iff.mp stands)
  constructor
  · intro fault failed
    unfold calculate at failed
    rcases bind_eq_error_iff.mp failed with unbuilt | ⟨tree, stands, unevaluated⟩
    · obtain ⟨cause, _, same⟩ := mapError_eq_error_iff.mp unbuilt
      cases same
    · obtain ⟨cause, found, same⟩ := mapError_eq_error_iff.mp unevaluated
      cases same
      exact Evaluation.sparesShape_evaluate (built stands) _ found
  · intro tree stands node occurs
    have registered := built stands node occurs
    refine ⟨registered, ?_⟩
    rintro name nameSuffix operand rfl value walked
    exact Evaluation.isScalar_of_isNumeral (registered.2.2 nameSuffix rfl) value walked

set_option maxRecDepth 4000 in
theorem calculate_never_blames_shape_factorial_base :
    ({} : Calculator).build "log2!(8)" = .ok (.function "log"
        (some (.suffix '!' 1 (some (.number "2")))) (some (.brackets 1 (.number "8")))) ∧
      Expression.IsRegistered .standard (.function "log"
        (some (.suffix '!' 1 (some (.number "2")))) (some (.brackets 1 (.number "8")))) := by
  have built : ({} : Calculator).build "log2!(8)" = .ok (.function "log"
      (some (.suffix '!' 1 (some (.number "2")))) (some (.brackets 1 (.number "8")))) := by cbv
  exact ⟨built, ((calculate_never_blames_shape {} "log2!(8)").2 _ built _ .here).1⟩

end Calculator
end DecimalCalculator
