/-
Results do not depend on how numbers are written.

Two trees that differ only in their literals, which stand for pairwise equal numbers,
have the same result or fail for the same kind of reason, as long as neither run is broken
off where the words end and no number has too many digits.
-/

import Mathlib
import DecimalCalculator.Proofs.Decimal.Shortest
import DecimalCalculator.Proofs.Evaluation.StandardForms
import DecimalCalculator.Proofs.Value.Final

namespace DecimalCalculator

/-- Two trees that differ only in literals, which stand for pairwise equal numbers. -/
inductive Expression.SameNumbers : Expression → Expression → Prop where
  | literal (text : String) : SameNumbers (.number text) (.number text)
  | number {text other : String} {number form : Decimal}
      (read : Decimal.ofText? text = some number) (readOther : Decimal.ofText? other = some form)
      (same : number.value = form.value) : SameNumbers (.number text) (.number other)
  | operator {left left' right right' : Expression} (symbol : Char)
      (lefts : SameNumbers left left') (rights : SameNumbers right right') :
      SameNumbers (.operator symbol left right) (.operator symbol left' right')
  | negative {operand other : Expression} (same : SameNumbers operand other) :
      SameNumbers (.negative operand) (.negative other)
  | brackets {content other : Expression} (kind : Nat) (same : SameNumbers content other) :
      SameNumbers (.brackets kind content) (.brackets kind other)
  | suffix {operand other : Option Expression} (symbol : Char) (count : Nat)
      (same : Option.Rel SameNumbers operand other) :
      SameNumbers (.suffix symbol count operand) (.suffix symbol count other)
  | function {nameSuffix nameSuffix' operand operand' : Option Expression} (name : String)
      (suffixes : Option.Rel SameNumbers nameSuffix nameSuffix')
      (operands : Option.Rel SameNumbers operand operand') :
      SameNumbers (.function name nameSuffix operand) (.function name nameSuffix' operand')
  | constant (name : String) : SameNumbers (.constant name) (.constant name)
  | list {items others : List Expression} (same : List.Forall₂ SameNumbers items others) :
      SameNumbers (.list items) (.list others)

theorem Expression.SameNumbers.isSuffix {left right : Expression} (same : left.SameNumbers right)
    (symbol : Char) : left.isSuffix symbol = right.isSuffix symbol := by
  cases same <;> rfl

namespace Evaluation

open Standard

variable {context : Context}

/-! ### What a run asks of the forms of its numbers -/

def BroadcastFits (context : Context) (symbol : Char) (rightOperand : Expression)
    (left right : Value) : Prop :=
  let applied := operation .standard context symbol rightOperand
  let fits (first second : Decimal) : Prop :=
    OperatorFits symbol (rightOperand.isSuffix percentSign) first second
  match left.scalar?, right.scalar? with
  | some scalar, _ =>
      right.Traverses (fun number => applied scalar number) (fun number => fits scalar number)
  | none, some scalar =>
      left.Traverses (fun number => applied number scalar) (fun number => fits number scalar)
  | none, none => True

/-- A function of a scalar, of no operand, or of a list as a whole. -/
def ApplicationFits (context : Context) (name : String) (suffix : Option Decimal) :
    Option Value → Prop
  | none => CallFits name context suffix none
  | some operand =>
      match operand.scalar? with
      | some number => CallFits name context suffix (some number)
      | none => ListCallFits name suffix operand context

mutual

/-- The steps of a walk are on numbers with few enough digits.  Nothing is asked of the steps
that a failure cuts off. -/
def WalkFits (context : Context) : Expression → Prop
  | .number _ => True
  | .constant _ => True
  | .negative operand => WalkFits context operand
  | .brackets kind content => WalkFits context content ∧
      ∀ value, walk .standard context content = .ok value →
        value.Traverses
          (fun number => resolved (.unknownBracketKind kind) (brackets kind number context))
          (BracketFits kind)
  | .suffix symbol count operand => OptionalFits context operand ∧
      ∀ value, walkOptional .standard context operand = .ok (some value) →
        value.Traverses
          (fun number => resolved (.unknownSuffix symbol) (suffixes symbol count number context))
          (SuffixFits symbol)
  | .list items => ItemsFit context items
  | .function name suffix operand => OptionalFits context operand ∧
      ∀ operandValue, walkOptional .standard context operand = .ok operandValue →
        OptionalFits context suffix ∧
          ∀ suffixValue number, walkOptional .standard context suffix = .ok suffixValue →
            suffixNumber name suffixValue = .ok number →
              ApplicationFits context name number operandValue
  | .operator symbol left right => WalkFits context left ∧
      ∀ leftValue, walk .standard context left = .ok leftValue →
        WalkFits context right ∧
          ∀ rightValue, walk .standard context right = .ok rightValue →
            BroadcastFits context symbol right leftValue rightValue

def OptionalFits (context : Context) : Option Expression → Prop
  | none => True
  | some expression => WalkFits context expression

def ItemsFit (context : Context) : List Expression → Prop
  | [] => True
  | item :: rest => WalkFits context item ∧
      ∀ value, walk .standard context item = .ok value → ItemsFit context rest

end

/-! ### Single steps -/

theorem operation_concur (symbol : Char) {rightOperand rightOperand' : Expression}
    {left left' right right' : Decimal} (same : rightOperand.SameNumbers rightOperand')
    (lefts : left.value = left'.value) (rights : right.value = right'.value)
    (fits : OperatorFits symbol (rightOperand.isSuffix percentSign) left right)
    (fits' : OperatorFits symbol (rightOperand'.isSuffix percentSign) left' right') :
    Concur Decimal.EqualValues (operation .standard context symbol rightOperand left right)
      (operation .standard context symbol rightOperand' left' right') := by
  rw [← same.isSuffix] at fits'
  rw [operation, operation, ← same.isSuffix]
  cases percentage : rightOperand.isSuffix percentSign with
  | true => exact resolved_concur _ (combinePercent_concur lefts rights)
  | false =>
      rw [percentage] at fits fits'
      exact resolved_concur _ (combine_concur lefts rights fits fits')

theorem broadcast_concur (symbol : Char) {rightOperand rightOperand' : Expression}
    {left left' right right' : Value} (same : rightOperand.SameNumbers rightOperand')
    (lefts : left.EqualValues left') (rights : right.EqualValues right')
    (fits : BroadcastFits context symbol rightOperand left right)
    (fits' : BroadcastFits context symbol rightOperand' left' right') :
    Concur Value.EqualValues
      (broadcast symbol (operation .standard context symbol rightOperand) left right)
      (broadcast symbol (operation .standard context symbol rightOperand') left' right') := by
  have leftScalars := lefts.scalar?
  have rightScalars := rights.scalar?
  unfold BroadcastFits at fits fits'
  unfold broadcast
  generalize left.scalar? = scalar, left'.scalar? = scalar' at leftScalars fits fits' ⊢
  generalize right.scalar? = single, right'.scalar? = single' at rightScalars fits fits' ⊢
  cases leftScalars with
  | some scalars =>
      exact Value.tryMap_concur
        (fun number form values => operation_concur symbol same scalars values) rights fits fits'
  | none =>
      cases rightScalars with
      | some scalars =>
          exact Value.tryMap_concur
            (fun number form values => operation_concur symbol same values scalars) lefts fits fits'
      | none => exact .error rfl

theorem suffixNumber_concur (name : String) {suffix suffix' : Option Value}
    (same : Option.Rel Value.EqualValues suffix suffix') :
    Concur (Option.Rel Decimal.EqualValues) (suffixNumber name suffix)
      (suffixNumber name suffix') := by
  cases same with
  | none => exact .ok .none
  | @some suffix suffix' values =>
      have scalars := values.scalar?
      unfold suffixNumber
      simp only
      generalize suffix.scalar? = scalar, suffix'.scalar? = scalar' at scalars ⊢
      cases scalars with
      | none => exact .error rfl
      | some equal => exact .ok (.some equal)

theorem applyFunction_concur (name : String) {suffix suffix' : Option Decimal}
    {operand operand' : Option Value} (suffixes : Option.Rel Decimal.EqualValues suffix suffix')
    (operands : Option.Rel Value.EqualValues operand operand')
    (fits : ApplicationFits context name suffix operand)
    (fits' : ApplicationFits context name suffix' operand') :
    Concur Value.EqualValues (applyFunction .standard context name suffix operand)
      (applyFunction .standard context name suffix' operand') := by
  have scalarOf {outcome outcome' : Outcome (Option Decimal)}
      (concur : Concur (Option.Rel Decimal.EqualValues) outcome outcome') :
      Concur Value.EqualValues
        (do return .scalar (← resolved (.unknownFunction name) outcome))
        (do return .scalar (← resolved (.unknownFunction name) outcome')) :=
    (resolved_concur _ concur).bind fun _ _ values _ _ => .ok (Value.equalValues_scalar values)
  cases operands with
  | none => exact scalarOf (functions_concur name suffixes .none fits fits')
  | @some operand operand' values =>
      have scalars := values.scalar?
      unfold ApplicationFits at fits fits'
      unfold applyFunction
      simp only at fits fits' ⊢
      generalize operand.scalar? = scalar, operand'.scalar? = scalar' at scalars fits fits' ⊢
      cases scalars with
      | some equal => exact scalarOf (functions_concur name suffixes (.some equal) fits fits')
      | none => exact resolved_concur _ (listFunctions_concur name suffixes values fits fits')

/-! ### The walk -/

theorem literalValue_concur {text other : String} {number form : Decimal}
    (read : Decimal.ofText? text = some number) (readOther : Decimal.ofText? other = some form)
    (same : number.value = form.value) :
    Concur Value.EqualValues (literalValue text) (literalValue other) := by
  rw [literalValue, literalValue, read, readOther]
  exact .ok (Value.equalValues_scalar same)

theorem walkOptional_concur {optional other : Option Expression}
    (same : Option.Rel Expression.SameNumbers optional other)
    (inner : ∀ expression ∈ optional, ∀ {form : Expression}, expression.SameNumbers form →
      WalkFits context expression → WalkFits context form →
        Concur Value.EqualValues (walk .standard context expression) (walk .standard context form))
    (fits : OptionalFits context optional) (fits' : OptionalFits context other) :
    Concur (Option.Rel Value.EqualValues) (walkOptional .standard context optional)
      (walkOptional .standard context other) := by
  cases same with
  | none => exact .ok .none
  | some equal =>
      exact (inner _ rfl equal fits fits').bind fun _ _ values _ _ => .ok (.some values)

theorem walkItems_concur {items others : List Expression}
    (same : List.Forall₂ Expression.SameNumbers items others)
    (inner : ∀ item ∈ items, ∀ {form : Expression}, item.SameNumbers form →
      WalkFits context item → WalkFits context form →
        Concur Value.EqualValues (walk .standard context item) (walk .standard context form))
    (fits : ItemsFit context items) (fits' : ItemsFit context others) :
    Concur (List.Forall₂ Value.EqualValues) (walkItems .standard context items)
      (walkItems .standard context others) := by
  induction same with
  | nil => exact .ok .nil
  | cons equal _ ih =>
      obtain ⟨head, tail⟩ := List.forall_mem_cons.mp inner
      rw [walkItems, walkItems]
      refine (head equal fits.1 fits'.1).bind fun value form values found found' => ?_
      refine (ih tail (fits.2 value found) (fits'.2 form found')).bind
        fun results images rest _ _ => .ok (.cons values.asItem rest)

theorem walk_concur {left right : Expression} (same : left.SameNumbers right)
    (fits : WalkFits context left) (fits' : WalkFits context right) :
    Concur Value.EqualValues (walk .standard context left) (walk .standard context right) := by
  induction left generalizing right with
  | number text =>
      rw [walk]
      cases same with
      | literal =>
          rw [walk]
          exact (Concur.of_eq rfl).mono fun _ _ one => congrArg Value.toRational one
      | number read readOther values =>
          rw [walk]
          exact literalValue_concur read readOther values
  | constant name =>
      cases same
      exact (Concur.of_eq rfl).mono fun _ _ one => congrArg Value.toRational one
  | negative operand ih =>
      cases same with
      | negative equal =>
          rw [walk, walk]
          refine (ih equal fits fits').bind fun value form values _ _ => ?_
          have negated (value : Value) :
              (value.map (- ·)).toRational = value.toRational.map (- ·) :=
            Value.toRational_map fun number _ => number.value_neg
          rw [Value.tryMap_ok_eq_map, Value.tryMap_ok_eq_map]
          refine .ok ?_
          rw [Value.EqualValues, negated, negated, values]
  | brackets kind content ih =>
      cases same with
      | brackets _ equal =>
          rw [walk, walk]
          refine (ih equal fits.1 fits'.1).bind fun value form values found found' => ?_
          refine Value.tryMap_concur (fun number image numbers fits fits' => ?_) values
            (fits.2 value found) (fits'.2 form found')
          exact resolved_concur _ (@brackets_concur number image context kind numbers fits fits')
  | suffix symbol count operand ih =>
      cases same with
      | suffix _ _ equal =>
          rw [walk, walk]
          refine (walkOptional_concur equal ih fits.1 fits'.1).bind
            fun value form values found found' => ?_
          cases values with
          | none => exact .error rfl
          | some equal =>
              refine Value.tryMap_concur (fun number image numbers fits fits' => ?_) equal
                (fits.2 _ found) (fits'.2 _ found')
              exact resolved_concur _ (suffixes_concur symbol count numbers fits fits')
  | list items ih =>
      cases same with
      | list equal =>
          rw [walk, walk]
          refine (walkItems_concur equal ih fits fits').bind fun values forms pairs _ _ => .ok ?_
          exact Value.equalValues_list_iff.mpr ⟨forms, rfl, pairs⟩
  | function name nameSuffix operand suffixes operands =>
      cases same with
      | function _ equal equals =>
          rw [walk, walk]
          refine (walkOptional_concur equals operands fits.1 fits'.1).bind
            fun operand form values found found' => ?_
          obtain ⟨suffixFits, applies⟩ := fits.2 operand found
          obtain ⟨suffixFits', applies'⟩ := fits'.2 form found'
          refine (walkOptional_concur equal suffixes suffixFits suffixFits').bind
            fun suffix suffix' others reached reached' => ?_
          refine (suffixNumber_concur name others).bind
            fun number number' numbers known known' => ?_
          exact applyFunction_concur name numbers values (applies suffix number reached known)
            (applies' suffix' number' reached' known')
  | operator symbol left right first second =>
      cases same with
      | operator _ lefts rights =>
          rw [walk, walk]
          refine (first lefts fits.1 fits'.1).bind fun leftValue leftForm values found found' => ?_
          obtain ⟨rightFits, broadcasts⟩ := fits.2 leftValue found
          obtain ⟨rightFits', broadcasts'⟩ := fits'.2 leftForm found'
          refine (second rights rightFits rightFits').bind
            fun rightValue rightForm others reached reached' => ?_
          exact broadcast_concur symbol rights values others (broadcasts rightValue reached)
            (broadcasts' rightForm reached')

/-! ### Results -/

/-- The walk fits, and so do the numbers that are brought to their final form. -/
structure EvaluationFits (context : Context) (tree : Expression) : Prop where
  walk : WalkFits context tree
  result : ∀ value, Evaluation.walk .standard context tree = .ok value → ∀ number ∈ value.flatten,
    Int64.ofNat context.displayScale.toNat < number.strip.scale → number.strip.IsShort

theorem finalForm_eq {displayScale : UInt32} {number form : Decimal}
    (same : number.value = form.value) (reaches : number.Reaches 0) (reaches' : form.Reaches 0)
    (short : Int64.ofNat displayScale.toNat < number.strip.scale → number.strip.IsShort)
    (short' : Int64.ofNat displayScale.toNat < form.strip.scale → form.strip.IsShort) :
    finalForm displayScale number = finalForm displayScale form := by
  refine (Decimal.isCanonical_finalForm displayScale number).toIsReduced.eq_of_value_eq
    (Decimal.isCanonical_finalForm displayScale form).toIsReduced ?_
  rw [Decimal.value_finalForm displayScale reaches short,
    Decimal.value_finalForm displayScale reaches' short', same]

theorem evaluate_concur {left right : Expression} (same : left.SameNumbers right)
    (fits : EvaluationFits context left) (fits' : EvaluationFits context right) :
    Concur Eq (evaluate .standard context left) (evaluate .standard context right) := by
  rw [evaluate_eq, evaluate_eq]
  refine (walk_concur same fits.walk fits'.walk).bind fun value form values found found' => ?_
  refine .checked fun reach reach' => ?_
  exact Value.map_eq_map values fun number member image member' numbers =>
    finalForm_eq numbers (reach number member) (reach' image member')
      (fits.result value found number member) (fits'.result form found' image member')

/-- Results depend on the numbers written, not on how they are written. -/
theorem evaluate_sameNumbers (context : Context) {left right : Expression}
    (same : left.SameNumbers right) (fits : EvaluationFits context left)
    (fits' : EvaluationFits context right)
    (inside : evaluate .standard context left ≠ .error .overflow)
    (inside' : evaluate .standard context right ≠ .error .overflow)
    (small : ∀ exponent, evaluate .standard context left ≠ .error (.exponentTooLarge exponent))
    (small' : ∀ exponent, evaluate .standard context right ≠ .error (.exponentTooLarge exponent)) :
    (∃ result, evaluate .standard context left = .ok result ∧
        evaluate .standard context right = .ok result) ∨
      ∃ fault fault' : EvaluationError, evaluate .standard context left = .error fault ∧
        evaluate .standard context right = .error fault' ∧ fault.ctorIdx = fault'.ctorIdx := by
  have concur := evaluate_concur same fits fits'
  generalize evaluate .standard context left = outcome at concur inside small ⊢
  generalize evaluate .standard context right = outcome' at concur inside' small' ⊢
  cases concur with
  | ok equal => exact Or.inl ⟨_, rfl, equal ▸ rfl⟩
  | error alike => exact Or.inr ⟨_, _, rfl, rfl, alike⟩
  | leftTooLarge exponent => exact absurd rfl (small exponent)
  | rightTooLarge _ exponent => exact absurd rfl (small' exponent)
  | leftOverflow => exact absurd rfl inside
  | rightOverflow => exact absurd rfl inside'

theorem walkFits_quotient {dividend divisor : String} {left right : Decimal}
    (read : Decimal.ofText? dividend = some left) (readRight : Decimal.ofText? divisor = some right) :
    WalkFits context (.operator '/' (.number dividend) (.number divisor)) := by
  refine ⟨trivial, fun leftValue found => ⟨trivial, fun rightValue reached => ?_⟩⟩
  rw [walk, literalValue, read] at found
  rw [walk, literalValue, readRight] at reached
  obtain rfl := Except.ok.inj found
  obtain rfl := Except.ok.inj reached
  exact ⟨fun power => absurd power (by decide), fun _ _ => trivial⟩

theorem evaluate_sameNumbers_quotient :
    let tree : Expression := .operator '/' (.number "1.50") (.number "4")
    let other : Expression := .operator '/' (.number "0.15e1") (.number "4.0")
    tree.SameNumbers other ∧ EvaluationFits {} tree ∧ EvaluationFits {} other ∧
      ∃ result, evaluate .standard {} tree = .ok result ∧
        evaluate .standard {} other = .ok result := by
  intro tree other
  have dividend : Decimal.ofText? "1.50" = some ⟨150, 2⟩ := by cbv
  have dividendForm : Decimal.ofText? "0.15e1" = some ⟨15, 1⟩ := by cbv
  have divisor : Decimal.ofText? "4" = some ⟨4, 0⟩ := by cbv
  have divisorForm : Decimal.ofText? "4.0" = some ⟨40, 1⟩ := by cbv
  have same : tree.SameNumbers other := by
    refine .operator '/' (.number dividend dividendForm ?_) (.number divisor divisorForm ?_)
    · change (150 : ℚ) / 10 ^ (2 : Int) = 15 / 10 ^ (1 : Int)
      norm_num
    · change (4 : ℚ) / 10 ^ (0 : Int) = 40 / 10 ^ (1 : Int)
      norm_num
  let quotient : Decimal := ⟨37500000000000000000, 20⟩
  have walked : walk .standard {} tree = .ok (.scalar quotient) := by cbv
  have walkedForm : walk .standard {} other = .ok (.scalar quotient) := by cbv
  have result (value : Value) (is : (.ok (.scalar quotient) : Outcome Value) = .ok value) :
      ∀ number ∈ value.flatten, Int64.ofNat ({} : Context).displayScale.toNat < number.strip.scale →
        number.strip.IsShort := by
    obtain rfl := Except.ok.inj is
    simp [Value.scalar, Value.flatten, Value.flattenItems, quotient]
    decide
  have fits : EvaluationFits {} tree :=
    ⟨walkFits_quotient dividend divisor,
      fun value found => result value (walked ▸ found)⟩
  have fits' : EvaluationFits {} other :=
    ⟨walkFits_quotient dividendForm divisorForm,
      fun value found => result value (walkedForm ▸ found)⟩
  have evaluated : evaluate .standard {} tree = .ok (.scalar ⟨375, 3⟩) := by cbv
  have evaluatedForm : evaluate .standard {} other = .ok (.scalar ⟨375, 3⟩) := by cbv
  refine ⟨same, fits, fits', ?_⟩
  rcases evaluate_sameNumbers {} same fits fits' (by simp [evaluated]) (by simp [evaluatedForm])
    (by simp [evaluated]) (by simp [evaluatedForm]) with results | ⟨fault, _, failed, _⟩
  · exact results
  · rw [evaluated] at failed
    cases failed

end Evaluation
end DecimalCalculator
