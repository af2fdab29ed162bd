/-
Evaluation without division is exact.

A tree of literals, negations, brackets, lists, percentages, sums, differences and
products has a value over the rational numbers.  Unless it is broken off because a scale
leaves the words, evaluation succeeds exactly if there is one, and as long as the numbers
that it rounds are short the result is this value, each number of it rounded once.
-/

import Mathlib
import DecimalCalculator.Evaluation.Standard
import DecimalCalculator.Expression.Nodes
import DecimalCalculator.Proofs.Decimal.Forms
import DecimalCalculator.Proofs.Decimal.Shortest
import DecimalCalculator.Proofs.Evaluation.Broadcast
import DecimalCalculator.Proofs.Value.Final
import DecimalCalculator.Proofs.Value.Rational

namespace DecimalCalculator

/-! ### Values over the rational numbers -/

namespace Expression

/-- What brackets of a kind do to a number: round brackets keep it. -/
def exactBrackets (kind : Nat) (value : ℚ) : ℚ :=
  if kind = squareBrackets then RoundingMode.halfUp.round value
  else if kind = floorBrackets then ⌊value⌋
  else if kind = ceilingBrackets then ⌈value⌉
  else value

/-- What an operator does to two numbers; of a percentage the part of the left
number is added or subtracted. -/
def exactOperation (symbol : Char) (isPercentage : Bool) (left right : ℚ) : ℚ :=
  if symbol = '*' then left * right
  else if symbol = '+' then left + (if isPercentage then left * right else right)
  else left - (if isPercentage then left * right else right)

mutual

/-- The value of a tree over the rational numbers, if it has one. -/
def exactValue? : Expression → Option RationalValue
  | .number text => (Decimal.ofText? text).map fun number => .scalar number.value
  | .negative operand => do return (← exactValue? operand).map (- ·)
  | .brackets kind content => do return (← exactValue? content).map (exactBrackets kind)
  | .suffix _ count operand => do return (← exactOptional? operand).map (· / 100 ^ count)
  | .list items => do return .list (← exactItems? items)
  | .operator symbol left right => do
      let leftValue ← exactValue? left
      let rightValue ← exactValue? right
      leftValue.broadcast (exactOperation symbol (right.isSuffix percentSign)) rightValue
  | .function _ _ _ => none
  | .constant _ => none

def exactOptional? : Option Expression → Option RationalValue
  | none => none
  | some expression => exactValue? expression

def exactItems? : List Expression → Option (List RationalValue)
  | [] => some []
  | item :: rest => do
      let value ← exactValue? item
      return value.asItem :: (← exactItems? rest)

end

/-- Whether the outermost node needs no division: a literal, a negation, brackets, a
list, percent signs, a sum, a difference or a product. -/
def IsExact : Expression → Prop
  | .number _ => True
  | .negative _ => True
  | .brackets kind _ => kind ∈ SymbolTables.standard.brackets.map (·.kind)
  | .suffix symbol _ _ => symbol = percentSign
  | .list _ => True
  | .operator symbol _ _ => symbol = '+' ∨ symbol = '-' ∨ symbol = '*'
  | .function _ _ _ => False
  | .constant _ => False

def IsDivisionFree (tree : Expression) : Prop :=
  ∀ node : Expression, node.Occurs tree → node.IsExact

theorem isSuffix_number (symbol : Char) (text : String) :
    (Expression.number text).isSuffix symbol = false :=
  rfl

theorem exactOperation_product (isPercentage : Bool) (left right : ℚ) :
    exactOperation '*' isPercentage left right = left * right :=
  rfl

theorem exactOperation_sum (left right : ℚ) :
    exactOperation '+' false left right = left + right :=
  rfl

section Scalars

variable {left right operand : Expression} {first second number : ℚ}

theorem exactValue?_number {text : String} {number : Decimal}
    (read : Decimal.ofText? text = some number) :
    (Expression.number text).exactValue? = some (.scalar number.value) := by
  rw [exactValue?, read]
  rfl

theorem exactValue?_operator (symbol : Char) (known : left.exactValue? = some (.scalar first))
    (other : right.exactValue? = some (.scalar second)) :
    (Expression.operator symbol left right).exactValue? =
      some (.scalar (exactOperation symbol (right.isSuffix percentSign) first second)) := by
  rw [exactValue?, known, other]
  rfl

theorem exactValue?_brackets (kind : Nat) (known : operand.exactValue? = some (.scalar number)) :
    (Expression.brackets kind operand).exactValue? = some (.scalar (exactBrackets kind number)) := by
  rw [exactValue?, known]
  rfl

theorem exactValue?_suffix (symbol : Char) (count : Nat)
    (known : operand.exactValue? = some (.scalar number)) :
    (Expression.suffix symbol count (some operand)).exactValue? =
      some (.scalar (number / 100 ^ count)) := by
  rw [exactValue?, exactOptional?, known]
  rfl

end Scalars

theorem IsDivisionFree.under {child tree : Expression} (plain : tree.IsDivisionFree)
    (member : child ∈ tree.children) : child.IsDivisionFree :=
  fun node inside => plain node (.under member inside)

theorem forall_occurs {holds : Expression → Prop} {tree : Expression} (here : holds tree)
    (below : ∀ child ∈ tree.children, ∀ node : Expression, node.Occurs child → holds node) :
    ∀ node : Expression, node.Occurs tree → holds node := by
  intro node occurs
  cases occurs with
  | here => exact here
  | under member inside => exact below _ member node inside

theorem isDivisionFree_number (text : String) : (Expression.number text).IsDivisionFree :=
  forall_occurs trivial fun _ absent => nomatch absent

theorem IsDivisionFree.operator {symbol : Char} {left right : Expression}
    (plain : symbol = '+' ∨ symbol = '-' ∨ symbol = '*') (first : left.IsDivisionFree)
    (second : right.IsDivisionFree) : (Expression.operator symbol left right).IsDivisionFree :=
  forall_occurs plain
    (List.forall_mem_cons.mpr ⟨first, List.forall_mem_cons.mpr ⟨second, nofun⟩⟩)

theorem IsDivisionFree.percent {operand : Expression} (count : Nat)
    (inner : operand.IsDivisionFree) :
    (Expression.suffix percentSign count (some operand)).IsDivisionFree :=
  forall_occurs rfl (List.forall_mem_cons.mpr ⟨inner, nofun⟩)

theorem IsDivisionFree.brackets {kind : Nat} {content : Expression}
    (known : kind ∈ SymbolTables.standard.brackets.map (·.kind))
    (inner : content.IsDivisionFree) : (Expression.brackets kind content).IsDivisionFree :=
  forall_occurs known (List.forall_mem_cons.mpr ⟨inner, nofun⟩)

end Expression

namespace Decimal

def bracketed (kind : Nat) (number : Decimal) : Decimal :=
  if kind = squareBrackets then number.nearestInteger
  else if kind = floorBrackets then number.floor
  else if kind = ceilingBrackets then number.ceiling
  else number

def combined (symbol : Char) (isPercentage : Bool) (left right : Decimal) : Decimal :=
  if symbol = '*' then left * right
  else if symbol = '+' then left + (if isPercentage then left * right else right)
  else left - (if isPercentage then left * right else right)

def OperandsFit (symbol : Char) (isPercentage : Bool) (left right : Decimal) : Prop :=
  if symbol = '*' then IsWord (left.scale.toInt + right.scale.toInt)
  else if isPercentage then
    IsWord (left.scale.toInt + right.scale.toInt) ∧ Aligned left (left * right)
  else Aligned left right

instance (symbol : Char) (isPercentage : Bool) (left right : Decimal) :
    Decidable (OperandsFit symbol isPercentage left right) :=
  inferInstanceAs (Decidable (if symbol = '*' then _ else if isPercentage then _ else _))

/-- The scales of the percent signs and of the result are words. -/
def HundredthsFit (count : Nat) (number : Decimal) : Prop :=
  IsWord (2 * count) ∧ IsWord (number.scale.toInt + 2 * count)

instance (count : Nat) (number : Decimal) : Decidable (HundredthsFit count number) :=
  inferInstanceAs (Decidable (_ ∧ _))

theorem value_setScale_zero (mode : RoundingMode) {number : Decimal} (reaches : number.Reaches 0)
    (short : 0 < number.scale → number.IsShort) :
    (number.setScale 0 mode).value = mode.round number.value := by
  rw [setScale_eq mode reaches fun far => short (lt_scale_of_far far)]
  change (Int.cast (mode.round (number.value * 10 ^ (0 : Int64).toInt)) : ℚ) /
    10 ^ (0 : Int64).toInt = _
  rw [Int64.toInt_zero, zpow_zero, mul_one, div_one]

theorem value_bracketed {kind : Nat} {number : Decimal}
    (reaches : kind ≠ roundBrackets → number.Reaches 0)
    (short : kind ≠ roundBrackets → 0 < number.scale → number.IsShort) :
    (number.bracketed kind).value = Expression.exactBrackets kind number.value := by
  have rounded (mode : RoundingMode) (other : kind ≠ roundBrackets) :
      (number.setScale 0 mode).value = mode.round number.value :=
    value_setScale_zero mode (reaches other) (short other)
  unfold bracketed Expression.exactBrackets
  split
  · rename_i square
    exact rounded .halfUp (by rw [square]; decide)
  · split
    · rename_i floor
      exact rounded .floor (by rw [floor]; decide)
    · split
      · rename_i ceiling
        exact rounded .ceiling (by rw [ceiling]; decide)
      · rfl

theorem value_combined {symbol : Char} {isPercentage : Bool} {left right : Decimal}
    (fits : OperandsFit symbol isPercentage left right) :
    (combined symbol isPercentage left right).value =
      Expression.exactOperation symbol isPercentage left.value right.value := by
  unfold OperandsFit at fits
  unfold combined Expression.exactOperation
  by_cases product : symbol = '*'
  · rw [if_pos product] at fits
    rw [if_pos product, if_pos product, value_mul fits]
  · rw [if_neg product] at fits
    rw [if_neg product, if_neg product]
    cases isPercentage with
    | true =>
        have part := value_mul fits.1
        by_cases sum : symbol = '+'
        · rw [if_pos sum, if_pos sum]
          exact (value_add fits.2).trans (congrArg _ part)
        · rw [if_neg sum, if_neg sum]
          exact (value_sub fits.2).trans (congrArg _ part)
    | false =>
        by_cases sum : symbol = '+'
        · rw [if_pos sum, if_pos sum]
          exact value_add fits
        · rw [if_neg sum, if_neg sum]
          exact value_sub fits

theorem combined_product (isPercentage : Bool) (left right : Decimal) :
    combined '*' isPercentage left right = left * right :=
  rfl

end Decimal

namespace Evaluation

open Expression (exactValue? exactItems? exactOptional? exactOperation exactBrackets)

variable {context : Context}

/-! ### Steps of the walk -/

theorem operation_eq {symbol : Char} (plain : symbol = '+' ∨ symbol = '-' ∨ symbol = '*')
    (right : Expression) :
    operation .standard context symbol right = fun left number =>
      unlessOverflow (Decimal.OperandsFit symbol (right.isSuffix percentSign) left number)
        (Decimal.combined symbol (right.isSuffix percentSign) left number) := by
  funext left number
  unfold operation
  cases percent : right.isSuffix percentSign with
  | true =>
      have part (symbol : Char) (combine : Decimal → Outcome Decimal) :
          resolved (.percentNotAllowed symbol) (do
            let part ← Decimal.Checked.mul left number
            some <$> combine part) =
          Decimal.Checked.mul left number >>= combine := by
        rw [← map_bind, resolved_map_some]
      simp only [↓reduceIte]
      rcases plain with rfl | rfl | rfl
      · exact (part '+' (Decimal.Checked.add left)).trans unlessOverflow_bind
      · exact (part '-' (Decimal.Checked.sub left)).trans unlessOverflow_bind
      · exact (part '*' Except.ok).trans (bind_pure _)
  | false =>
      rw [if_neg Bool.false_ne_true]
      rcases plain with rfl | rfl | rfl
      · exact resolved_map_some _ _
      · exact resolved_map_some _ _
      · exact resolved_map_some _ _

theorem brackets_eq {kind : Nat} (known : kind ∈ SymbolTables.standard.brackets.map (·.kind))
    (number : Decimal) :
    resolved (.unknownBracketKind kind) (Resolvers.standard.brackets kind number context) =
      unlessOverflow (kind ≠ roundBrackets → number.Reaches 0) (number.bracketed kind) := by
  have kinds : kind = 1 ∨ kind = 2 ∨ kind = 3 ∨ kind = 4 := by
    simpa [SymbolTables.standard, roundBrackets, squareBrackets, floorBrackets, ceilingBrackets]
      using known
  have rounded {kind : Nat} (other : kind ≠ roundBrackets) {result : Decimal} :
      unlessOverflow (number.Meets 0) result =
        unlessOverflow (kind ≠ roundBrackets → number.Reaches 0) result :=
    unlessOverflow_congr ⟨fun meets _ => meets.1, fun reaches => .of_reaches (reaches other)⟩
      fun _ => rfl
  rcases kinds with rfl | rfl | rfl | rfl
  · rfl
  · exact (resolved_map_some _ _).trans (rounded (by decide))
  · exact (resolved_map_some _ _).trans (rounded (by decide))
  · exact (resolved_map_some _ _).trans (rounded (by decide))

theorem percent_eq (count : Nat) (number : Decimal) :
    resolved (.unknownSuffix percentSign)
        (Resolvers.standard.suffixes percentSign count number context) =
      unlessOverflow (Decimal.HundredthsFit count number)
        (number * (⟨1, 2⟩ : Decimal).power count) := by
  have combined : resolved (.unknownSuffix percentSign)
      (Resolvers.standard.suffixes percentSign count number context) =
        (Decimal.Checked.power ⟨1, 2⟩ count >>= fun part => Decimal.Checked.mul number part) := by
    change resolved _ (do
      let part ← Decimal.Checked.power ⟨1, 2⟩ count
      let product ← Decimal.Checked.mul number part
      return some product) = _
    simp only [bind_pure_comp]
    rw [← map_bind, resolved_map_some]
  rw [combined, Decimal.Checked.power_eq]
  refine unlessOverflow_bind.trans (unlessOverflow_congr (and_congr_right fun word => ?_) fun _ => rfl)
  rw [Decimal.toInt_scale_power word]
  rfl

theorem broadcast_unlessOverflow_eq (symbol : Char) (allowed : Decimal → Decimal → Prop)
    [∀ left right, Decidable (allowed left right)] (operation : Decimal → Decimal → Decimal)
    (left right : Value) :
    broadcast symbol (fun left right =>
        unlessOverflow (allowed left right) (operation left right)) left right =
      match left.scalar?, right.scalar? with
      | some scalar, _ => unlessOverflow (∀ number ∈ right.flatten, allowed scalar number)
          (right.map fun number => operation scalar number)
      | none, some scalar => unlessOverflow (∀ number ∈ left.flatten, allowed number scalar)
          (left.map fun number => operation number scalar)
      | none, none => .error (.operatorBetweenLists symbol) := by
  unfold broadcast
  cases left.scalar? with
  | some scalar => exact Value.tryMap_unlessOverflow (allowed scalar) _ right
  | none =>
      cases right.scalar? with
      | some scalar => exact Value.tryMap_unlessOverflow (fun number => allowed number scalar) _ left
      | none => rfl

section Scalars

variable {left right operand : Expression} {first second number : Decimal}

theorem walk_operator {symbol : Char} (plain : symbol = '+' ∨ symbol = '-' ∨ symbol = '*')
    (walkedLeft : walk .standard context left = .ok (.scalar first))
    (walkedRight : walk .standard context right = .ok (.scalar second)) :
    walk .standard context (.operator symbol left right) =
      Value.scalar <$> unlessOverflow
        (Decimal.OperandsFit symbol (right.isSuffix percentSign) first second)
        (Decimal.combined symbol (right.isSuffix percentSign) first second) := by
  rw [walk, walkedLeft, walkedRight, operation_eq plain]
  exact Value.tryMap_scalar _ second

theorem walk_product (walkedLeft : walk .standard context left = .ok (.scalar first))
    (walkedRight : walk .standard context right = .ok (.scalar second))
    (word : Decimal.IsWord (first.scale.toInt + second.scale.toInt)) :
    walk .standard context (.operator '*' left right) = .ok (.scalar (first * second)) := by
  rw [walk_operator (Or.inr (Or.inr rfl)) walkedLeft walkedRight, Decimal.combined_product,
    unlessOverflow_of]
  · rfl
  · exact word

theorem walk_brackets {kind : Nat}
    (known : kind ∈ SymbolTables.standard.brackets.map (·.kind))
    (walked : walk .standard context operand = .ok (.scalar number)) :
    walk .standard context (.brackets kind operand) =
      Value.scalar <$> unlessOverflow (kind ≠ roundBrackets → number.Reaches 0)
        (number.bracketed kind) := by
  rw [walk, walked]
  exact (Value.tryMap_scalar _ number).trans (congrArg (Value.scalar <$> ·) (brackets_eq known number))

theorem walk_percent (count : Nat)
    (walked : walk .standard context operand = .ok (.scalar number)) :
    walk .standard context (.suffix percentSign count (some operand)) =
      Value.scalar <$> unlessOverflow (Decimal.HundredthsFit count number)
        (number * (⟨1, 2⟩ : Decimal).power count) := by
  rw [walk, walkOptional, walked]
  exact (Value.tryMap_scalar _ number).trans (congrArg (Value.scalar <$> ·) (percent_eq count number))

end Scalars

/-! ### The walk -/

/-- What the scales of a node must satisfy: every sum of scales is a word, and so is the
distance of two scales that are brought together. -/
def NodeFits (context : Context) : Expression → Prop
  | .brackets kind content => kind ≠ roundBrackets →
      ∀ value, walk .standard context content = .ok value →
        ∀ number ∈ value.flatten, number.Reaches 0
  | .suffix _ count (some operand) =>
      ∀ value, walk .standard context operand = .ok value →
        ∀ number ∈ value.flatten, Decimal.HundredthsFit count number
  | .operator symbol left right =>
      ∀ leftValue rightValue, walk .standard context left = .ok leftValue →
        walk .standard context right = .ok rightValue →
          ∀ first ∈ leftValue.flatten, ∀ second ∈ rightValue.flatten,
            Decimal.OperandsFit symbol (right.isSuffix percentSign) first second
  | _ => True

/-- The numbers that lose digits in brackets have few enough of them. -/
def RoundsShort (context : Context) : Expression → Prop
  | .brackets kind content => kind ≠ roundBrackets →
      ∀ value, walk .standard context content = .ok value →
        ∀ number ∈ value.flatten, 0 < number.scale → number.IsShort
  | _ => True

def Fits (context : Context) (tree : Expression) : Prop :=
  ∀ node : Expression, node.Occurs tree → NodeFits context node

def Short (context : Context) (tree : Expression) : Prop :=
  ∀ node : Expression, node.Occurs tree → RoundsShort context node

theorem Fits.under {child tree : Expression} (fits : Fits context tree)
    (member : child ∈ tree.children) : Fits context child :=
  fun node inside => fits node (.under member inside)

theorem Short.under {child tree : Expression} (short : Short context tree)
    (member : child ∈ tree.children) : Short context child :=
  fun node inside => short node (.under member inside)

theorem short_number (text : String) : Short context (.number text) :=
  Expression.forall_occurs trivial fun _ absent => nomatch absent

/-- An outcome of the walk and a value over the rational numbers belong together.  Either the
words did not suffice, or both are there or neither is; then they have the same shape, and
they are equal if all numbers that lose digits are short. -/
inductive Agrees (fits short : Prop) : Outcome Value → Option RationalValue → Prop where
  | brokenOff (exact : Option RationalValue) (breaks : ¬fits) :
      Agrees fits short (.error .overflow) exact
  | failed {fault : EvaluationError} (other : fault ≠ .overflow) :
      Agrees fits short (.error fault) none
  | reached {value : Value} {exact : RationalValue}
      (shape : value.toRational.shape = exact.shape) (equal : short → value.toRational = exact) :
      Agrees fits short (.ok value) (some exact)

namespace Agrees

variable {fits short : Prop} {outcome : Outcome Value} {exact : Option RationalValue}

theorem mono {moreFits moreShort : Prop} (agrees : Agrees fits short outcome exact)
    (stronger : moreFits → fits) (stronger' : moreShort → short) :
    Agrees moreFits moreShort outcome exact := by
  cases agrees with
  | brokenOff exact breaks => exact .brokenOff exact fun holds => breaks (stronger holds)
  | failed other => exact .failed other
  | reached shape equal => exact .reached shape fun holds => equal (stronger' holds)

theorem checked {words : Prop} [Decidable words] {value : Value} {exact : RationalValue}
    (within : fits → words) (shape : value.toRational.shape = exact.shape)
    (equal : words → short → value.toRational = exact) :
    Agrees fits short (unlessOverflow words value) (some exact) := by
  by_cases holds : words
  · rw [unlessOverflow_of holds]
    exact .reached shape (equal holds)
  · rw [unlessOverflow_of_not holds]
    exact .brokenOff _ fun fitting => holds (within fitting)

theorem map (agrees : Agrees fits short outcome exact) (allowed : Decimal → Prop)
    [DecidablePred allowed] (transform : Decimal → Decimal) (exactly : ℚ → ℚ)
    (within : fits → ∀ value, outcome = .ok value → ∀ number ∈ value.flatten, allowed number)
    (carries : short → ∀ value, outcome = .ok value → ∀ number ∈ value.flatten, allowed number →
      (transform number).value = exactly number.value) :
    Agrees fits short
      (do (← outcome).tryMap fun number => unlessOverflow (allowed number) (transform number))
      (do return (← exact).map exactly) := by
  cases agrees with
  | brokenOff exact breaks => exact .brokenOff _ breaks
  | failed other => exact .failed other
  | @reached value exact shape equal =>
      change Agrees fits short
        (value.tryMap fun number => unlessOverflow (allowed number) (transform number)) (some _)
      rw [Value.tryMap_unlessOverflow]
      refine .checked (fun fitting => within fitting value rfl) ?_ fun every holds => ?_
      · rw [Value.shape_toRational_map, RationalValue.shape_map]
        exact shape
      · rw [← equal holds]
        exact Value.toRational_map fun number member =>
          carries holds value rfl number member (every number member)

theorem mem_flatten_of_scalar? {value : Value} {number : Decimal}
    (known : value.scalar? = some number) : number ∈ value.flatten := by
  rw [Value.scalar?_eq_some_iff.mp known]
  exact List.mem_cons_self

theorem scalar_of_scalar? {value : Value} {number : Decimal}
    (known : value.scalar? = some number) : value.toRational.scalar? = some number.value := by
  rw [Value.scalar?_toRational, known]
  rfl

theorem scalar?_eq_none_iff {value : Value} {exact : RationalValue}
    (same : value.toRational.shape = exact.shape) :
    value.scalar? = none ↔ exact.scalar? = none := by
  have scalars := congrArg RationalValue.scalar? same
  rw [RationalValue.shape, RationalValue.shape, RationalValue.scalar?_map,
    RationalValue.scalar?_map, Value.scalar?_toRational] at scalars
  have known := congrArg Option.isNone scalars
  rw [Option.isNone_map, Option.isNone_map, Option.isNone_map] at known
  rw [← Option.isNone_iff_eq_none, known, Option.isNone_iff_eq_none]

theorem broadcast {symbol : Char} (allowed : Decimal → Decimal → Prop)
    [∀ left right, Decidable (allowed left right)] {operation : Decimal → Decimal → Decimal}
    {exactly : ℚ → ℚ → ℚ} {left right : Outcome Value} {exactLeft exactRight : Option RationalValue}
    (first : Agrees fits short left exactLeft) (second : Agrees fits short right exactRight)
    (within : fits → ∀ leftValue rightValue, left = .ok leftValue → right = .ok rightValue →
      ∀ first ∈ leftValue.flatten, ∀ second ∈ rightValue.flatten, allowed first second)
    (carries : ∀ first second, allowed first second →
      (operation first second).value = exactly first.value second.value) :
    Agrees fits short
      (do
        let leftValue ← left
        let rightValue ← right
        Evaluation.broadcast symbol
          (fun left right => unlessOverflow (allowed left right) (operation left right))
          leftValue rightValue)
      (do
        let leftValue ← exactLeft
        let rightValue ← exactRight
        leftValue.broadcast exactly rightValue) := by
  cases first with
  | brokenOff exact breaks => exact .brokenOff _ breaks
  | failed other => exact .failed other
  | @reached left exactLeft leftShape leftEqual =>
      cases second with
      | brokenOff exact breaks => exact .brokenOff _ breaks
      | failed other => exact .failed other
      | @reached right exactRight rightShape rightEqual =>
          change Agrees fits short (Evaluation.broadcast symbol _ left right)
            (exactLeft.broadcast exactly exactRight)
          have leftScalars := scalar?_eq_none_iff leftShape
          have rightScalars := scalar?_eq_none_iff rightShape
          rw [broadcast_unlessOverflow_eq, RationalValue.broadcast]
          cases leftKnown : left.scalar? with
          | some scalar =>
              rw [leftKnown] at leftScalars
              obtain ⟨exactScalar, exactKnown⟩ := Option.ne_none_iff_exists'.mp
                (mt leftScalars.mpr (Option.some_ne_none scalar))
              rw [exactKnown]
              refine .checked (fun fitting => within fitting left right rfl rfl scalar
                (mem_flatten_of_scalar? leftKnown)) ?_ fun every holds => ?_
              · rw [Value.shape_toRational_map, RationalValue.shape_map]
                exact rightShape
              · rw [← leftEqual holds, scalar_of_scalar? leftKnown] at exactKnown
                cases exactKnown
                rw [← rightEqual holds]
                exact Value.toRational_map fun number member =>
                  carries scalar number (every number member)
          | none =>
              rw [leftScalars.mp leftKnown]
              cases rightKnown : right.scalar? with
              | some scalar =>
                  rw [rightKnown] at rightScalars
                  obtain ⟨exactScalar, exactKnown⟩ := Option.ne_none_iff_exists'.mp
                    (mt rightScalars.mpr (Option.some_ne_none scalar))
                  rw [exactKnown]
                  refine .checked (fun fitting number member => within fitting left right rfl rfl
                    number member scalar (mem_flatten_of_scalar? rightKnown)) ?_ fun every holds => ?_
                  · rw [Value.shape_toRational_map, RationalValue.shape_map]
                    exact leftShape
                  · rw [← rightEqual holds, scalar_of_scalar? rightKnown] at exactKnown
                    cases exactKnown
                    rw [← leftEqual holds]
                    exact Value.toRational_map fun number member =>
                      carries number scalar (every number member)
              | none =>
                  rw [rightScalars.mp rightKnown]
                  exact .failed nofun

theorem cons {value : Value} {values : List Value} {first : RationalValue}
    {others : List RationalValue} (head : Agrees fits short (.ok value) (some first))
    (later : Agrees fits short (.ok (.list values)) (some (.list others))) :
    Agrees fits short (.ok (.list (asItem value :: values)))
      (some (.list (first.asItem :: others))) := by
  cases head with
  | reached headShape headEqual =>
      cases later with
      | reached laterShape laterEqual =>
          rw [Value.toRational_list] at laterShape laterEqual
          refine .reached ?_ fun holds => ?_
          · rw [RationalValue.shape_list, RationalValue.shape_list,
              RationalValue.list.injEq] at laterShape
            rw [Value.toRational_list, RationalValue.shape_list, RationalValue.shape_list,
              List.map_cons, List.map_cons, List.map_cons, laterShape, Value.toRational_asItem,
              ← RationalValue.asItem_shape, ← RationalValue.asItem_shape, headShape]
          · rw [Value.toRational_list, List.map_cons, Value.toRational_asItem, headEqual holds,
              RationalValue.list.inj (laterEqual holds)]

theorem list {items : List Expression}
    (every : ∀ item ∈ items,
      Agrees fits short (walk .standard context item) (exactValue? item)) :
    Agrees fits short (do return .list (← walkItems .standard context items))
      (do return .list (← exactItems? items)) := by
  induction items with
  | nil => exact .reached rfl fun _ => rfl
  | cons item rest ih =>
      obtain ⟨head, tail⟩ := List.forall_mem_cons.mp every
      have later := ih tail
      rw [walkItems, exactItems?]
      generalize walk .standard context item = outcome, exactValue? item = exact at head
      cases head with
      | brokenOff exact breaks => exact .brokenOff _ breaks
      | failed other => exact .failed other
      | reached shape equal =>
          generalize walkItems .standard context rest = outcomes, exactItems? rest = exacts at later
          cases outcomes with
          | error fault =>
              cases exacts with
              | none =>
                  cases later with
                  | brokenOff exact breaks => exact .brokenOff _ breaks
                  | failed other => exact .failed other
              | some exacts =>
                  cases later with
                  | brokenOff exact breaks => exact .brokenOff _ breaks
          | ok values =>
              cases exacts with
              | none => cases later
              | some exacts => exact cons (.reached shape equal) later

/-- What is granted for a tree is granted for each of its children. -/
theorem under {child tree : Expression} (member : child ∈ tree.children)
    (agrees : Agrees (Fits context child) (Short context child) outcome exact) :
    Agrees (Fits context tree) (Short context tree) outcome exact :=
  agrees.mono (fun fits => fits.under member) fun short => short.under member

end Agrees

theorem agrees_walk (tree : Expression) (plain : tree.IsDivisionFree) :
    Agrees (Fits context tree) (Short context tree) (walk .standard context tree)
      (exactValue? tree) := by
  induction tree with
  | number text =>
      rw [walk, literalValue, exactValue?]
      cases Decimal.ofText? text with
      | none => exact .failed EvaluationError.noConfusion
      | some number => exact .reached rfl fun _ => rfl
  | constant name => exact (plain _ .here).elim
  | function name nameSuffix operand => exact (plain _ .here).elim
  | negative operand ih =>
      have child : operand ∈ (Expression.negative operand).children := List.mem_cons_self
      have inner := (ih (plain.under child)).under child
      rw [walk, exactValue?]
      exact inner.map (fun _ => True) (- ·) (- ·) (fun _ _ _ _ _ => trivial)
        fun _ _ _ number _ _ => number.value_neg
  | brackets kind content ih =>
      have child : content ∈ (Expression.brackets kind content).children := List.mem_cons_self
      have inner := (ih (plain.under child)).under child
      have known : kind ∈ SymbolTables.standard.brackets.map (·.kind) := plain _ .here
      have step : (fun number => resolved (.unknownBracketKind kind)
          (Resolvers.standard.brackets kind number context)) = _ :=
        funext fun number => brackets_eq known number
      rw [walk, exactValue?, step]
      refine inner.map (fun number => kind ≠ roundBrackets → number.Reaches 0) _ _ ?_ ?_
      · exact fun fits value walked number member rounds =>
          fits _ .here rounds value walked number member
      · exact fun short value walked number member reaches => Decimal.value_bracketed reaches
          fun rounds => short _ .here rounds value walked number member
  | suffix symbol count operand ih =>
      have percent : symbol = percentSign := plain _ .here
      subst percent
      rw [walk, exactValue?]
      cases operand with
      | none => exact .failed EvaluationError.noConfusion
      | some operand =>
          have child : operand ∈ (Expression.suffix percentSign count (some operand)).children :=
            List.mem_cons_self
          have inner := (ih operand rfl (plain.under child)).under child
          have mapped := inner.map (Decimal.HundredthsFit count)
            (· * (⟨1, 2⟩ : Decimal).power count) (· / 100 ^ count)
            (fun fits value walked number member => fits _ .here value walked number member)
            fun _ _ _ number _ fits => Decimal.value_mul_hundredths fits.2.2
          rw [exactOptional?, walkOptional]
          have step : (fun number => resolved (.unknownSuffix percentSign)
              (Resolvers.standard.suffixes percentSign count number context)) = _ :=
            funext fun number => percent_eq count number
          rw [step]
          revert mapped
          cases walk .standard context operand with
          | error fault => exact id
          | ok value => exact id
  | list items ih =>
      rw [walk, exactValue?]
      exact Agrees.list fun item member => (ih item member (plain.under member)).under member
  | operator symbol left right first second =>
      have leftChild : left ∈ (Expression.operator symbol left right).children :=
        List.mem_cons_self
      have rightChild : right ∈ (Expression.operator symbol left right).children :=
        List.mem_cons_of_mem _ List.mem_cons_self
      have leftAgrees := (first (plain.under leftChild)).under leftChild
      have rightAgrees := (second (plain.under rightChild)).under rightChild
      rw [walk, exactValue?, operation_eq (plain _ .here)]
      refine leftAgrees.broadcast _ rightAgrees ?_ fun _ _ fits => Decimal.value_combined fits
      exact fun fits => fits _ .here

/-! ### Results -/

/-- The tree fits, and the numbers of its value can be brought to the scale 0. -/
structure StaysInWords (context : Context) (tree : Expression) : Prop where
  nodes : Fits context tree
  result : ∀ value, walk .standard context tree = .ok value →
    ∀ number ∈ value.flatten, number.Reaches 0

/-- The numbers that lose digits, in brackets or in the end, have few enough of them. -/
structure LosesFewDigits (context : Context) (tree : Expression) : Prop where
  nodes : Short context tree
  result : ∀ value, walk .standard context tree = .ok value → ∀ number ∈ value.flatten,
    Int64.ofNat context.displayScale.toNat < number.strip.scale → number.strip.IsShort

theorem agrees_evaluate (tree : Expression) (plain : tree.IsDivisionFree) :
    Agrees (StaysInWords context tree) (LosesFewDigits context tree)
      (evaluate .standard context tree)
      (do return (← tree.exactValue?).map (Decimal.roundedTo context.displayScale.toNat)) := by
  have walked : Agrees (StaysInWords context tree) (LosesFewDigits context tree) _ _ :=
    (agrees_walk tree plain).mono (fun words => words.nodes) (fun short => short.nodes)
  refine walked.map (·.Reaches 0) _ _ (fun words => words.result) ?_
  intro short value reached number member reaches
  exact Decimal.value_finalForm _ reaches (short.result value reached number member)

/-- Without division a tree has a result exactly if it has a value over the rational
numbers, unless a scale leaves the words.  The numbers of a result are canonical, and they
are those of this value, each rounded once, if those that lose digits are short. -/
theorem evaluate_exact (context : Context) (tree : Expression) (plain : tree.IsDivisionFree) :
    (evaluate .standard context tree = .error .overflow → ¬StaysInWords context tree) ∧
      (evaluate .standard context tree ≠ .error .overflow →
        ((∃ result, evaluate .standard context tree = .ok result) ↔
          ∃ exact, tree.exactValue? = some exact)) ∧
      ∀ result, evaluate .standard context tree = .ok result →
        (∀ number ∈ result.flatten, number.IsCanonical context.displayScale) ∧
          ∃ exact, tree.exactValue? = some exact ∧ (LosesFewDigits context tree →
            result.toRational = exact.map (Decimal.roundedTo context.displayScale.toNat)) := by
  have agrees : Agrees (StaysInWords context tree) _ _ _ := agrees_evaluate tree plain
  have canonical (result : Value) (reached : evaluate .standard context tree = .ok result) :
      ∀ number ∈ result.flatten, number.IsCanonical context.displayScale := by
    obtain ⟨value, -, -, rfl⟩ := evaluate_eq_ok_iff.mp reached
    intro number member
    obtain ⟨before, -, rfl⟩ := Value.mem_flatten_map.mp member
    exact Decimal.isCanonical_finalForm _ before
  generalize evaluate .standard context tree = outcome at agrees canonical ⊢
  cases known : tree.exactValue? with
  | none =>
      rw [known] at agrees
      cases agrees with
      | brokenOff exact breaks =>
          exact ⟨fun _ => breaks, fun other => absurd rfl other, nofun⟩
      | failed other =>
          refine ⟨fun same => absurd (Except.error.inj same) other, fun _ => ?_, nofun⟩
          exact iff_of_false nofun nofun
  | some exact =>
      rw [known] at agrees
      cases agrees with
      | brokenOff exact breaks =>
          exact ⟨fun _ => breaks, fun other => absurd rfl other, nofun⟩
      | reached shape equal =>
          refine ⟨nofun, fun _ => iff_of_true ⟨_, rfl⟩ ⟨_, rfl⟩, ?_⟩
          rintro result ⟨⟩
          exact ⟨canonical _ rfl, _, rfl, equal⟩

theorem evaluate_exact_percent_off :
    let tree : Expression := .operator '-' (.number "5") (.suffix '%' 1 (some (.number "10")))
    tree.IsDivisionFree ∧ LosesFewDigits {} tree ∧
      evaluate .standard {} tree = .ok (.scalar ⟨45, 1⟩) ∧
      ∃ exact, tree.exactValue? = some exact ∧
        (Value.scalar ⟨45, 1⟩).toRational = exact.map (Decimal.roundedTo 8) := by
  intro tree
  have plain : tree.IsDivisionFree :=
    .operator (Or.inr (Or.inl rfl)) (Expression.isDivisionFree_number _)
      (.percent _ (Expression.isDivisionFree_number _))
  have evaluated : evaluate .standard {} tree = .ok (.scalar ⟨45, 1⟩) := by cbv
  have result : walk .standard {} tree = .ok (.scalar ⟨450, 2⟩) := by cbv
  have percent : Short {} (.suffix '%' 1 (some (.number "10"))) :=
    Expression.forall_occurs trivial
      (List.forall_mem_cons.mpr ⟨short_number _, List.forall_mem_nil _⟩)
  have short : LosesFewDigits {} tree := by
    constructor
    · exact Expression.forall_occurs trivial (List.forall_mem_cons.mpr
        ⟨short_number _, List.forall_mem_cons.mpr ⟨percent, List.forall_mem_nil _⟩⟩)
    · simp [result, Value.scalar, Value.flatten, Value.flattenItems]
      decide
  obtain ⟨-, succeeds, results⟩ := evaluate_exact {} tree plain
  obtain ⟨-, exact, known, equal⟩ := results _ evaluated
  exact ⟨plain, short, evaluated, exact, known, equal short⟩

/-! ### Where the words end -/

/-- A sum of two numbers whose scales are words, but not their distance. -/
def distantSum : Expression :=
  .operator '+' (.suffix '%' 4611686018427387903 (some (.number "0.1"))) (.number "1e1")

def longFactor : Expression :=
  .operator '+' (.number "1") (.number "1e-2147483647")

def longSquare : Expression :=
  .operator '*' longFactor longFactor

/-- A number with more than `2 ^ 32` digits, rounded to an integer. -/
def longProduct : Expression :=
  .brackets squareBrackets (.operator '*' longSquare (.number "1.00"))

theorem exact_distantSum : ∃ exact, distantSum.exactValue? = some exact ∧
    exact.map (Decimal.roundedTo 8) = .scalar 10 := by
  have tenth : Decimal.ofText? "0.1" = some ⟨1, 1⟩ := by cbv
  have ten : Decimal.ofText? "1e1" = some ⟨1, -1⟩ := by cbv
  have tenthValue : (⟨1, 1⟩ : Decimal).value = 1 / 10 := by
    change ((1 : Int) : ℚ) / 10 ^ (1 : Int) = _
    norm_num
  have tenValue : (⟨1, -1⟩ : Decimal).value = (10 : Nat) := by
    change ((1 : Int) : ℚ) / 10 ^ (-1 : Int) = _
    norm_num
  have tiny := Expression.exactValue?_suffix '%' 4611686018427387903
    (Expression.exactValue?_number tenth)
  refine ⟨_, Expression.exactValue?_operator '+' tiny (Expression.exactValue?_number ten), ?_⟩
  rw [tenthValue, tenValue, Expression.isSuffix_number, Expression.exactOperation_sum]
  have power : (100 : ℚ) ^ 5 ≤ 100 ^ 4611686018427387903 :=
    pow_le_pow_right₀ (by norm_num) (by decide)
  have positive : (0 : ℚ) < 100 ^ 4611686018427387903 := pow_pos (by norm_num) _
  generalize (100 : ℚ) ^ 4611686018427387903 = hundreds at power positive
  have small : 1 / 10 / hundreds < 1 / 10 ^ (8 + 1) := by
    rw [div_lt_iff₀ positive]
    norm_num at power ⊢
    linarith
  exact congrArg RationalValue.scalar (Decimal.roundedTo_add_small 10 8 (by positivity) small)

theorem evaluate_distantSum : evaluate .standard {} distantSum = .error .overflow := by
  have tenth : walk .standard {} (.number "0.1") = .ok (.scalar ⟨1, 1⟩) := by cbv
  have ten : walk .standard {} (.number "1e1") = .ok (.scalar ⟨1, -1⟩) := by cbv
  have hundredths : (⟨1, 2⟩ : Decimal).power 4611686018427387903 = ⟨1, 9223372036854775806⟩ := by
    rw [Decimal.power_eq, one_pow]
    rfl
  have tiny := walk_percent 4611686018427387903 tenth
  rw [hundredths, unlessOverflow_of (by decide)] at tiny
  have sum : walk .standard {} distantSum = .error .overflow := by
    refine (walk_operator (Or.inl rfl) tiny ten).trans ?_
    rw [unlessOverflow_of_not (by decide)]
    rfl
  rw [evaluate, sum]
  rfl

theorem exact_longProduct : ∃ exact, longProduct.exactValue? = some exact ∧
    exact.map (Decimal.roundedTo 8) = .scalar 1 := by
  have one : Decimal.ofText? "1" = some 1 := by cbv
  have tiny : Decimal.ofText? "1e-2147483647" = some ⟨1, 2147483647⟩ := by cbv
  have hundred : Decimal.ofText? "1.00" = some ⟨100, 2⟩ := by cbv
  have hundredValue : (⟨100, 2⟩ : Decimal).value = 1 := by
    change ((100 : Int) : ℚ) / 10 ^ (2 : Int) = _
    norm_num
  have factor := Expression.exactValue?_operator '+' (Expression.exactValue?_number one)
    (Expression.exactValue?_number tiny)
  have square := Expression.exactValue?_operator '*' factor factor
  have product := Expression.exactValue?_operator '*' square (Expression.exactValue?_number hundred)
  refine ⟨_, Expression.exactValue?_brackets squareBrackets product, ?_⟩
  obtain ⟨positive, small⟩ : 0 < (⟨1, 2147483647⟩ : Decimal).value ∧
      (⟨1, 2147483647⟩ : Decimal).value ≤ 1 / 10 :=
    Decimal.value_unit 2147483647 (by decide)
  generalize (⟨1, 2147483647⟩ : Decimal).value = part at positive small
  rw [Decimal.value_one, hundredValue, Expression.exactOperation_product, Expression.exactOperation_product,
    Expression.isSuffix_number, Expression.exactOperation_sum, mul_one]
  have split : (1 + part) * (1 + part) = ((1 : Int) : ℚ) + (2 * part + part ^ 2) := by
    push_cast
    ring
  have nearest : Expression.exactBrackets squareBrackets ((1 + part) * (1 + part)) = 1 := by
    have rounded : RoundingMode.halfUp.round ((1 + part) * (1 + part)) = 1 := by
      rw [split]
      exact RoundingMode.nearestOr_add _ 1 (by positivity) (by nlinarith)
    exact (if_pos rfl).trans (by rw [rounded, Int.cast_one])
  rw [nearest]
  have final : Decimal.roundedTo 8 (0 + (1 : Nat)) = (1 : Nat) :=
    Decimal.roundedTo_add_small 1 8 (le_refl 0) (by positivity)
  rw [zero_add, Nat.cast_one] at final
  exact congrArg RationalValue.scalar final

theorem evaluate_longProduct : evaluate .standard {} longProduct = .ok (.scalar 0) := by
  have one : walk .standard {} (.number "1") = .ok (.scalar 1) := by cbv
  have tiny : walk .standard {} (.number "1e-2147483647") = .ok (.scalar ⟨1, 2147483647⟩) := by cbv
  have hundred : walk .standard {} (.number "1.00") = .ok (.scalar ⟨100, 2⟩) := by cbv
  obtain ⟨factor, walked, positive, far⟩ : ∃ factor : Decimal,
      walk .standard {} longFactor = .ok (.scalar factor) ∧
        0 < factor.unscaled ∧ factor.scale = 2147483647 := by
    refine ⟨1 + ⟨1, 2147483647⟩, (walk_operator (Or.inl rfl) one tiny).trans ?_,
      Int.add_pos (Decimal.alignedTo_pos (by decide) _) (Decimal.alignedTo_pos (by decide) _),
      by decide⟩
    rw [unlessOverflow_of (by decide)]
    rfl
  have places : (factor * factor).scale = 4294967294 := by
    change factor.scale + factor.scale = _
    rw [far]
    decide
  have square : walk .standard {} longSquare = .ok (.scalar (factor * factor)) :=
    walk_product walked walked (by rw [far]; decide)
  have content : walk .standard {} (.operator '*' longSquare (.number "1.00")) =
      .ok (.scalar (factor * factor * ⟨100, 2⟩)) :=
    walk_product square hundred (by rw [places]; decide)
  have scale : (factor * factor * ⟨100, 2⟩).scale = 4294967296 := by
    change (factor * factor).scale + 2 = _
    rw [places]
    decide
  have rounded : (factor * factor * ⟨100, 2⟩).bracketed squareBrackets = 0 := by
    refine Decimal.nearestInteger_of_far (Int.mul_pos (Int.mul_pos positive positive) (by decide)) ?_
    rw [scale]
    decide
  have result : walk .standard {} longProduct = .ok (.scalar 0) := by
    refine (walk_brackets (by decide) content).trans ?_
    rw [rounded, unlessOverflow_of]
    · rfl
    · exact fun _ => .of_nonneg (by rw [scale]; decide)
  have final : finalForm 8 0 = 0 := by decide
  rw [evaluate_eq, result]
  exact congrArg (fun number => Except.ok (Value.scalar number)) final

/-- In the first tree all scales are words but not the distance of two, so it is broken off,
and in the second one a number loses more digits than powers of ten are written out for. -/
theorem evaluate_exact_beyond_words :
    (distantSum.IsDivisionFree ∧ Decimal.IsWord (1 + 2 * 4611686018427387903) ∧
      evaluate .standard {} distantSum = .error .overflow ∧
      ∃ exact, distantSum.exactValue? = some exact ∧ exact.map (Decimal.roundedTo 8) = .scalar 10) ∧
    longProduct.IsDivisionFree ∧
      evaluate .standard {} longProduct = .ok (.scalar 0) ∧
      ∃ exact, longProduct.exactValue? = some exact ∧ exact.map (Decimal.roundedTo 8) = .scalar 1 := by
  have number := Expression.isDivisionFree_number
  have distant : distantSum.IsDivisionFree :=
    .operator (Or.inl rfl) (.percent _ (number _)) (number _)
  have long : longProduct.IsDivisionFree :=
    have factor := .operator (Or.inl rfl) (number _) (number _)
    have square := .operator (Or.inr (Or.inr rfl)) factor factor
    .brackets (by decide) (.operator (Or.inr (Or.inr rfl)) square (number _))
  exact ⟨⟨distant, by decide, evaluate_distantSum, exact_distantSum⟩, long,
    evaluate_longProduct, exact_longProduct⟩

end Evaluation
end DecimalCalculator
