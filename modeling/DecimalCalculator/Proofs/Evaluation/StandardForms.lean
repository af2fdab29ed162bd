/-
The standard operators, brackets, functions and suffixes on the forms of a number.

Every one of them has the same result, or a result of the same value, for all forms of
its operands, unless it is broken off where the words end, and as long as the digits are
few enough.  What it asks of the forms is stated beside it.
-/

import Mathlib
import DecimalCalculator.Evaluation.Standard
import DecimalCalculator.Proofs.Arithmetic.Values
import DecimalCalculator.Proofs.Elementary.Angle
import DecimalCalculator.Proofs.Evaluation.Broadcast
import DecimalCalculator.Proofs.Value.Forms

namespace DecimalCalculator

open Decimal

variable {left left' right right' number number' : Decimal} {context : Context}
  {precision : Precision}

/-! ### Functions -/

namespace StandardFunction

def Fits (function : StandardFunction) (argument : Decimal) (precision : Precision) : Prop :=
  match function with
  | .log | .ln => argument.IsShort
  | .exp => Elementary.ExpFits argument
  | .sin | .cos | .tan | .cot | .sec | .csc => Elementary.AngleFits argument precision.seriesScale
  | _ => True

theorem apply_concur (function : StandardFunction) (same : number.value = number'.value)
    (fits : function.Fits number precision) (fits' : function.Fits number' precision) :
    Concur EqualValues (function.apply number precision) (function.apply number' precision) := by
  have equal {outcome outcome' : Outcome Decimal} (concur : Concur Eq outcome outcome') :
      Concur EqualValues outcome outcome' :=
    concur.mono fun _ _ one => congrArg value one
  cases function with
  | log => exact equal (Elementary.logToBase_concur same rfl ⟨fits, fun _ => by decide⟩
      ⟨fits', fun _ => by decide⟩)
  | ln => exact equal (Elementary.ln_concur same fits fits')
  | exp => exact equal (Elementary.exp_concur same fits fits')
  | sin => exact equal (Elementary.sin_concur same fits fits')
  | cos => exact equal (Elementary.cos_concur same fits fits')
  | tan => exact equal (Elementary.tan_concur same fits fits')
  | cot => exact equal (Elementary.cot_concur same fits fits')
  | sec => exact equal (Elementary.sec_concur same fits fits')
  | csc => exact equal (Elementary.csc_concur same fits fits')
  | asin => exact equal (Elementary.asin_concur same)
  | acos => exact equal (Elementary.acos_concur same)
  | atan => exact equal (Elementary.atan_concur same)
  | acot => exact equal (Elementary.acot_concur same)
  | asec => exact equal (Elementary.asec_concur same)
  | acsc => exact equal (Elementary.acsc_concur same)
  | sqrt =>
      have rooted : Concur Eq (Elementary.root number 2 precision)
          (Elementary.root number' 2 precision) := Elementary.root_concur same
      exact equal rooted
  | abs =>
      refine .ok ?_
      rw [EqualValues, value_abs, value_abs, same]

/-- What a function with a suffix asks of the forms of the suffix and the operand. -/
def SuffixedFits (function : StandardFunction) (suffix operand : Decimal)
    (precision : Precision) : Prop :=
  match function with
  | .log => Elementary.LogToBaseFits operand suffix
  | .sqrt => Elementary.RootOfDegreeFits operand suffix
  | _ => function.Fits suffix precision

theorem applyWithSuffix_concur (function : StandardFunction)
    {suffix suffix' operand operand' : Decimal}
    (suffixes : suffix.value = suffix'.value) (operands : operand.value = operand'.value)
    (fits : function.SuffixedFits suffix operand precision)
    (fits' : function.SuffixedFits suffix' operand' precision) :
    Concur EqualValues (function.applyWithSuffix suffix operand precision)
      (function.applyWithSuffix suffix' operand' precision) := by
  cases function with
  | log =>
      exact (Elementary.logToBase_concur operands suffixes fits fits').mono
        fun _ _ one => congrArg value one
  | sqrt =>
      exact (Elementary.rootOfDegree_concur operands suffixes fits fits').mono
        fun _ _ one => congrArg value one
  | ln => exact apply_concur .ln suffixes fits fits'
  | exp => exact apply_concur .exp suffixes fits fits'
  | sin => exact apply_concur .sin suffixes fits fits'
  | cos => exact apply_concur .cos suffixes fits fits'
  | tan => exact apply_concur .tan suffixes fits fits'
  | cot => exact apply_concur .cot suffixes fits fits'
  | sec => exact apply_concur .sec suffixes fits fits'
  | csc => exact apply_concur .csc suffixes fits fits'
  | asin => exact apply_concur .asin suffixes fits fits'
  | acos => exact apply_concur .acos suffixes fits fits'
  | atan => exact apply_concur .atan suffixes fits fits'
  | acot => exact apply_concur .acot suffixes fits fits'
  | asec => exact apply_concur .asec suffixes fits fits'
  | acsc => exact apply_concur .acsc suffixes fits fits'
  | abs => exact @apply_concur suffix suffix' precision .abs suffixes fits fits'

end StandardFunction

namespace Standard

/-- What a call of a function asks of the forms of its suffix and its operand. -/
def CallFits (name : String) (context : Context) : (suffix operand : Option Decimal) → Prop
  | some suffix, some operand => ∀ function, StandardFunction.ofName? name = some function →
      function.SuffixedFits suffix operand context.precision
  | some argument, none => ∀ function, StandardFunction.ofName? name = some function →
      function.Fits argument context.precision
  | none, some argument => ∀ function, StandardFunction.ofName? name = some function →
      function.Fits argument context.precision
  | none, none => True

theorem functions_concur (name : String) {suffix suffix' operand operand' : Option Decimal}
    (suffixes : Option.Rel EqualValues suffix suffix')
    (operands : Option.Rel EqualValues operand operand')
    (fits : CallFits name context suffix operand)
    (fits' : CallFits name context suffix' operand') :
    Concur (Option.Rel EqualValues) (functions name suffix operand context)
      (functions name suffix' operand' context) := by
  unfold functions
  cases known : StandardFunction.ofName? name with
  | none => exact .ok .none
  | some function =>
      cases suffixes with
      | none =>
          cases operands with
          | none => exact .error rfl
          | some same =>
              exact (function.apply_concur same (fits function known) (fits' function known)).map
                fun _ _ values => .some values
      | some same =>
          cases operands with
          | none =>
              exact (function.apply_concur same (fits function known) (fits' function known)).map
                fun _ _ values => .some values
          | some equal =>
              exact (function.applyWithSuffix_concur same equal (fits function known)
                (fits' function known)).map fun _ _ values => .some values

/-! ### Operators and brackets -/

/-- What an operator asks of the forms of the numbers; `isPercentage` tells whether the
right one is a percentage. -/
def OperatorFits (symbol : Char) (isPercentage : Bool) (left right : Decimal) : Prop :=
  symbol = '^' → isPercentage = false → Elementary.PowFits left right

theorem quotient_concur (lefts : left.value = left'.value) (rights : right.value = right'.value) :
    Concur (Option.Rel EqualValues)
      (some <$> left.divideAtScale right context.precisionScale .halfEven)
      (some <$> left'.divideAtScale right' context.precisionScale .halfEven) :=
  (divideAtScale_concur .halfEven _ lefts rights).map
    fun _ _ one => .some (congrArg value one)

theorem combine_concur {symbol : Char} (lefts : left.value = left'.value)
    (rights : right.value = right'.value) (fits : OperatorFits symbol false left right)
    (fits' : OperatorFits symbol false left' right') :
    Concur (Option.Rel EqualValues) (combine symbol left right context)
      (combine symbol left' right' context) := by
  unfold combine
  split
  · exact (Checked.add_concur lefts rights).map fun _ _ values => .some values
  · exact (Checked.sub_concur lefts rights).map fun _ _ values => .some values
  · exact (Checked.mul_concur lefts rights).map fun _ _ values => .some values
  · exact quotient_concur lefts rights
  · exact (Elementary.pow_concur lefts rights (fits rfl rfl) (fits' rfl rfl)).map
      fun _ _ values => .some values
  · exact .ok .none

theorem combinePercent_concur {symbol : Char} (lefts : left.value = left'.value)
    (rights : right.value = right'.value) :
    Concur (Option.Rel EqualValues) (combinePercent symbol left right context)
      (combinePercent symbol left' right' context) := by
  unfold combinePercent
  refine (Checked.mul_concur lefts rights).bind fun part part' parts _ _ => ?_
  split
  · exact (Checked.add_concur lefts parts).map fun _ _ values => .some values
  · exact (Checked.sub_concur lefts parts).map fun _ _ values => .some values
  · exact .ok (.some parts)
  · exact quotient_concur lefts rights
  · exact .ok .none

def BracketFits (kind : Nat) (number : Decimal) : Prop :=
  kind = squareBrackets ∨ kind = floorBrackets ∨ kind = ceilingBrackets →
    0 < number.scale → number.IsShort

theorem brackets_concur (kind : Nat) (same : number.value = number'.value)
    (fits : BracketFits kind number) (fits' : BracketFits kind number') :
    Concur (Option.Rel EqualValues) (brackets kind number context)
      (brackets kind number' context) := by
  unfold brackets
  by_cases round : kind = roundBrackets
  · simp only [round, ↓reduceIte]
    exact .ok (.some same)
  · simp only [round, ↓reduceIte]
    have rounded (mode : RoundingMode)
        (known : kind = squareBrackets ∨ kind = floorBrackets ∨ kind = ceilingBrackets) :
        Concur (Option.Rel EqualValues) (some <$> Checked.setScale number 0 mode)
          (some <$> Checked.setScale number' 0 mode) :=
      (Checked.setScale_concur mode same (fits known) (fits' known)).map
        fun _ _ one => .some (congrArg value one)
    split
    · exact rounded .halfUp (Or.inl ‹_›)
    · split
      · exact rounded .floor (Or.inr (Or.inl ‹_›))
      · split
        · exact rounded .ceiling (Or.inr (Or.inr ‹_›))
        · exact .ok .none

/-! ### Suffixes -/

theorem toRadians_concur {unit : AngleUnit} (other : unit ≠ .radians) (count : Nat)
    (same : number.value = number'.value) :
    Concur EqualValues (toRadians unit precision count number)
      (toRadians unit precision count number') := by
  cases count with
  | zero => exact .ok same
  | succ count =>
      have converted : Concur Eq (unit.convert .radians number precision)
          (unit.convert .radians number' precision) := by
        unfold AngleUnit.convert
        simp only [other, ↓reduceIte]
        refine Concur.bind_eq (.of_eq rfl) fun pi _ _ => ?_
        refine (Checked.mul_concur same rfl).bind fun scaled scaled' products _ _ => ?_
        refine Concur.bind_eq (.of_eq rfl) fun half _ _ => ?_
        exact divideToPrecision_concur _ products rfl
      refine converted.bind_eq fun angle _ _ => ?_
      exact (Concur.of_eq rfl).mono fun _ _ one => congrArg value one

/-- What a suffix asks of the form of the number. -/
def SuffixFits (symbol : Char) (number : Decimal) : Prop :=
  symbol = factorialSign → 0 < number.scale → number.IsShort

theorem suffixes_concur (symbol : Char) (count : Nat) (same : number.value = number'.value)
    (fits : SuffixFits symbol number) (fits' : SuffixFits symbol number') :
    Concur (Option.Rel EqualValues) (suffixes symbol count number context)
      (suffixes symbol count number' context) := by
  unfold suffixes
  split
  · exact (factorial_concur count same (fits ‹_›) (fits' ‹_›)).map
      fun _ _ one => .some (congrArg value one)
  · split
    · refine Concur.bind_eq (.of_eq rfl) fun part _ _ => ?_
      exact (Checked.mul_concur same rfl).bind fun _ _ values _ _ => .ok (.some values)
    · split
      · exact (toRadians_concur (by decide) count same).map fun _ _ values => .some values
      · split
        · exact (toRadians_concur (by decide) count same).map fun _ _ values => .some values
        · exact .ok .none

/-! ### Functions of a list -/

variable {numbers numbers' : List Decimal}

theorem sum_concur (same : List.Forall₂ EqualValues numbers numbers') :
    Concur EqualValues (sum numbers) (sum numbers') :=
  foldlM_concur Checked.add_concur rfl same

theorem average_concur (same : List.Forall₂ EqualValues numbers numbers') :
    Concur Eq (average numbers context) (average numbers' context) := by
  have totals := sum_concur same
  have count : (ofInt numbers.length).value = (ofInt numbers'.length).value := by
    rw [same.length_eq]
  cases same with
  | nil => exact .error rfl
  | cons first rest =>
      refine totals.bind fun total total' values _ _ => ?_
      exact divideAtScale_concur .halfEven _ values count

/-- What a function of a list asks of the forms of its numbers, if it takes them in turn. -/
def ListCallFits (name : String) (suffix : Option Decimal) (operand : Value)
    (context : Context) : Prop :=
  name ∉ ["A", "sum", "gcd", "lcm"] → operand.Traverses
    (fun number => resolved (.unknownFunction name) (functions name suffix (some number) context))
    fun number => CallFits name context suffix (some number)

theorem resolved_concur {α β : Type} {related : α → β → Prop} (unknown : EvaluationError)
    {answer : Outcome (Option α)} {answer' : Outcome (Option β)}
    (concur : Concur (Option.Rel related) answer answer') :
    Concur related (resolved unknown answer) (resolved unknown answer') := by
  refine concur.bind fun first second both _ _ => ?_
  cases both with
  | none => exact .error rfl
  | some holds => exact .ok holds

theorem listFunctions_concur (name : String) {suffix suffix' : Option Decimal}
    {operand operand' : Value} (suffixes : Option.Rel EqualValues suffix suffix')
    (operands : Value.EqualValues operand operand')
    (fits : ListCallFits name suffix operand context)
    (fits' : ListCallFits name suffix' operand' context) :
    Concur (Option.Rel Value.EqualValues) (listFunctions name suffix operand functions context)
      (listFunctions name suffix' operand' functions context) := by
  have numbers := operands.flatten
  unfold listFunctions
  split
  · refine (average_concur numbers).bind_eq
      fun mean _ _ => .ok (.some ?_)
    rfl
  · exact (sum_concur numbers).bind
      fun _ _ values _ _ => .ok (.some (Value.equalValues_scalar values))
  · exact (gcdOfList_concur numbers).bind
      fun _ _ values _ _ => .ok (.some (Value.equalValues_scalar values))
  · exact (lcmOfList_concur numbers).bind
      fun _ _ values _ _ => .ok (.some (Value.equalValues_scalar values))
  · rename_i average sum gcd lcm
    have other : name ∉ ["A", "sum", "gcd", "lcm"] := by
      simp only [List.mem_cons, List.not_mem_nil, or_false]
      rintro (same | same | same | same)
      · exact average same
      · exact sum same
      · exact gcd same
      · exact lcm same
    refine (Value.tryMap_concur (fun number form values fits fits' => ?_) operands
      (fits other) (fits' other)).bind fun _ _ results _ _ => .ok (.some results)
    exact resolved_concur _ (functions_concur name suffixes (.some values) fits fits')

end Standard
end DecimalCalculator
