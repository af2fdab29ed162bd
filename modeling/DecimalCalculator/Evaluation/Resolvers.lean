/-
What the symbols and names of an expression mean.

A set of resolvers gives meaning to operators, brackets, functions, suffix
operators and constants.  A resolver answers `none` for a symbol or a name that
it does not know, which the evaluation reports as an error.
-/

import DecimalCalculator.Elementary.Series
import DecimalCalculator.Value

namespace DecimalCalculator

attribute [local instance (high)] instPowNat

/-! ### Settings of a computation -/

/-- How many digits after the point a result keeps, and to how many significant
digits functions are computed. -/
structure Context where
  displayScale : UInt32 := 8
  precision : Precision := 20
  deriving DecidableEq, Repr, Inhabited

/-- The context for a display scale: the precision is one and a half times as
large, in 32-bit words, but never below 20. -/
def Context.ofDisplayScale (displayScale : UInt32) : Outcome Context :=
  unlessOverflow (displayScale.toNat * 3 < 2 ^ (32 : Nat))
    ⟨displayScale, max (displayScale * 3 / 2) 20⟩

def Context.precisionScale (context : Context) : Int64 :=
  Int64.ofNat context.precision.toNat

/-! ### Resolvers -/

/-- Meaning of binary operators, and their meaning in front of a percentage,
which comes divided by 100. -/
structure OperatorResolver where
  combine : (symbol : Char) → (left right : Decimal) → Context → Outcome (Option Decimal)
  combinePercent : (symbol : Char) → (base fraction : Decimal) → Context → Outcome (Option Decimal)

abbrev BracketResolver :=
  (kind : Nat) → (content : Decimal) → Context → Outcome (Option Decimal)

/-- Meaning of functions of one number.  A function may have a suffix, an operand
or both. -/
abbrev FunctionResolver :=
  (name : String) → (suffix operand : Option Decimal) → Context → Outcome (Option Decimal)

/-- Meaning of functions applied to a list, given the meaning of functions of one
number. -/
abbrev ListFunctionResolver :=
  (name : String) → (suffix : Option Decimal) → (operand : Value) → FunctionResolver → Context →
    Outcome (Option Value)

abbrev SuffixResolver :=
  (symbol : Char) → (count : Nat) → (operand : Decimal) → Context → Outcome (Option Decimal)

abbrev ConstantResolver :=
  (name : String) → Context → Outcome (Option Value)

structure Resolvers where
  operators : OperatorResolver
  brackets : BracketResolver
  functions : FunctionResolver
  listFunctions : ListFunctionResolver
  suffixes : SuffixResolver
  constants : ConstantResolver

/-- The answer of a resolver, or the given error if it has none. -/
def resolved {α : Type} (unknown : EvaluationError) (answer : Outcome (Option α)) : Outcome α := do
  match ← answer with
  | some result => return result
  | none => throw unknown

end DecimalCalculator
