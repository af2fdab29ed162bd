/-
Evaluation of an expression tree.

The walk computes the values of subtrees from left to right and combines them;
the first failure ends it.  Operations on numbers are applied to every number of
a list.  After the walk every number of the result is brought to its final form.
-/

import DecimalCalculator.Evaluation.Resolvers
import DecimalCalculator.Expression.SymbolTables
import DecimalCalculator.Expression.Tree

namespace DecimalCalculator
namespace Evaluation

/-! ### Operators -/

/-- Applies an operation on two numbers to two values, at least one of which is a
scalar.  A scalar on the left meets every number on the right, otherwise a
scalar on the right meets every number on the left. -/
def broadcast (symbol : Char) (operation : Decimal → Decimal → Outcome Decimal)
    (left right : Value) : Outcome Value :=
  match left.scalar?, right.scalar? with
  | some scalar, _ => right.tryMap fun number => operation scalar number
  | none, some scalar => left.tryMap fun number => operation number scalar
  | none, none => .error (.operatorBetweenLists symbol)

/-- The operation that an operator performs in front of the given right operand. -/
def operation (resolvers : Resolvers) (context : Context) (symbol : Char)
    (rightOperand : Expression) (left right : Decimal) : Outcome Decimal :=
  if rightOperand.isSuffix percentSign then
    resolved (.percentNotAllowed symbol)
      (resolvers.operators.combinePercent symbol left right context)
  else
    resolved (.unknownOperator symbol)
      (resolvers.operators.combine symbol left right context)

/-! ### Functions -/

/-- The number of a function suffix, which must be a scalar. -/
def suffixNumber (name : String) : Option Value → Outcome (Option Decimal)
  | none => .ok none
  | some suffix =>
      match suffix.scalar? with
      | some number => .ok (some number)
      | none => .error (.listAsFunctionSuffix name)

/-- Applies a function to a scalar, to no operand, or to a list as a whole. -/
def applyFunction (resolvers : Resolvers) (context : Context) (name : String)
    (suffix : Option Decimal) : Option Value → Outcome Value
  | none => do
      return .scalar (← resolved (.unknownFunction name)
        (resolvers.functions name suffix none context))
  | some operand =>
      match operand.scalar? with
      | some number => do
          return .scalar (← resolved (.unknownFunction name)
            (resolvers.functions name suffix (some number) context))
      | none =>
          resolved (.unknownFunction name)
            (resolvers.listFunctions name suffix operand resolvers.functions context)

/-! ### The walk -/

/-- The item that a value becomes inside a list: a scalar is its number. -/
def asItem (value : Value) : Value :=
  match value.scalar? with
  | some number => .number number
  | none => value

def literalValue (text : String) : Outcome Value :=
  match Decimal.ofText? text with
  | some number => .ok (.scalar number)
  | none => .error (.malformedNumber text)

mutual

/-- The value of an expression before its numbers are brought to their final form. -/
def walk (resolvers : Resolvers) (context : Context) : Expression → Outcome Value
  | .number text => literalValue text
  | .negative operand => do
      (← walk resolvers context operand).tryMap fun number => .ok (-number)
  | .brackets kind content => do
      (← walk resolvers context content).tryMap fun number =>
        resolved (.unknownBracketKind kind) (resolvers.brackets kind number context)
  | .suffix symbol count operand => do
      match ← walkOptional resolvers context operand with
      | none => throw (.suffixWithoutOperand symbol)
      | some value =>
          value.tryMap fun number =>
            resolved (.unknownSuffix symbol) (resolvers.suffixes symbol count number context)
  | .constant name => resolved (.unknownConstant name) (resolvers.constants name context)
  | .list items => do return .list (← walkItems resolvers context items)
  | .function name suffix operand => do
      let operand ← walkOptional resolvers context operand
      let suffix ← suffixNumber name (← walkOptional resolvers context suffix)
      applyFunction resolvers context name suffix operand
  | .operator symbol left right => do
      let leftValue ← walk resolvers context left
      let rightValue ← walk resolvers context right
      broadcast symbol (operation resolvers context symbol right) leftValue rightValue

def walkOptional (resolvers : Resolvers) (context : Context) :
    Option Expression → Outcome (Option Value)
  | none => .ok none
  | some expression => do return some (← walk resolvers context expression)

def walkItems (resolvers : Resolvers) (context : Context) :
    List Expression → Outcome (List Value)
  | [] => .ok []
  | item :: rest => do
      let value ← walk resolvers context item
      return asItem value :: (← walkItems resolvers context rest)

end

/-! ### Final form -/

/-- A number in its shortest form with at most so many digits after the point,
rounded half to even. -/
def finalForm (displayScale : UInt32) (number : Decimal) : Decimal :=
  let shortest := number.strip
  let limit := Int64.ofNat displayScale.toNat
  if shortest.scale > limit then (shortest.setScale limit .halfEven).strip else shortest

/-- The final form, provided that the number can be brought to the scale 0. -/
def Checked.finalForm (displayScale : UInt32) (number : Decimal) : Outcome Decimal :=
  unlessOverflow (number.Reaches 0) (Evaluation.finalForm displayScale number)

/-- The value of an expression with all numbers in their final form. -/
def evaluate (resolvers : Resolvers) (context : Context) (expression : Expression) :
    Outcome Value := do
  (← walk resolvers context expression).tryMap (Checked.finalForm context.displayScale)

end Evaluation
end DecimalCalculator
