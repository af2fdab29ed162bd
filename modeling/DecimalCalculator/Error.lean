/-
The ways in which a table, an expression or an evaluation can be wrong, each
with the data of its cause, and the sentence that reports it.
-/

import DecimalCalculator.Decimal.Text

namespace DecimalCalculator

/-! ### Symbol tables -/

/-- Why a set of symbol tables is refused. -/
inductive TableError where
  | sameOpeningAndClosing (symbol : Char)
  | repeatedBracket (symbol : Char)
  | repeatedBracketKind (kind : Nat)
  | repeatedOperator (symbol : Char)
  | repeatedSuffix (symbol : Char)
  | ambiguousSymbol (symbol : Char)
  | reservedSymbol (symbol : Char)
  deriving DecidableEq, Repr

def TableError.message : TableError → String
  | .sameOpeningAndClosing symbol => s!"Bracket '{symbol}' cannot both open and close"
  | .repeatedBracket symbol => s!"Bracket character '{symbol}' is registered more than once"
  | .repeatedBracketKind kind => s!"Bracket type {kind} is registered more than once"
  | .repeatedOperator symbol => s!"Binary operator '{symbol}' is registered more than once"
  | .repeatedSuffix symbol => s!"Suffix operator '{symbol}' is registered more than once"
  | .ambiguousSymbol symbol => s!"Symbol '{symbol}' is registered in more than one table"
  | .reservedSymbol symbol => s!"Symbol '{symbol}' is reserved"

/-! ### Expressions -/

/-- Why a text is not an expression.  Positions count characters from zero. -/
inductive ExpressionError where
  | mismatchedBracket (position : Nat)
  | unclosedBracket
  | emptyBrackets (position : Nat)
  | missingOperand (symbol : Char) (position : Nat)
  | malformedNumber (text : String)
  | emptyExpression
  /-- A word cannot count the characters of a literal.  The computation is broken off. -/
  | overflow
  deriving DecidableEq, Repr

def ExpressionError.cause : ExpressionError → String
  | .mismatchedBracket position => s!"invalid brackets sequence at position {position}"
  | .unclosedBracket => "brackets are not closed"
  | .emptyBrackets position => s!"nothing inside brackets at position {position}"
  | .missingOperand symbol position =>
      s!"binary operator '{symbol}' at position {position} does not have left or right operand or both"
  | .malformedNumber text => s!"failed to convert '{text}' to number"
  | .emptyExpression => "nothing to calculate"
  | .overflow => "arithmetic overflow"

/-- Every defect of an expression is reported under one heading. -/
def ExpressionError.message (error : ExpressionError) : String :=
  "Malformed expression: " ++ error.cause

/-! ### Evaluation -/

/-- Why an expression has no value. -/
inductive EvaluationError where
  | unknownOperator (symbol : Char)
  | unknownBracketKind (kind : Nat)
  | unknownSuffix (symbol : Char)
  | unknownFunction (name : String)
  | unknownConstant (name : String)
  | suffixWithoutOperand (symbol : Char)
  | divisionByZero
  | percentNotAllowed (symbol : Char)
  | functionWithoutArgument (name : String)
  | listAsFunctionSuffix (name : String)
  | operatorBetweenLists (symbol : Char)
  | averageOfNothing
  | tooFewArguments (name : String) (least : Nat)
  | logarithmOfNonpositive (argument : Decimal)
  | evenRootOfNegative (radicand : Decimal)
  | sineOutOfRange (argument : Decimal)
  | secantOutOfRange (argument : Decimal)
  | tangentPole (angle : Decimal)
  | cotangentPole (angle : Decimal)
  | secantPole (angle : Decimal)
  | cosecantPole (angle : Decimal)
  | notANumber
  | undefinedPower
  | exponentTooLarge (exponent : Int)
  | factorialTooLarge (argument : Decimal)
  | factorialOfNonNatural (argument : Decimal)
  | malformedNumber (text : String)
  /-- A word cannot hold a scale or a precision.  The computation is broken off. -/
  | overflow
  deriving DecidableEq, Repr

/-- Whether the fault lies in the shape of the tree: a symbol or a kind of brackets without
meaning, a function without argument, or a list as the suffix of a function. -/
def EvaluationError.blamesShape : EvaluationError → Bool
  | .unknownOperator _ | .unknownBracketKind _ | .unknownSuffix _ | .functionWithoutArgument _
  | .listAsFunctionSuffix _ => true
  | _ => false

def EvaluationError.message : EvaluationError → String
  | .unknownOperator symbol => s!"Unknown binary operator '{symbol}'"
  | .unknownBracketKind kind => s!"Unknown bracket type {kind}"
  | .unknownSuffix symbol => s!"Unknown suffix operator '{symbol}'"
  | .unknownFunction name => s!"Unknown function '{name}'"
  | .unknownConstant name => s!"Unknown constant '{name}'"
  | .suffixWithoutOperand symbol => s!"No operand for suffix operator '{symbol}'"
  | .divisionByZero => "Division by zero"
  | .percentNotAllowed symbol => s!"Invalid operator '{symbol}' for percent"
  | .functionWithoutArgument name => s!"Function '{name}' has neither suffix nor operand"
  | .listAsFunctionSuffix name => s!"Suffix of function '{name}' can't be list"
  | .operatorBetweenLists symbol => s!"Binary operator '{symbol}' cannot be applied to lists"
  | .averageOfNothing => "Average function has no arguments"
  | .tooFewArguments name least => s!"Function '{name}' requires at least {least} arguments"
  | .logarithmOfNonpositive argument =>
      s!"Unable to find logarithm of negative number or of zero: {argument}"
  | .evenRootOfNegative radicand =>
      s!"Unable to find root of even degree of negative number: {radicand}"
  | .sineOutOfRange argument => s!"Invalid asin or acos value: {argument}"
  | .secantOutOfRange argument => s!"Invalid asec or acsc value: {argument}"
  | .tangentPole angle => s!"Invalid value for tangent: {angle}"
  | .cotangentPole angle => s!"Invalid value for cotangent: {angle}"
  | .secantPole angle => s!"Invalid value for secant: {angle}"
  | .cosecantPole angle => s!"Invalid value for cosecant: {angle}"
  | .notANumber => "Not a number"
  | .undefinedPower => "Undefined"
  | .exponentTooLarge exponent => s!"Exponent {exponent} is too large"
  | .factorialTooLarge argument => s!"Factorial limit exceeded: {argument}"
  | .factorialOfNonNatural argument =>
      s!"Factorial is defined only for non-negative integers: {argument}"
  | .malformedNumber text => s!"Failed to convert '{text}' to number"
  | .overflow => "Arithmetic overflow"

/-- A computation that yields a value or the reason why there is none. -/
abbrev Outcome :=
  Except EvaluationError

/-- The result of an operation on words, provided that the words suffice for it. -/
def unlessOverflow {α : Type} (fits : Prop) [Decidable fits] (result : α) : Outcome α :=
  if fits then .ok result else .error .overflow

/-- A computation goes on only as long as the words suffice for it. -/
def requireWords (fits : Prop) [Decidable fits] : Outcome Unit :=
  unlessOverflow fits ()

end DecimalCalculator
