/-
Where a text is wrong, said of the characters of the text alone.

Well nested texts are put together from registered pairs, without counting or a
stack of open brackets.  Every error that building may report says what stands at
its position, or which part of the text it is about.
-/

import DecimalCalculator.Decimal.Numeral
import DecimalCalculator.Expression.Literal
import DecimalCalculator.Expression.Written

namespace DecimalCalculator

/-! ### Nesting by pairs -/

/-- Texts whose brackets are well nested: the two brackets of a registered pair stand
around a text that is well nested itself. -/
inductive WellNested (tables : SymbolTables) : List Char → Prop where
  | nil : WellNested tables []
  | plain {char : Char} {rest : List Char} (notOpens : tables.opensBracket char = false)
      (notCloses : tables.closesBracket char = false) (behind : WellNested tables rest) :
      WellNested tables (char :: rest)
  | pair {pair : BracketPair} {content rest : List Char} (registered : pair ∈ tables.brackets)
      (inside : WellNested tables content) (behind : WellNested tables rest) :
      WellNested tables (pair.opening :: (content ++ pair.closing :: rest))

/-- Texts that leave brackets open, with the pairs of these brackets, the innermost one
first: well nested texts with an opening bracket between each and the next. -/
inductive LeavesOpen (tables : SymbolTables) : List BracketPair → List Char → Prop where
  | none {text : List Char} (nested : WellNested tables text) : LeavesOpen tables [] text
  | bracket {outer : List BracketPair} {front content : List Char} {pair : BracketPair}
      (before : LeavesOpen tables outer front) (registered : pair ∈ tables.brackets)
      (inside : WellNested tables content) :
      LeavesOpen tables (pair :: outer) (front ++ pair.opening :: content)

/-- Whether the first closing bracket that does not match stands at the position: it does
not close the innermost bracket that the text in front of it leaves open, or none is open. -/
def IsFirstMismatch (tables : SymbolTables) (text : List Char) (position : Nat) : Prop :=
  ∃ front char rest opened, text = front ++ char :: rest ∧ position = front.length ∧
    LeavesOpen tables opened front ∧ tables.closesBracket char = true ∧
      ∀ innermost ∈ opened.head?, innermost.closing ≠ char

/-! ### Defects -/

/-- Whether an operator in front of the given character, or at the end of the text, has
no operand on its right. -/
def endsOperand (tables : SymbolTables) : Option Char → Bool
  | none => true
  | some next =>
      tables.closesBracket next || next == listSeparator || (tables.priority? next).isSome

def IsDecimalLiteral (chars : List Char) : Prop :=
  ∃ numeral : Numeral, numeral.chars = chars ∧ numeral.sign = .unsigned ∧
    ∀ exponent ∈ numeral.exponentPart, exponent.sign = .unsigned

/-- Whether the error is true of a text with well nested brackets.  An operator is
missing an operand behind it, or in front of it if it is no sign. -/
def ExpressionError.IsTrueOf (tables : SymbolTables) (text : List Char) :
    ExpressionError → Prop
  | .emptyExpression => text = []
  | .unclosedBracket => False
  | .emptyBrackets position =>
      ∃ pair ∈ tables.brackets,
        text[position]? = some pair.opening ∧ text[position + 1]? = some pair.closing
  | .mismatchedBracket position =>
      (∃ char ∈ text[position]?, tables.closesBracket char = true) ∧
        ∃ next ∈ text[position + 1]?, tables.opensBracket next = true
  | .missingOperand symbol position =>
      text[position]? = some symbol ∧ (tables.priority? symbol).isSome = true ∧
        (endsOperand tables text[position + 1]? = true ∨
          leadsOperand tables (text.take position).getLast? = true ∧
            symbol ≠ '+' ∧ symbol ≠ '-')
  | .malformedNumber literal =>
      literal ≠ "" ∧ literal.toList <:+: text ∧ ¬IsDecimalLiteral literal.toList
  | .overflow => ∃ literal, literal <:+: text ∧ Literal.isCountable literal = false

end DecimalCalculator
