/-
Trees that differ in one node, and round brackets that are written around one operand.
-/

import DecimalCalculator.Expression.SymbolTables
import DecimalCalculator.Expression.Tree

namespace DecimalCalculator
namespace Expression

/-- The second tree is the first one with a node replaced as the relation allows. -/
inductive DiffersInNode (replaces : Expression → Expression → Prop) :
    Expression → Expression → Prop where
  | here {node other : Expression} (replaced : replaces node other) :
      DiffersInNode replaces node other
  | left {left other : Expression} (symbol : Char) (right : Expression)
      (inside : DiffersInNode replaces left other) :
      DiffersInNode replaces (.operator symbol left right) (.operator symbol other right)
  | right {right other : Expression} (symbol : Char) (left : Expression)
      (inside : DiffersInNode replaces right other) :
      DiffersInNode replaces (.operator symbol left right) (.operator symbol left other)
  | negative {operand other : Expression} (inside : DiffersInNode replaces operand other) :
      DiffersInNode replaces (.negative operand) (.negative other)
  | brackets {content other : Expression} (kind : Nat)
      (inside : DiffersInNode replaces content other) :
      DiffersInNode replaces (.brackets kind content) (.brackets kind other)
  | suffix {operand other : Expression} (symbol : Char) (count : Nat)
      (inside : DiffersInNode replaces operand other) :
      DiffersInNode replaces (.suffix symbol count (some operand))
        (.suffix symbol count (some other))
  | functionSuffix {nameSuffix other : Expression} (name : String) (operand : Option Expression)
      (inside : DiffersInNode replaces nameSuffix other) :
      DiffersInNode replaces (.function name (some nameSuffix) operand)
        (.function name (some other) operand)
  | functionOperand {operand other : Expression} (name : String) (nameSuffix : Option Expression)
      (inside : DiffersInNode replaces operand other) :
      DiffersInNode replaces (.function name nameSuffix (some operand))
        (.function name nameSuffix (some other))
  | item {item other : Expression} {items others : List Expression}
      (before after : List Expression) (inside : DiffersInNode replaces item other)
      (whole : items = before ++ item :: after) (result : others = before ++ other :: after) :
      DiffersInNode replaces (.list items) (.list others)

/-- The second node is the first one with round brackets around one operand of the
operator or the negation.  A percentage on the right of an operator gets no brackets,
because they would hide that it is one. -/
inductive BracketsOperand : Expression → Expression → Prop where
  | left (symbol : Char) (left right : Expression) :
      BracketsOperand (.operator symbol left right)
        (.operator symbol (.brackets roundBrackets left) right)
  | right (symbol : Char) (left : Expression) {right : Expression}
      (whole : right.isSuffix percentSign = false) :
      BracketsOperand (.operator symbol left right)
        (.operator symbol left (.brackets roundBrackets right))
  | negative (operand : Expression) :
      BracketsOperand (.negative operand) (.negative (.brackets roundBrackets operand))

end Expression
end DecimalCalculator
