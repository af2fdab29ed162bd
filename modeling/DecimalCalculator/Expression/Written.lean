/-
The text of an expression tree, with every node written back in order.

The text is determined by the tables and by how the texts of list items are put
together.  Nothing but the items of a list ever needs a separator.
-/

import DecimalCalculator.Expression.SymbolTables
import DecimalCalculator.Expression.Tree

namespace DecimalCalculator

def SymbolTables.bracketed (tables : SymbolTables) (kind : Nat) (content : List Char) :
    List Char :=
  match tables.brackets.find? (·.kind == kind) with
  | some pair => pair.opening :: (content ++ [pair.closing])
  | none => content

/-- Items with separators between them.  One more separator follows fewer than two
items, so that they stay a list. -/
def separated (items : List (List Char)) : List Char :=
  if items.length < 2 then items.flatten ++ [listSeparator]
  else [listSeparator].intercalate items

namespace Expression

mutual

/-- The characters of an expression, where the texts of list items are put together
as given. -/
def written (tables : SymbolTables) (together : List (List Char) → List Char) :
    Expression → List Char
  | .number text => text.toList
  | .operator symbol left right =>
      left.written tables together ++ symbol :: right.written tables together
  | .negative operand => '-' :: operand.written tables together
  | .brackets kind content => tables.bracketed kind (content.written tables together)
  | .suffix symbol count operand =>
      writtenOptional tables together operand ++ List.replicate count symbol
  | .function name nameSuffix operand =>
      name.toList ++ writtenOptional tables together nameSuffix ++
        writtenOptional tables together operand
  | .constant name => name.toList
  | .list items => together (writtenItems tables together items)

def writtenOptional (tables : SymbolTables) (together : List (List Char) → List Char) :
    Option Expression → List Char
  | none => []
  | some expression => expression.written tables together

def writtenItems (tables : SymbolTables) (together : List (List Char) → List Char) :
    List Expression → List (List Char)
  | [] => []
  | item :: rest => item.written tables together :: writtenItems tables together rest

end

/-- The text of an expression that reads as the same expression again. -/
def render (tables : SymbolTables) (expression : Expression) : String :=
  String.ofList (expression.written tables separated)

def characters (tables : SymbolTables) (expression : Expression) : List Char :=
  expression.written tables List.flatten

end Expression

/-! ### Characters that no node records -/

/-- Whether an operator behind the given character, or at the start of the text, has
no operand on its left. -/
def leadsOperand (tables : SymbolTables) : Option Char → Bool
  | none => true
  | some previous =>
      tables.opensBracket previous || previous == listSeparator ||
        (tables.priority? previous).isSome

/-- Whether the character is a plus sign without an operand on its left. -/
def isUnaryPlus (tables : SymbolTables) (previous : Option Char) (char : Char) : Bool :=
  char == '+' && (tables.priority? char).isSome && leadsOperand tables previous

/-- A text without its separators and its unary plus signs, where `previous` is the
character in front of it. -/
def recorded (tables : SymbolTables) : (previous : Option Char) → List Char → List Char
  | _, [] => []
  | previous, char :: rest =>
      let later := recorded tables (some char) rest
      if char == listSeparator || isUnaryPlus tables previous char then later else char :: later

end DecimalCalculator
