/-
What is known about the nodes of a tree that was built from a text.

Symbols, kinds and names come from the tables, a suffix operator stands at least
once, and a function has an argument.  The suffix of a function name consists of
digits and suffix operators, so its tree is a literal under suffix operators.
-/

import DecimalCalculator.Expression.Nodes

namespace DecimalCalculator

def SymbolTables.IsName (tables : SymbolTables) (name : String) : Prop :=
  name.toList ≠ [] ∧ ∀ char ∈ name.toList, tables.isLetter char = true

namespace Expression

/-- A literal, or suffix operators with at most such a tree in front of them. -/
inductive IsNumeral : Expression → Prop where
  | literal (text : String) : IsNumeral (.number text)
  | bare (symbol : Char) (count : Nat) : IsNumeral (.suffix symbol count none)
  | suffixed (symbol : Char) (count : Nat) {operand : Expression} (inner : IsNumeral operand) :
      IsNumeral (.suffix symbol count (some operand))

/-- Whether the outermost node is one that the tables provide for. -/
def IsRegistered (tables : SymbolTables) : Expression → Prop
  | .number _ => True
  | .operator symbol _ _ => symbol ∈ tables.operatorSymbols
  | .negative _ => '-' ∈ tables.operatorSymbols
  | .brackets kind _ => kind ∈ tables.brackets.map (·.kind)
  | .suffix symbol count _ => symbol ∈ tables.suffixes ∧ 0 < count
  | .function name nameSuffix operand =>
      tables.IsName name ∧ (nameSuffix.isSome ∨ operand.isSome) ∧
        ∀ inner ∈ nameSuffix, inner.IsNumeral
  | .constant name => tables.IsName name
  | .list _ => True

end Expression
end DecimalCalculator
