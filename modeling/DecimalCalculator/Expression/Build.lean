/-
Building the tree of an expression.

The text is scanned once; then parts are divided again and again until only
names and literals are left.  The faults of a part are reported in the order in
which its smaller parts are built, and a missing operand after the faults of
the operand that is there.
-/

import DecimalCalculator.Expression.Partition
import DecimalCalculator.Expression.Tree

namespace DecimalCalculator
namespace Expression

/-- The tree of a literal, provided that the characters are one. -/
def ofLiteral (chars : List Char) : Except ExpressionError Expression :=
  if !Literal.isCountable chars then .error .overflow
  else if Literal.isLiteral chars then .ok (.number (String.ofList chars))
  else .error (.malformedNumber (String.ofList chars))

/-- The tree of a part that begins with an operator: a leading plus is dropped, a
leading minus negates, and no other operator may lead. -/
def ofLeading (symbol : Char) (position : Nat) : Option Expression → Except ExpressionError Expression
  | none => .error (.missingOperand symbol position)
  | some operand =>
      if symbol = '+' then .ok operand
      else if symbol = '-' then .ok (.negative operand)
      else .error (.missingOperand symbol position)

def required (symbol : Char) (position : Nat) : Option Expression → Except ExpressionError Expression
  | some operand => .ok operand
  | none => .error (.missingOperand symbol position)

/-- The tree of a part, or nothing if the part is empty.  Empty items of a list
are left out. -/
def ofSpan (tables : SymbolTables) (scan : Scan) (span : Span) :
    Except ExpressionError (Option Expression) :=
  if _nonempty : span.start < span.stop then
    match _divided : Partition.ofSpan tables scan span with
    | .error error => .error error
    | .ok (.enclosed kind content) => do
        match ← ofSpan tables scan content with
        | some child => return some (.brackets kind child)
        | none => throw (.emptyBrackets span.start)
    | .ok (.items parts) => do
        let items ← parts.attach.mapM fun ⟨part, _⟩ => ofSpan tables scan part
        return some (.list (items.filterMap id))
    | .ok (.leading symbol position operand) => do
        return some (← ofLeading symbol position (← ofSpan tables scan operand))
    | .ok (.binary symbol position left right) => do
        let left ← required symbol position (← ofSpan tables scan left)
        let right ← required symbol position (← ofSpan tables scan right)
        return some (.operator symbol left right)
    | .ok (.constant name) => .ok (some (.constant (String.ofList name)))
    | .ok (.function name nameSuffix operand) => do
        let nameSuffix ← ofSpan tables scan nameSuffix
        let operand ← ofSpan tables scan operand
        return some (.function (String.ofList name) nameSuffix operand)
    | .ok (.suffix symbol count operand) => do
        return some (.suffix symbol count (← ofSpan tables scan operand))
    | .ok (.literal chars) => do
        return some (← ofLiteral chars)
  else
    .ok none
termination_by span.length
decreasing_by
  all_goals
    apply Partition.length_lt_of_mem_ofSpan _divided _nonempty
    simp [Partition.parts, *]

/-- The tree of a text.  The text holds no white space, and every multiplication
is written out. -/
def build (tables : SymbolTables) (text : String) : Except ExpressionError Expression := do
  let scan ← Scan.ofChars tables text.toList
  match ← ofSpan tables scan ⟨0, scan.chars.length, 0⟩ with
  | some expression => return expression
  | none => throw .emptyExpression

end Expression
end DecimalCalculator
