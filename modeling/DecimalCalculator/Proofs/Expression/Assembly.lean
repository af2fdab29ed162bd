/-
One step of building an expression.

Building divides a text or a part, builds what it is divided into, and puts the
trees together.  How they are put together depends only on the division and on
what its pieces give, so both ways of building take the same step.
-/

import DecimalCalculator.Expression.Piecewise

namespace DecimalCalculator

variable {tables : SymbolTables}

/-- The tree of a divided part that begins at the given position. -/
def Partition.assemble (start : Nat) (build : Span → Except ExpressionError (Option Expression)) :
    Partition → Except ExpressionError (Option Expression)
  | .enclosed kind content => do
      match ← build content with
      | some child => return some (.brackets kind child)
      | none => throw (.emptyBrackets start)
  | .items parts => do return some (.list ((← parts.mapM build).filterMap id))
  | .leading symbol position operand => do
      return some (← Expression.ofLeading symbol position (← build operand))
  | .binary symbol position left right => do
      let left ← Expression.required symbol position (← build left)
      let right ← Expression.required symbol position (← build right)
      return some (.operator symbol left right)
  | .constant name => .ok (some (.constant (String.ofList name)))
  | .function name nameSuffix operand => do
      let nameSuffix ← build nameSuffix
      let operand ← build operand
      return some (.function (String.ofList name) nameSuffix operand)
  | .suffix symbol count operand => do return some (.suffix symbol count (← build operand))
  | .literal chars => do return some (← Expression.ofLiteral chars)

def Division.assemble (build : Piece → Except ExpressionError (Option Expression)) :
    Division → Except ExpressionError (Option Expression)
  | .enclosed kind content => do
      match ← build content with
      | some child => return some (.brackets kind child)
      | none => throw (.emptyBrackets 0)
  | .items pieces => do return some (.list ((← pieces.mapM build).filterMap id))
  | .leading symbol operand => do
      return some (← Expression.ofLeading symbol 0 (← build operand))
  | .binary symbol position left right => do
      let left ← Expression.required symbol position (← build left)
      let right ← Expression.required symbol position (← build right)
      return some (.operator symbol left right)
  | .constant name => .ok (some (.constant (String.ofList name)))
  | .function name nameSuffix operand => do
      let nameSuffix ← build nameSuffix
      let operand ← build operand
      return some (.function (String.ofList name) nameSuffix operand)
  | .suffix symbol count operand => do return some (.suffix symbol count (← build operand))
  | .literal chars => do return some (← Expression.ofLiteral chars)

namespace Expression

/-- The tree of a piece, with errors at their positions in the text it is a piece of. -/
def ofPiece (tables : SymbolTables) (piece : Piece) : Except ExpressionError (Option Expression) :=
  (ofText tables piece.chars).mapError (·.shifted piece.offset)

theorem ofLiteral_eq_ok_iff {chars : List Char} {tree : Expression} :
    ofLiteral chars = .ok tree ↔
      Literal.isCountable chars = true ∧ Literal.isLiteral chars = true ∧
        .number (String.ofList chars) = tree := by
  unfold ofLiteral
  cases Literal.isCountable chars <;> cases Literal.isLiteral chars <;> simp

theorem ofLiteral_eq_error_iff {chars : List Char} {error : ExpressionError} :
    ofLiteral chars = .error error ↔
      (Literal.isCountable chars = false ∧ .overflow = error) ∨
        (Literal.isLiteral chars = false ∧ Literal.isCountable chars = true ∧
          .malformedNumber (String.ofList chars) = error) := by
  unfold ofLiteral
  cases Literal.isCountable chars <;> cases Literal.isLiteral chars <;> simp

theorem ofSpan_of_empty {scan : Scan} {span : Span} (empty : ¬span.start < span.stop) :
    ofSpan tables scan span = .ok none := by
  rw [ofSpan, dif_neg empty]

theorem ofText_nil : ofText tables [] = .ok none := by
  rw [ofText]
  simp

theorem ofSpan_eq_assemble {scan : Scan} {span : Span} (nonempty : span.start < span.stop) :
    ofSpan tables scan span =
      (Partition.ofSpan tables scan span).bind (·.assemble span.start (ofSpan tables scan)) := by
  rw [ofSpan, dif_pos nonempty]
  split
  all_goals
    rename_i divided
    rw [divided]
  case h_3 parts =>
    have every : (parts.attach.mapM fun part => ofSpan tables scan part.1) =
        parts.mapM (ofSpan tables scan) := by simp
    exact congrArg (· >>= fun items => .ok (some (list (items.filterMap id)))) every
  all_goals rfl

theorem ofText_eq_assemble {text : List Char} (nonempty : text ≠ []) :
    ofText tables text =
      (Division.ofText tables text).bind (·.assemble (ofPiece tables)) := by
  rw [ofText, dif_pos nonempty]
  split
  all_goals
    rename_i divided
    rw [divided]
  case h_3 pieces =>
    have every : (pieces.attach.mapM fun piece => ofPiece tables piece.1) =
        pieces.mapM (ofPiece tables) := by simp
    exact congrArg (· >>= fun items => .ok (some (list (items.filterMap id)))) every
  all_goals rfl

end Expression
end DecimalCalculator
