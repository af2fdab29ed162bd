/-
How a part of a scanned expression is divided into smaller parts.

A part is a range of positions together with the bracket level of its outermost
characters.  Only marks of this level divide the part.  Every rule yields parts
that are shorter, which is what makes building an expression end.
-/

import DecimalCalculator.Expression.Literal
import DecimalCalculator.Expression.Scan

namespace DecimalCalculator

/-! ### Parts -/

/-- The characters from `start` up to, but without, `stop`, inside `level` brackets. -/
structure Span where
  start : Nat
  stop : Nat
  level : Nat
  deriving DecidableEq, Repr

namespace Span

def length (span : Span) : Nat :=
  span.stop - span.start

/-- The parts between the given positions, the first of which begins at `start`.
The characters at these positions belong to no part. -/
def between (stop level : Nat) : (start : Nat) → (cuts : List Nat) → List Span
  | start, [] => [⟨start, stop, level⟩]
  | start, cut :: cuts => ⟨start, cut, level⟩ :: between stop level (cut + 1) cuts

end Span

namespace Scan

def piece (scan : Scan) (span : Span) : List Char :=
  scan.chars.extract span.start span.stop

def marksWithin (scan : Scan) (span : Span) : List Mark :=
  scan.marks.filter fun mark =>
    mark.level = span.level && span.start ≤ mark.position && mark.position < span.stop

def separatorsWithin (scan : Scan) (span : Span) : List Nat :=
  (scan.marksWithin span).filterMap fun mark =>
    if mark.divider = .separator then some mark.position else none

structure PlacedOperator where
  symbol : Char
  priority : Int
  position : Nat

/-- The operators that divide a part, in the order of their positions. -/
def operatorsWithin (scan : Scan) (span : Span) : List PlacedOperator :=
  (scan.marksWithin span).filterMap fun mark =>
    match mark.divider with
    | .operator symbol priority => some ⟨symbol, priority, mark.position⟩
    | .separator => none

/-- The operator that is applied last: of those with the lowest priority the
last one, so that operators of one priority group from left to right. -/
def lastApplied? : List PlacedOperator → Option PlacedOperator
  | [] => none
  | operator :: rest =>
      match lastApplied? rest with
      | none => some operator
      | some later => some (if operator.priority < later.priority then operator else later)

end Scan

/-! ### Division -/

/-- A part divided by the first rule that applies. -/
inductive Partition where
  /-- The part is a pair of brackets and its content. -/
  | enclosed (kind : Nat) (content : Span)
  /-- The part is a list. -/
  | items (parts : List Span)
  /-- The part begins with the operator that is applied last. -/
  | leading (symbol : Char) (position : Nat) (operand : Span)
  | binary (symbol : Char) (position : Nat) (left right : Span)
  /-- The part is a name alone. -/
  | constant (name : List Char)
  /-- The part is a name, a suffix made of digits, points and suffix operators
  that begins with a digit, and an operand; one of the two may be empty. -/
  | function (name : List Char) (suffix operand : Span)
  | suffix (symbol : Char) (count : Nat) (operand : Span)
  /-- Nothing divides the part. -/
  | literal (chars : List Char)

namespace Partition

/-- The smaller parts, in the order in which they are built. -/
def parts : Partition → List Span
  | .enclosed _ content => [content]
  | .items parts => parts
  | .leading _ _ operand => [operand]
  | .binary _ _ left right => [left, right]
  | .constant _ => []
  | .function _ nameSuffix operand => [nameSuffix, operand]
  | .suffix _ _ operand => [operand]
  | .literal _ => []

/-- The characters that may belong to the suffix of a function. -/
def belongsToSuffix (tables : SymbolTables) (char : Char) : Bool :=
  char.isDigit || char == '.' || tables.isSuffix char

/-- The suffix with which the characters after a function name begin. -/
def leadingSuffix (tables : SymbolTables) (chars : List Char) : List Char :=
  if chars.head?.any Char.isDigit then chars.takeWhile (belongsToSuffix tables) else []

def ofName (tables : SymbolTables) (span : Span) (piece : List Char) : Partition :=
  let name := piece.takeWhile tables.isLetter
  let rest := piece.dropWhile tables.isLetter
  if rest.isEmpty then
    .constant name
  else
    let suffixStart := span.start + name.length
    let operandStart := suffixStart + (leadingSuffix tables rest).length
    .function name ⟨suffixStart, operandStart, span.level⟩ ⟨operandStart, span.stop, span.level⟩

/-- A part without dividers: a name, a suffix operator behind its operand, or a
literal. -/
def ofOperand (tables : SymbolTables) (span : Span) (piece : List Char) : Partition :=
  if piece.head?.any tables.isLetter then
    ofName tables span piece
  else
    match piece.getLast? with
    | some symbol =>
        if tables.isSuffix symbol then
          let count := (piece.reverse.takeWhile (· == symbol)).length
          .suffix symbol count ⟨span.start, span.stop - count, span.level⟩
        else
          .literal piece
    | none => .literal piece

/-- A part outside brackets: separators divide it first, then the operator that
is applied last. -/
def ofExposed (tables : SymbolTables) (scan : Scan) (span : Span) : Partition :=
  match scan.separatorsWithin span with
  | cut :: cuts => .items (Span.between span.stop span.level span.start (cut :: cuts))
  | [] =>
      match Scan.lastApplied? (scan.operatorsWithin span) with
      | some operator =>
          let right : Span := ⟨operator.position + 1, span.stop, span.level⟩
          if operator.position = span.start then
            .leading operator.symbol operator.position right
          else
            .binary operator.symbol operator.position
              ⟨span.start, operator.position, span.level⟩ right
      | none => ofOperand tables span (scan.piece span)

/-- Divides a part that is not empty.  Brackets that do not match inside the part
show that it is no expression, such as the inside of (1)(2). -/
def ofSpan (tables : SymbolTables) (scan : Scan) (span : Span) :
    Except ExpressionError Partition :=
  match isEnclosed tables span.start [] (scan.piece span) with
  | .error error => .error error
  | .ok false => .ok (ofExposed tables scan span)
  | .ok true =>
      match (scan.piece span).head?.bind tables.bracketKind? with
      | some kind => .ok (.enclosed kind ⟨span.start + 1, span.stop - 1, span.level + 1⟩)
      | none => .error (.mismatchedBracket span.start)

end Partition

/-! ### Every part is shorter -/

/-- Parts between positions lie behind the position before them. -/
theorem Span.mem_between_bounds {stop level lower : Nat} {cuts : List Nat}
    (inside : ∀ cut ∈ cuts, lower ≤ cut ∧ cut < stop) {start : Nat} (behind : lower < start) :
    ∀ part ∈ Span.between stop level start cuts, lower < part.start ∧ part.stop ≤ stop := by
  induction cuts generalizing start with
  | nil =>
      intro part member
      simp only [Span.between, List.mem_singleton] at member
      subst member
      exact ⟨behind, Nat.le_refl stop⟩
  | cons cut cuts ih =>
      intro part member
      have first := inside cut (List.mem_cons_self ..)
      simp only [Span.between, List.mem_cons] at member
      cases member with
      | inl same =>
          subst same
          exact ⟨behind, Nat.le_of_lt first.2⟩
      | inr later =>
          exact ih (fun other present => inside other (List.mem_cons_of_mem _ present))
            (Nat.lt_succ_of_le first.1) part later

theorem Span.length_lt_of_mem_between {start stop level cut : Nat} {cuts : List Nat}
    (inside : ∀ other ∈ cut :: cuts, start ≤ other ∧ other < stop) :
    ∀ part ∈ Span.between stop level start (cut :: cuts), part.length < stop - start := by
  intro part member
  have first := inside cut (List.mem_cons_self ..)
  simp only [Span.between, List.mem_cons] at member
  cases member with
  | inl same =>
      subst same
      simp only [Span.length]
      omega
  | inr later =>
      have bounds := Span.mem_between_bounds
        (fun other present => inside other (List.mem_cons_of_mem _ present))
        (Nat.lt_succ_of_le first.1) part later
      simp only [Span.length]
      omega

theorem Scan.position_of_mem_marksWithin {scan : Scan} {span : Span} {mark : Mark}
    (member : mark ∈ scan.marksWithin span) :
    span.start ≤ mark.position ∧ mark.position < span.stop := by
  have conditions := (List.mem_filter.mp member).2
  simp only [Bool.and_eq_true, decide_eq_true_eq] at conditions
  exact ⟨conditions.1.2, conditions.2⟩

theorem Scan.bounds_of_mem_separatorsWithin {scan : Scan} {span : Span} {position : Nat}
    (member : position ∈ scan.separatorsWithin span) :
    span.start ≤ position ∧ position < span.stop := by
  obtain ⟨mark, present, chosen⟩ := List.mem_filterMap.mp member
  split at chosen
  · cases chosen
    exact Scan.position_of_mem_marksWithin present
  · cases chosen

theorem Scan.bounds_of_mem_operatorsWithin {scan : Scan} {span : Span}
    {operator : Scan.PlacedOperator} (member : operator ∈ scan.operatorsWithin span) :
    span.start ≤ operator.position ∧ operator.position < span.stop := by
  obtain ⟨mark, present, chosen⟩ := List.mem_filterMap.mp member
  split at chosen
  · cases chosen
    exact Scan.position_of_mem_marksWithin present
  · cases chosen

theorem Scan.mem_of_lastApplied? {operators : List Scan.PlacedOperator}
    {operator : Scan.PlacedOperator} (found : Scan.lastApplied? operators = some operator) :
    operator ∈ operators := by
  induction operators generalizing operator with
  | nil => cases found
  | cons head tail ih =>
      simp only [Scan.lastApplied?] at found
      cases later : Scan.lastApplied? tail with
      | none =>
          rw [later] at found
          cases found
          exact List.mem_cons_self ..
      | some last =>
          rw [later] at found
          simp only [Option.some.injEq] at found
          split at found
          · subst found
            exact List.mem_cons_self ..
          · subst found
            exact List.mem_cons_of_mem _ (ih later)

theorem Scan.length_piece_le (scan : Scan) (span : Span) :
    (scan.piece span).length ≤ span.length := by
  simp only [Scan.piece, Span.length, List.extract_eq_take_drop, List.length_take]
  omega

namespace Partition

theorem length_lt_of_mem_ofName {tables : SymbolTables} {span : Span} {piece : List Char}
    (fits : piece.length ≤ span.length) (letter : piece.head?.any tables.isLetter = true) :
    ∀ part ∈ (ofName tables span piece).parts, part.length < span.length := by
  intro part member
  have whole : (piece.takeWhile tables.isLetter).length +
      (piece.dropWhile tables.isLetter).length = piece.length := by
    rw [← List.length_append, List.takeWhile_append_dropWhile]
  have named : 0 < (piece.takeWhile tables.isLetter).length := by
    cases piece with
    | nil => cases letter
    | cons first rest =>
        have isLetter : tables.isLetter first = true := letter
        simp [isLetter]
  have short : (leadingSuffix tables (piece.dropWhile tables.isLetter)).length ≤
      (piece.dropWhile tables.isLetter).length := by
    unfold leadingSuffix
    split
    · exact (List.takeWhile_prefix _).length_le
    · exact Nat.zero_le _
  simp only [ofName] at member
  simp only [Span.length] at fits ⊢
  split at member
  · cases member
  · simp only [parts, List.mem_cons, List.not_mem_nil, or_false] at member
    cases member with
    | inl same =>
        subst same
        simp only
        omega
    | inr same =>
        subst same
        simp only
        omega

theorem length_lt_of_mem_ofOperand {tables : SymbolTables} {span : Span} {piece : List Char}
    (fits : piece.length ≤ span.length) :
    ∀ part ∈ (ofOperand tables span piece).parts, part.length < span.length := by
  intro part member
  unfold ofOperand at member
  split at member
  · exact length_lt_of_mem_ofName fits (by assumption) part member
  · split at member
    · rename_i symbol last
      split at member
      · simp only [parts, List.mem_singleton] at member
        subst member
        have counted : 0 < (piece.reverse.takeWhile (· == symbol)).length := by
          rw [List.getLast?_eq_head?_reverse] at last
          cases reversed : piece.reverse with
          | nil => rw [reversed] at last; cases last
          | cons first rest =>
              rw [reversed] at last
              simp only [List.head?_cons, Option.some.injEq] at last
              simp [last]
        have nonempty : 0 < piece.length := by
          cases piece with
          | nil => cases last
          | cons first rest => simp
        simp only [Span.length] at fits ⊢
        omega
      · cases member
    · cases member

theorem length_lt_of_mem_ofExposed {tables : SymbolTables} {scan : Scan} {span : Span} :
    ∀ part ∈ (ofExposed tables scan span).parts, part.length < span.length := by
  intro part member
  unfold ofExposed at member
  split at member
  · rename_i cut cuts separators
    have inside : ∀ other ∈ cut :: cuts, span.start ≤ other ∧ other < span.stop := by
      intro other present
      rw [← separators] at present
      exact Scan.bounds_of_mem_separatorsWithin present
    exact Span.length_lt_of_mem_between inside part member
  · split at member
    · rename_i operator found
      have bounds := Scan.bounds_of_mem_operatorsWithin (Scan.mem_of_lastApplied? found)
      simp only at member
      split at member
      · simp only [parts, List.mem_singleton] at member
        subst member
        simp only [Span.length]
        omega
      · simp only [parts, List.mem_cons, List.not_mem_nil, or_false] at member
        cases member with
        | inl same =>
            subst same
            simp only [Span.length]
            omega
        | inr same =>
            subst same
            simp only [Span.length]
            omega
    · exact length_lt_of_mem_ofOperand (Scan.length_piece_le scan span) part member

/-- Every part of a partition is shorter than the part that was divided. -/
theorem length_lt_of_mem_ofSpan {tables : SymbolTables} {scan : Scan} {span : Span}
    {partition : Partition} (divided : ofSpan tables scan span = .ok partition)
    (nonempty : span.start < span.stop) :
    ∀ part ∈ partition.parts, part.length < span.length := by
  intro part member
  unfold ofSpan at divided
  split at divided
  · cases divided
  · cases divided
    exact length_lt_of_mem_ofExposed part member
  · split at divided
    · cases divided
      simp only [parts, List.mem_singleton] at member
      subst member
      simp only [Span.length]
      omega
    · cases divided

end Partition
end DecimalCalculator
