/-
Building an expression without positions.

Every piece is read as a text of its own: its brackets are checked, its
characters outside brackets decide how it is divided, and the pieces are read in
the same way.  No table of marks and no level is kept.  A position in an error
counts from the start of the piece, and is moved when the error leaves the piece.
-/

import DecimalCalculator.Expression.Build

namespace DecimalCalculator

/-! ### Characters outside brackets -/

def depthAfter (tables : SymbolTables) (depth : Nat) (char : Char) : Nat :=
  if tables.opensBracket char then depth + 1
  else if tables.closesBracket char then depth - 1
  else depth

/-- Whether a character with so many open brackets before it stands outside brackets. -/
def isExposed (tables : SymbolTables) (depth : Nat) (char : Char) : Bool :=
  depth == 0 && !isBracket tables char

def exposed (tables : SymbolTables) : (depth : Nat) → List Char → List Char
  | _, [] => []
  | depth, char :: rest =>
      let later := exposed tables (depthAfter tables depth char) rest
      if isExposed tables depth char then char :: later else later

def checkNesting (tables : SymbolTables) :
    (position : Nat) → (opened : List Nat) → List Char → Except ExpressionError Unit
  | _, opened, [] => if opened.isEmpty then .ok () else .error .unclosedBracket
  | position, opened, char :: rest =>
      match nestingAfter? tables opened char with
      | none => .error (.mismatchedBracket position)
      | some nesting => checkNesting tables (position + 1) nesting rest

/-! ### Cuts -/

/-- The text before the first exposed separator, and the texts behind each of them. -/
def splitItems (tables : SymbolTables) : (depth : Nat) → List Char → List Char × List (List Char)
  | _, [] => ([], [])
  | depth, char :: rest =>
      let later := splitItems tables (depthAfter tables depth char) rest
      if isExposed tables depth char && char == listSeparator then ([], later.1 :: later.2)
      else (char :: later.1, later.2)

structure OperatorCut where
  left : List Char
  symbol : Char
  priority : Int
  right : List Char

/-- The cut at the exposed operator that is applied last: of those with the lowest
priority the last one. -/
def lastCut? (tables : SymbolTables) : (depth : Nat) → List Char → Option OperatorCut
  | _, [] => none
  | depth, char :: rest =>
      let later := (lastCut? tables (depthAfter tables depth char) rest).map fun cut =>
        { cut with left := char :: cut.left }
      match if isExposed tables depth char then tables.priority? char else none with
      | none => later
      | some priority =>
          match later with
          | none => some ⟨[], char, priority, rest⟩
          | some cut =>
              some (if priority < cut.priority then ⟨[], char, priority, rest⟩ else cut)

/-! ### Division -/

/-- A part of a text, and the position in the text at which it begins. -/
structure Piece where
  offset : Nat
  chars : List Char

namespace Piece

/-- Texts that follow each other with one character between them. -/
def inSequence : (offset : Nat) → List (List Char) → List Piece
  | _, [] => []
  | offset, chars :: rest => ⟨offset, chars⟩ :: inSequence (offset + chars.length + 1) rest

end Piece

/-- A text divided by the first rule that applies. -/
inductive Division where
  | enclosed (kind : Nat) (content : Piece)
  | items (pieces : List Piece)
  | leading (symbol : Char) (operand : Piece)
  | binary (symbol : Char) (position : Nat) (left right : Piece)
  | constant (name : List Char)
  | function (name : List Char) (suffix operand : Piece)
  | suffix (symbol : Char) (count : Nat) (operand : Piece)
  | literal (chars : List Char)

namespace Division

def pieces : Division → List Piece
  | .enclosed _ content => [content]
  | .items pieces => pieces
  | .leading _ operand => [operand]
  | .binary _ _ left right => [left, right]
  | .constant _ => []
  | .function _ nameSuffix operand => [nameSuffix, operand]
  | .suffix _ _ operand => [operand]
  | .literal _ => []

def ofName (tables : SymbolTables) (text : List Char) : Division :=
  let name := text.takeWhile tables.isLetter
  let rest := text.dropWhile tables.isLetter
  if rest.isEmpty then
    .constant name
  else
    let nameSuffix := Partition.leadingSuffix tables rest
    .function name ⟨name.length, nameSuffix⟩
      ⟨name.length + nameSuffix.length, rest.drop nameSuffix.length⟩

/-- A text without dividers and without a name: a suffix operator behind its operand,
or a literal. -/
def ofUnnamed (tables : SymbolTables) (text : List Char) : Division :=
  match text.getLast? with
  | some symbol =>
      if tables.isSuffix symbol then
        let count := (text.reverse.takeWhile (· == symbol)).length
        .suffix symbol count ⟨0, text.take (text.length - count)⟩
      else
        .literal text
  | none => .literal text

def ofOperand (tables : SymbolTables) (text : List Char) : Division :=
  if text.head?.any tables.isLetter then ofName tables text else ofUnnamed tables text

def ofCut (cut : OperatorCut) : Division :=
  let right : Piece := ⟨cut.left.length + 1, cut.right⟩
  if cut.left.isEmpty then .leading cut.symbol right
  else .binary cut.symbol cut.left.length ⟨0, cut.left⟩ right

/-- A text with characters outside brackets: separators divide it first, then the
operator that is applied last. -/
def ofExposed (tables : SymbolTables) (text : List Char) : Division :=
  if listSeparator ∈ exposed tables 0 text then
    let items := splitItems tables 0 text
    .items (Piece.inSequence 0 (items.1 :: items.2))
  else
    match lastCut? tables 0 text with
    | some cut => ofCut cut
    | none => ofOperand tables text

def ofText (tables : SymbolTables) (text : List Char) : Except ExpressionError Division :=
  match checkNesting tables 0 [] text with
  | .error error => .error error
  | .ok () =>
      if exposed tables 0 text = [] then
        match text.head?.bind tables.bracketKind? with
        | some kind => .ok (.enclosed kind ⟨1, text.tail.dropLast⟩)
        | none => .error (.mismatchedBracket 0)
      else
        .ok (ofExposed tables text)

end Division

/-! ### Every piece is shorter -/

theorem splitItems_joined (tables : SymbolTables) (depth : Nat) (text : List Char) :
    (splitItems tables depth text).1 ++
      (splitItems tables depth text).2.flatMap (listSeparator :: ·) = text := by
  induction text generalizing depth with
  | nil => rfl
  | cons char rest ih =>
      have later := ih (depthAfter tables depth char)
      simp only [splitItems]
      split
      · rename_i separates
        simp only [Bool.and_eq_true, beq_iff_eq] at separates
        rw [List.nil_append, List.flatMap_cons, List.cons_append, later, separates.2]
      · rw [List.cons_append, later]

theorem splitItems_ne_nil {tables : SymbolTables} {depth : Nat} {text : List Char}
    (separated : listSeparator ∈ exposed tables depth text) :
    (splitItems tables depth text).2 ≠ [] := by
  induction text generalizing depth with
  | nil => cases separated
  | cons char rest ih =>
      simp only [splitItems]
      split
      · exact List.cons_ne_nil _ _
      · rename_i joins
        apply ih
        simp only [exposed] at separated
        split at separated
        · rename_i outside
          rcases List.mem_cons.mp separated with same | later
          · exact absurd (by rw [outside, ← same]; rfl) joins
          · exact later
        · exact separated

theorem length_lt_of_mem_splitItems {tables : SymbolTables} {text : List Char}
    (separated : listSeparator ∈ exposed tables 0 text) :
    ∀ item ∈ (splitItems tables 0 text).1 :: (splitItems tables 0 text).2,
      item.length < text.length := by
  intro item member
  have several := splitItems_ne_nil separated
  have whole := congrArg List.length (splitItems_joined tables 0 text)
  obtain ⟨other, others, split⟩ := List.exists_cons_of_ne_nil several
  rcases List.mem_cons.mp member with same | later
  · subst same
    rw [split, List.flatMap_cons] at whole
    simp only [List.length_append, List.length_cons] at whole
    omega
  · have within := (List.sublist_flatten_of_mem
      (List.mem_map_of_mem (f := (listSeparator :: ·)) later)).length_le
    rw [List.flatMap_def] at whole
    simp only [List.length_append, List.length_cons] at whole within
    omega

theorem Piece.mem_inSequence {piece : Piece} {offset : Nat} {items : List (List Char)}
    (member : piece ∈ Piece.inSequence offset items) : piece.chars ∈ items := by
  induction items generalizing offset with
  | nil => cases member
  | cons item items ih =>
      rcases List.mem_cons.mp member with same | later
      · exact same ▸ List.mem_cons_self
      · exact List.mem_cons_of_mem item (ih later)

theorem append_of_lastCut? {tables : SymbolTables} {depth : Nat} {text : List Char}
    {cut : OperatorCut} (found : lastCut? tables depth text = some cut) :
    text = cut.left ++ cut.symbol :: cut.right := by
  induction text generalizing depth cut with
  | nil => cases found
  | cons char rest ih =>
      simp only [lastCut?] at found
      cases later : lastCut? tables (depthAfter tables depth char) rest with
      | none => grind
      | some last =>
          have := ih later
          grind

namespace Division

theorem length_lt_of_mem_ofName {tables : SymbolTables} {text : List Char}
    (letter : text.head?.any tables.isLetter = true) :
    ∀ piece ∈ (ofName tables text).pieces, piece.chars.length < text.length := by
  intro piece member
  have whole : (text.takeWhile tables.isLetter).length +
      (text.dropWhile tables.isLetter).length = text.length := by
    rw [← List.length_append, List.takeWhile_append_dropWhile]
  have named : 0 < (text.takeWhile tables.isLetter).length := by
    cases text with
    | nil => cases letter
    | cons first rest =>
        have isLetter : tables.isLetter first = true := letter
        simp [isLetter]
  have short : (Partition.leadingSuffix tables (text.dropWhile tables.isLetter)).length ≤
      (text.dropWhile tables.isLetter).length := by
    unfold Partition.leadingSuffix
    split
    · exact (List.takeWhile_prefix _).length_le
    · exact Nat.zero_le _
  simp only [ofName] at member
  split at member
  · cases member
  · simp only [pieces, List.mem_cons, List.not_mem_nil, or_false] at member
    rcases member with same | same
    · subst same
      simp only
      omega
    · subst same
      simp only [List.length_drop]
      omega

theorem length_lt_of_mem_ofUnnamed {tables : SymbolTables} {text : List Char} :
    ∀ piece ∈ (ofUnnamed tables text).pieces, piece.chars.length < text.length := by
  intro piece member
  unfold ofUnnamed at member
  split at member
  · rename_i symbol last
    split at member
    · simp only [pieces, List.mem_singleton] at member
      subst member
      have counted : 0 < (text.reverse.takeWhile (· == symbol)).length := by
        rw [List.getLast?_eq_head?_reverse] at last
        cases reversed : text.reverse with
        | nil => rw [reversed] at last; cases last
        | cons first rest =>
            rw [reversed] at last
            simp only [List.head?_cons, Option.some.injEq] at last
            simp [last]
      have nonempty : 0 < text.length := by
        cases text with
        | nil => cases last
        | cons first rest => simp
      simp only [List.length_take]
      omega
    · cases member
  · cases member

theorem length_lt_of_mem_ofOperand {tables : SymbolTables} {text : List Char} :
    ∀ piece ∈ (ofOperand tables text).pieces, piece.chars.length < text.length := by
  intro piece member
  unfold ofOperand at member
  split at member
  · exact length_lt_of_mem_ofName (by assumption) piece member
  · exact length_lt_of_mem_ofUnnamed piece member

theorem length_lt_of_mem_ofCut {tables : SymbolTables} {text : List Char} {cut : OperatorCut}
    (found : lastCut? tables 0 text = some cut) :
    ∀ piece ∈ (ofCut cut).pieces, piece.chars.length < text.length := by
  intro piece member
  have whole := congrArg List.length (append_of_lastCut? found)
  simp only [List.length_append, List.length_cons] at whole
  unfold ofCut at member
  simp only at member
  split at member
  · simp only [pieces, List.mem_singleton] at member
    subst member
    simp only
    omega
  · simp only [pieces, List.mem_cons, List.not_mem_nil, or_false] at member
    rcases member with same | same
    · subst same
      simp only
      omega
    · subst same
      simp only
      omega

/-- Every piece of a division is shorter than the text that was divided. -/
theorem length_lt_of_mem_ofText {tables : SymbolTables} {text : List Char} {division : Division}
    (divided : ofText tables text = .ok division) (nonempty : text ≠ []) :
    ∀ piece ∈ division.pieces, piece.chars.length < text.length := by
  intro piece member
  have positive := List.length_pos_iff.mpr nonempty
  unfold ofText at divided
  split at divided
  · cases divided
  · split at divided
    · split at divided
      · cases divided
        simp only [pieces, List.mem_singleton] at member
        subst member
        simp only [List.length_dropLast, List.length_tail]
        omega
      · cases divided
    · cases divided
      unfold ofExposed at member
      split at member
      · exact length_lt_of_mem_splitItems (by assumption) _ (Piece.mem_inSequence member)
      · split at member
        · exact length_lt_of_mem_ofCut (by assumption) piece member
        · exact length_lt_of_mem_ofOperand piece member

end Division

/-! ### The builder -/

/-- The error with its position counted from so many characters earlier. -/
def ExpressionError.shifted (offset : Nat) : ExpressionError → ExpressionError
  | .mismatchedBracket position => .mismatchedBracket (offset + position)
  | .emptyBrackets position => .emptyBrackets (offset + position)
  | .missingOperand symbol position => .missingOperand symbol (offset + position)
  | .unclosedBracket => .unclosedBracket
  | .malformedNumber text => .malformedNumber text
  | .emptyExpression => .emptyExpression
  | .overflow => .overflow

namespace Expression

def ofText (tables : SymbolTables) (text : List Char) :
    Except ExpressionError (Option Expression) :=
  if _nonempty : text ≠ [] then
    match _divided : Division.ofText tables text with
    | .error error => .error error
    | .ok (.enclosed kind content) => do
        match ← (ofText tables content.chars).mapError (·.shifted content.offset) with
        | some child => return some (.brackets kind child)
        | none => throw (.emptyBrackets 0)
    | .ok (.items pieces) => do
        let items ← pieces.attach.mapM fun ⟨piece, _⟩ =>
          (ofText tables piece.chars).mapError (·.shifted piece.offset)
        return some (.list (items.filterMap id))
    | .ok (.leading symbol operand) => do
        return some (← ofLeading symbol 0
          (← (ofText tables operand.chars).mapError (·.shifted operand.offset)))
    | .ok (.binary symbol position left right) => do
        let left ← required symbol position
          (← (ofText tables left.chars).mapError (·.shifted left.offset))
        let right ← required symbol position
          (← (ofText tables right.chars).mapError (·.shifted right.offset))
        return some (.operator symbol left right)
    | .ok (.constant name) => .ok (some (.constant (String.ofList name)))
    | .ok (.function name nameSuffix operand) => do
        let nameSuffix ← (ofText tables nameSuffix.chars).mapError (·.shifted nameSuffix.offset)
        let operand ← (ofText tables operand.chars).mapError (·.shifted operand.offset)
        return some (.function (String.ofList name) nameSuffix operand)
    | .ok (.suffix symbol count operand) => do
        return some (.suffix symbol count
          (← (ofText tables operand.chars).mapError (·.shifted operand.offset)))
    | .ok (.literal chars) => do
        return some (← ofLiteral chars)
  else
    .ok none
termination_by text.length
decreasing_by
  all_goals
    apply Division.length_lt_of_mem_ofText _divided _nonempty
    simp [Division.pieces, *]

def buildPiecewise (tables : SymbolTables) (text : String) :
    Except ExpressionError Expression := do
  match ← ofText tables text.toList with
  | some expression => return expression
  | none => throw .emptyExpression

end Expression
end DecimalCalculator
