/-
Building by positions and building by texts agree.

Every piece of a division is covered by a part of the scanned expression, so the
step that divides a part is the step that divides its text.  By induction on the
length of the text the whole runs agree, in their trees and in their errors.
-/

import DecimalCalculator.Proofs.Expression.Assembly
import DecimalCalculator.Proofs.Expression.Positions

namespace DecimalCalculator

variable {tables : SymbolTables}

/-! ### Parts cover pieces -/

def Division.innerLevel (level : Nat) (division : Division) : Nat :=
  if division.hides then level + 1 else level

theorem Covers.behind {scan : Scan} {span : Span} {left piece right before after : List Char}
    {opened : List Nat}
    (covers : Covers tables scan span (left ++ (piece ++ right)) opened before after)
    (balanced : IsBalanced tables left)
    (closed : ∀ final, nestingThrough? tables [] piece = some final → final = []) :
    Covers tables scan (Piece.span span.start span.level ⟨left.length, piece⟩) piece opened
      (before ++ left) (right ++ after) where
  chars := by
    rw [covers.chars]
    simp only [List.append_assoc]
  marks := covers.marks
  start := by
    rw [List.length_append]
    exact congrArg (· + left.length) covers.start
  stop := by
    rw [List.length_append]
    exact congrArg (· + left.length + piece.length) covers.start
  level := covers.level
  opened := by
    rw [nestingThrough?_append, covers.opened]
    exact balanced.nestingThrough? opened
  closed := closed

theorem Covers.between {scan : Scan} {span : Span} {opening closing : Char} {kind : Nat}
    {content before after : List Char} {opened : List Nat}
    (covers : Covers tables scan span (opening :: (content ++ [closing])) opened before after)
    (enclosing : IsEnclosing tables opening closing kind content) :
    Covers tables scan (Piece.span span.start (span.level + 1) ⟨1, content⟩) content
      (kind :: opened) (before ++ [opening]) (closing :: after) where
  chars := by
    rw [covers.chars]
    simp only [List.append_assoc, List.cons_append, List.nil_append]
  marks := covers.marks
  start := by
    rw [List.length_append]
    exact congrArg (· + 1) covers.start
  stop := by
    rw [List.length_append]
    exact congrArg (· + 1 + content.length) covers.start
  level := congrArg (· + 1) covers.level
  opened := by
    rw [nestingThrough?_append, covers.opened]
    exact nestingThrough?_cons_eq_some.mpr
      ⟨_, nestingAfter?_of_opensBracket enclosing.opens enclosing.openingKind opened, rfl⟩
  closed := fun final through => (enclosing.closed final through).1

theorem Covers.of_mem_pieces (usable : tables.Unambiguous) {scan : Scan} {span : Span}
    {text before after : List Char} {opened : List Nat} {division : Division}
    (covers : Covers tables scan span text opened before after)
    (divides : Divides tables text division) {piece : Piece} (member : piece ∈ division.pieces) :
    ∃ opened before after, Covers tables scan
      (piece.span span.start (division.innerLevel span.level)) piece.chars opened before after := by
  cases hides : division.hides with
  | true =>
      cases divides with
      | enclosed enclosing =>
          rw [List.mem_singleton.mp member]
          exact ⟨_, _, _, covers.between enclosing⟩
      | _ => cases hides
  | false =>
      obtain ⟨left, right, split, begins, inFront, inside⟩ :=
        divides.exists_around usable hides member
      obtain ⟨offset, chars⟩ := piece
      simp only at split begins inside
      subst begins
      rw [split] at covers
      simp only [Division.innerLevel, hides]
      exact ⟨_, _, _, covers.behind inFront inside.closed⟩

/-! ### One step -/

theorem Division.assemble_place (division : Division) (start level : Nat)
    {ofPart : Span → Except ExpressionError (Option Expression)}
    {ofPiece : Piece → Except ExpressionError (Option Expression)}
    (same : ∀ piece ∈ division.pieces, ofPart (piece.span start (division.innerLevel level)) =
      (ofPiece piece).mapError (·.shifted start)) :
    (division.place start level).assemble start ofPart =
      (division.assemble ofPiece).mapError (·.shifted start) := by
  cases division with
  | enclosed kind content =>
      have inside : ofPart (content.span start (level + 1)) = _ := same content List.mem_cons_self
      simp only [place, assemble, Partition.assemble, inside]
      cases ofPiece content with
      | error error => rfl
      | ok child => cases child <;> rfl
  | items pieces =>
      have every := mapM_mapError same
      simp only [place, assemble, Partition.assemble, List.mapM_map, innerLevel,
        hides, Bool.false_eq_true, if_false, Division.pieces, Function.comp_def] at every ⊢
      rw [every]
      cases pieces.mapM ofPiece <;> rfl
  | leading symbol operand =>
      have behind : ofPart (operand.span start level) = _ := same operand List.mem_cons_self
      simp only [place, assemble, Partition.assemble, behind]
      cases ofPiece operand with
      | error error => rfl
      | ok child =>
          cases child with
          | none => rfl
          | some tree =>
              simp only [Except.mapError, bind, Except.bind, Expression.ofLeading]
              by_cases plus : symbol = '+'
              · rw [if_pos plus, if_pos plus]
                rfl
              · by_cases minus : symbol = '-'
                · rw [if_neg plus, if_neg plus, if_pos minus, if_pos minus]
                  rfl
                · rw [if_neg plus, if_neg plus, if_neg minus, if_neg minus]
                  rfl
  | binary symbol position left right =>
      have first : ofPart (left.span start level) = _ := same left List.mem_cons_self
      have second : ofPart (right.span start level) = _ :=
        same right (List.mem_cons_of_mem left List.mem_cons_self)
      simp only [place, assemble, Partition.assemble, first, second]
      cases ofPiece left with
      | error error => rfl
      | ok leftTree =>
          cases leftTree with
          | none => rfl
          | some tree =>
              cases ofPiece right with
              | error error => rfl
              | ok rightTree => cases rightTree <;> rfl
  | constant name => rfl
  | function name nameSuffix operand =>
      have first : ofPart (nameSuffix.span start level) = _ := same nameSuffix List.mem_cons_self
      have second : ofPart (operand.span start level) = _ :=
        same operand (List.mem_cons_of_mem nameSuffix List.mem_cons_self)
      simp only [place, assemble, Partition.assemble, first, second]
      cases ofPiece nameSuffix with
      | error error => rfl
      | ok suffixTree => cases ofPiece operand <;> rfl
  | suffix symbol count operand =>
      have inFront : ofPart (operand.span start level) = _ := same operand List.mem_cons_self
      simp only [place, assemble, Partition.assemble, inFront]
      cases ofPiece operand <;> rfl
  | literal chars =>
      simp only [place, assemble, Partition.assemble, Expression.ofLiteral]
      split
      · rfl
      · split <;> rfl

/-! ### Whole runs -/

namespace Expression

/-- A part of a scanned expression is built as its text is, with errors at their
positions in the expression. -/
theorem ofSpan_eq_ofText (usable : tables.Unambiguous) {scan : Scan} {span : Span}
    {text before after : List Char} {opened : List Nat}
    (covers : Covers tables scan span text opened before after) :
    ofSpan tables scan span = (ofText tables text).mapError (·.shifted span.start) := by
  -- on the length of the text, for all parts: a piece has a level and a start of its own
  generalize size : text.length = length
  induction length using Nat.strong_induction_on generalizing span text before after opened with
  | _ length ih =>
      by_cases nonempty : text = []
      · subst nonempty
        have empty : ¬span.start < span.stop := by
          rw [covers.start, covers.stop, List.length_nil]
          omega
        rw [ofSpan_of_empty empty, ofText_nil]
        rfl
      · have positive := List.length_pos_iff.mpr nonempty
        have wide : span.start < span.stop := by
          rw [covers.start, covers.stop]
          omega
        rw [ofSpan_eq_assemble wide, ofText_eq_assemble nonempty,
          ofSpan_eq_place usable nonempty covers]
        cases divided : Division.ofText tables text with
        | error error => rfl
        | ok division =>
            refine division.assemble_place span.start span.level ?_
            intro piece member
            obtain ⟨inner, front, behind, covered⟩ :=
              covers.of_mem_pieces usable (divides_of_ofText nonempty divided) member
            have shorter := Division.length_lt_of_mem_ofText divided nonempty piece member
            rw [ofPiece, mapError_shifted_shifted]
            exact ih piece.chars.length (size ▸ shorter) covered rfl

theorem build_eq_buildPiecewise_of_unambiguous (usable : tables.Unambiguous) (text : String) :
    build tables text = buildPiecewise tables text := by
  have checked := marksFrom_eq_marksAlong tables 0 [] text.toList
  simp only [build, buildPiecewise, Scan.ofChars, checked]
  cases nesting : checkNesting tables 0 [] text.toList with
  | error error =>
      have nonempty : text.toList ≠ [] := by
        intro empty
        rw [empty] at nesting
        cases nesting
      have divided : Division.ofText tables text.toList = .error error := by
        rw [Division.ofText, nesting]
      rw [ofText_eq_assemble nonempty, divided]
      rfl
  | ok value =>
      have balanced : IsBalanced tables text.toList := checkNesting_eq_ok_iff.mp nesting
      have covers : Covers tables ⟨text.toList, marksAlong tables 0 0 text.toList⟩
          ⟨0, text.toList.length, 0⟩ text.toList [] [] [] :=
        ⟨(List.append_nil _).symm, rfl, rfl, (Nat.zero_add _).symm, rfl, rfl, balanced.closed⟩
      have agree := ofSpan_eq_ofText usable covers
      simp only [Except.map, bind, Except.bind, List.length_nil, agree]
      cases ofText tables text.toList with
      | error error => exact congrArg Except.error error.shifted_zero
      | ok tree => rfl

/-- With tables that pass the validation, the builder that scans once and then works
on ranges and levels gives the same tree or the same error as the builder that reads
every piece as a text of its own. -/
theorem build_eq_buildPiecewise (valid : tables.validate = .ok ()) (text : String) :
    build tables text = buildPiecewise tables text :=
  build_eq_buildPiecewise_of_unambiguous (tables.validate_eq_ok_iff.mp valid) text

theorem build_eq_buildPiecewise_two_brackets :
    SymbolTables.standard.validate = .ok () ∧
      buildPiecewise SymbolTables.standard "(1)(2)" = .error (.mismatchedBracket 2) :=
  ⟨rfl, (build_eq_buildPiecewise rfl "(1)(2)").symm.trans (by cbv)⟩

end Expression
end DecimalCalculator
