/-
The parts that building an expression is called on.

Every part covers a text of its own that leaves no bracket open, and building it only calls
parts inside it that are shorter.  So all positions that are read are positions of the
expression, no end of a part lies in front of its start, and calls are not nested deeper
than the expression is long.
-/

import DecimalCalculator.Proofs.Expression.Agreement
import DecimalCalculator.Proofs.Expression.WellNested

namespace DecimalCalculator

variable {tables : SymbolTables} {scan : Scan} {span part : Span} {text before after : List Char}
  {opened : List Nat}

/-! ### Calls -/

def Calls (tables : SymbolTables) (scan : Scan) (caller part : Span) : Prop :=
  caller.start < caller.stop ∧
    ∃ partition, Partition.ofSpan tables scan caller = .ok partition ∧ part ∈ partition.parts

/-- The parts on which building a scanned expression may be called. -/
inductive IsReached (tables : SymbolTables) (scan : Scan) : Span → Prop where
  | whole : IsReached tables scan ⟨0, scan.chars.length, 0⟩
  | call {caller part : Span} (reached : IsReached tables scan caller)
      (calls : Calls tables scan caller part) : IsReached tables scan part

/-- The characters at the positions of a part, read one by one, or nothing if one of the
positions is not in the expression. -/
def Scan.read? (scan : Scan) (span : Span) : Option (List Char) :=
  (List.range' span.start span.length).mapM fun position => scan.chars[position]?

/-- Whether the ends of parts that come from a subtraction are not cut off at zero. -/
def Partition.EndsExactly (span : Span) : Partition → Prop
  | .enclosed _ content => content.stop + 1 = span.stop
  | .suffix _ count operand => operand.stop + count = span.stop
  | _ => True

structure Span.IsSafe (tables : SymbolTables) (scan : Scan) (span : Span) : Prop where
  ordered : span.start ≤ span.stop
  within : span.stop ≤ scan.chars.length
  readable : scan.read? span = some (scan.piece span)
  /-- The brackets of the part are well nested, or its own check refuses it. -/
  nested : WellNested tables (scan.piece span) ∨ ∃ position,
    isEnclosed tables span.start [] (scan.piece span) = .error (.mismatchedBracket position)
  /-- A part without characters outside brackets begins with a bracket. -/
  bracketed : span.start < span.stop →
    isEnclosed tables span.start [] (scan.piece span) = .ok true →
      ∃ kind, (scan.piece span).head?.bind tables.bracketKind? = some kind
  exactly : span.start < span.stop → ∀ partition,
    Partition.ofSpan tables scan span = .ok partition → partition.EndsExactly span
  shorter : ∀ part, Calls tables scan span part →
    span.start ≤ part.start ∧ part.stop ≤ span.stop ∧ part.length < span.length

namespace Expression

/-- Builds a part with so many calls inside each other.  The outcome of all calls that are
nested deeper is given. -/
def ofSpanWithin (tables : SymbolTables) (scan : Scan)
    (deeper : Except ExpressionError (Option Expression)) :
    (depth : Nat) → Span → Except ExpressionError (Option Expression)
  | 0, _ => deeper
  | depth + 1, span =>
      if span.start < span.stop then
        (Partition.ofSpan tables scan span).bind
          (·.assemble span.start (ofSpanWithin tables scan deeper depth))
      else .ok none

def buildWithin (tables : SymbolTables) (deeper : Except ExpressionError (Option Expression))
    (depth : Nat) (text : String) : Except ExpressionError Expression := do
  let scan ← Scan.ofChars tables text.toList
  match ← ofSpanWithin tables scan deeper depth ⟨0, scan.chars.length, 0⟩ with
  | some expression => return expression
  | none => throw .emptyExpression

end Expression

/-! ### Calls end -/

theorem Partition.assemble_congr (partition : Partition) (start : Nat)
    {first second : Span → Except ExpressionError (Option Expression)}
    (same : ∀ part ∈ partition.parts, first part = second part) :
    partition.assemble start first = partition.assemble start second := by
  cases partition with
  | enclosed kind content =>
      simp only [assemble, same content List.mem_cons_self]
  | items parts =>
      have every : parts.mapM first = parts.mapM second := mapM_congr same
      simp only [assemble, every]
  | leading symbol position operand =>
      simp only [assemble, same operand List.mem_cons_self]
  | binary symbol position left right =>
      simp only [assemble, same left List.mem_cons_self,
        same right (List.mem_cons_of_mem left List.mem_cons_self)]
  | function name nameSuffix operand =>
      simp only [assemble, same nameSuffix List.mem_cons_self,
        same operand (List.mem_cons_of_mem nameSuffix List.mem_cons_self)]
  | suffix symbol count operand =>
      simp only [assemble, same operand List.mem_cons_self]
  | constant | literal => rfl

theorem Scan.chars_of_ofChars {chars : List Char}
    (scanned : Scan.ofChars tables chars = .ok scan) : scan.chars = chars := by
  unfold Scan.ofChars at scanned
  cases found : marksFrom tables 0 [] chars with
  | error error =>
      rw [found] at scanned
      cases scanned
  | ok marks =>
      rw [found] at scanned
      cases scanned
      rfl

namespace Expression

theorem ofSpanWithin_eq_ofSpan (deeper : Except ExpressionError (Option Expression))
    {depth : Nat} (deep : span.length < depth) :
    ofSpanWithin tables scan deeper depth span = ofSpan tables scan span := by
  induction depth generalizing span with
  | zero => exact absurd deep (Nat.not_lt_zero _)
  | succ depth ih =>
      rw [ofSpanWithin]
      split
      · rename_i nonempty
        rw [ofSpan_eq_assemble nonempty]
        cases divided : Partition.ofSpan tables scan span with
        | error error => rfl
        | ok partition =>
            refine partition.assemble_congr span.start ?_
            intro part member
            have shorter := Partition.length_lt_of_mem_ofSpan divided nonempty part member
            exact ih (by omega)
      · rename_i empty
        rw [ofSpan_of_empty empty]

theorem buildWithin_eq_build (deeper : Except ExpressionError (Option Expression))
    (text : String) : buildWithin tables deeper (text.length + 1) text = build tables text := by
  rw [buildWithin, build]
  cases scanned : Scan.ofChars tables text.toList with
  | error error => rfl
  | ok scan =>
      have deep : (⟨0, scan.chars.length, 0⟩ : Span).length < text.length + 1 := by
        rw [Span.length, Scan.chars_of_ofChars scanned, String.length_toList, Nat.sub_zero]
        exact Nat.lt_succ_self _
      have whole : ofSpanWithin tables scan deeper (text.length + 1) ⟨0, scan.chars.length, 0⟩ =
          ofSpan tables scan ⟨0, scan.chars.length, 0⟩ := ofSpanWithin_eq_ofSpan deeper deep
      cases built : ofSpan tables scan ⟨0, scan.chars.length, 0⟩ with
      | error error =>
          rw [built] at whole
          simp only [bind, Except.bind, whole, built]
      | ok tree =>
          rw [built] at whole
          cases tree <;> simp only [bind, Except.bind, whole, built]

end Expression

/-! ### Parts are texts of their own -/

theorem Covers.whole {chars : List Char} (scanned : Scan.ofChars tables chars = .ok scan) :
    Covers tables scan ⟨0, scan.chars.length, 0⟩ chars [] [] [] := by
  rw [Scan.ofChars, marksFrom_eq_marksAlong] at scanned
  cases checked : checkNesting tables 0 [] chars with
  | error error =>
      rw [checked] at scanned
      cases scanned
  | ok value =>
      have balanced : IsBalanced tables chars := checkNesting_eq_ok_iff.mp checked
      rw [checked] at scanned
      cases scanned
      exact ⟨(List.append_nil _).symm, rfl, rfl, (Nat.zero_add _).symm, rfl, rfl,
        balanced.closed⟩

theorem Division.parts_place (division : Division) (start level : Nat) :
    (division.place start level).parts =
      division.pieces.map (Piece.span start (division.innerLevel level)) := by
  cases division <;> rfl

namespace Covers

theorem ne_nil (covers : Covers tables scan span text opened before after)
    (wide : span.start < span.stop) : text ≠ [] := by
  rintro rfl
  rw [covers.start, covers.stop] at wide
  exact absurd wide (Nat.lt_irrefl _)

theorem exists_division (usable : tables.Unambiguous)
    (covers : Covers tables scan span text opened before after) (nonempty : text ≠ [])
    {partition : Partition} (divided : Partition.ofSpan tables scan span = .ok partition) :
    ∃ division, Division.ofText tables text = .ok division ∧
      partition = division.place span.start span.level := by
  rw [ofSpan_eq_place usable nonempty covers] at divided
  cases found : Division.ofText tables text with
  | error error =>
      rw [found] at divided
      cases divided
  | ok division =>
      rw [found] at divided
      cases divided
      exact ⟨division, rfl, rfl⟩

theorem exists_piece (usable : tables.Unambiguous)
    (covers : Covers tables scan span text opened before after)
    (calls : Calls tables scan span part) :
    ∃ division piece, Divides tables text division ∧ piece ∈ division.pieces ∧
      part = piece.span span.start (division.innerLevel span.level) := by
  obtain ⟨wide, partition, divided, member⟩ := calls
  have nonempty := covers.ne_nil wide
  obtain ⟨division, found, rfl⟩ := covers.exists_division usable nonempty divided
  rw [Division.parts_place] at member
  obtain ⟨piece, among, rfl⟩ := List.mem_map.mp member
  exact ⟨division, piece, divides_of_ofText nonempty found, among, rfl⟩

end Covers

theorem IsReached.exists_covers (usable : tables.Unambiguous) {chars : List Char}
    (scanned : Scan.ofChars tables chars = .ok scan) (reached : IsReached tables scan span) :
    ∃ text opened before after, Covers tables scan span text opened before after := by
  induction reached with
  | whole => exact ⟨_, _, _, _, Covers.whole scanned⟩
  | call _ calls ih =>
      obtain ⟨text, opened, before, after, covers⟩ := ih
      obtain ⟨division, piece, divides, member, rfl⟩ := covers.exists_piece usable calls
      exact ⟨_, covers.of_mem_pieces usable divides member⟩

/-! ### What a part needs -/

theorem mapM_getElem?_range' (front middle back : List Char) :
    (List.range' front.length middle.length).mapM
        (fun position => (front ++ (middle ++ back))[position]?) = some middle := by
  induction middle generalizing front with
  | nil => rfl
  | cons char rest ih =>
      have here : (front ++ (char :: rest ++ back))[front.length]? = some char := by simp
      have later : (List.range' (front.length + 1) rest.length).mapM
          (fun position => (front ++ (char :: rest ++ back))[position]?) = some rest := by
        have moved := ih (front ++ [char])
        rw [List.length_append, List.append_assoc] at moved
        exact moved
      rw [List.length_cons, List.range'_succ, List.mapM_cons, here, later]
      rfl

theorem Divides.piece_within (usable : tables.Unambiguous) {division : Division} {piece : Piece}
    (divides : Divides tables text division) (member : piece ∈ division.pieces) :
    piece.offset + piece.chars.length ≤ text.length := by
  cases hides : division.hides with
  | true =>
      cases divides with
      | enclosed =>
          rw [List.mem_singleton.mp member, List.length_cons, List.length_append]
          simp only
          omega
      | _ => cases hides
  | false =>
      obtain ⟨left, right, split, begins, -, -⟩ := divides.exists_around usable hides member
      rw [split, begins, List.length_append, List.length_append]
      omega

namespace Covers

theorem nested_or_refused (usable : tables.Unambiguous)
    (covers : Covers tables scan span text opened before after) :
    WellNested tables (scan.piece span) ∨ ∃ position,
      isEnclosed tables span.start [] (scan.piece span) = .error (.mismatchedBracket position) := by
  rw [covers.piece_eq, isEnclosed_eq_checkNesting covers.closed]
  cases checked : checkNesting tables span.start [] text with
  | ok value => exact Or.inl ((wellNested_iff_isBalanced usable).mpr
      (checkNesting_eq_ok_iff.mp checked))
  | error error =>
      rcases checkNesting_eq_error checked with ⟨-, nesting, through, remaining⟩ |
        ⟨front, _, _, _, _, rfl, _⟩
      · exact absurd (covers.closed nesting through) remaining
      · exact Or.inr ⟨span.start + front.length, rfl⟩

theorem exists_kind (covers : Covers tables scan span text opened before after)
    (wide : span.start < span.stop)
    (enclosed : isEnclosed tables span.start [] (scan.piece span) = .ok true) :
    ∃ kind, (scan.piece span).head?.bind tables.bracketKind? = some kind := by
  rw [covers.piece_eq, isEnclosed_eq_checkNesting covers.closed] at enclosed
  rw [covers.piece_eq]
  cases checked : checkNesting tables span.start [] text with
  | error error =>
      rw [checked] at enclosed
      cases enclosed
  | ok value =>
      rw [checked] at enclosed
      have hidden : exposed tables 0 text = [] := of_decide_eq_true (Except.ok.inj enclosed)
      obtain ⟨opening, closing, kind, content, rfl, enclosing⟩ :=
        exists_enclosing (checkNesting_eq_ok_iff.mp checked) (covers.ne_nil wide) hidden
      exact ⟨kind, enclosing.openingKind⟩

theorem endsExactly (usable : tables.Unambiguous)
    (covers : Covers tables scan span text opened before after) (nonempty : text ≠ [])
    {partition : Partition} (divided : Partition.ofSpan tables scan span = .ok partition) :
    partition.EndsExactly span := by
  obtain ⟨division, found, rfl⟩ := covers.exists_division usable nonempty divided
  have stop := covers.stop
  rw [← covers.start] at stop
  cases divides_of_ofText nonempty found with
  | @enclosed opening closing kind content =>
      rw [List.length_cons, List.length_append, List.length_singleton] at stop
      simp only [Division.place, Partition.EndsExactly, Piece.span]
      omega
  | @suffix symbol count operand =>
      rw [List.length_append, List.length_replicate] at stop
      simp only [Division.place, Partition.EndsExactly, Piece.span]
      omega
  | _ => trivial

theorem isSafe (usable : tables.Unambiguous)
    (covers : Covers tables scan span text opened before after) : span.IsSafe tables scan where
  ordered := by
    rw [covers.start, covers.stop]
    exact Nat.le_add_right _ _
  within := by
    rw [covers.stop, covers.chars, List.length_append, List.length_append]
    omega
  readable := by
    rw [covers.piece_eq, Scan.read?, Span.length, covers.start, covers.stop, covers.chars,
      Nat.add_sub_cancel_left]
    exact mapM_getElem?_range' before text after
  nested := covers.nested_or_refused usable
  bracketed := covers.exists_kind
  exactly wide partition divided := covers.endsExactly usable (covers.ne_nil wide) divided
  shorter part calls := by
    obtain ⟨division, piece, divides, among, same⟩ := covers.exists_piece usable calls
    obtain ⟨wide, partition, divided, member⟩ := calls
    have shorter := Partition.length_lt_of_mem_ofSpan divided wide part member
    have within := divides.piece_within usable among
    have stop := covers.stop
    rw [← covers.start] at stop
    subst same
    refine ⟨Nat.le_add_right _ _, ?_, shorter⟩
    simp only [Piece.span]
    omega

end Covers

/-! ### Characters outside the expression -/

theorem Scan.piece_append (scan : Scan) (within : span.stop ≤ scan.chars.length)
    (behind : List Char) :
    Scan.piece ⟨scan.chars ++ behind, scan.marks⟩ span = scan.piece span := by
  rw [Scan.piece, Scan.piece, List.extract_eq_take_drop, List.extract_eq_take_drop,
    ← List.drop_take, ← List.drop_take, List.take_append_of_le_length within]

namespace Expression

theorem ofSpan_append (usable : tables.Unambiguous) {chars : List Char}
    (scanned : Scan.ofChars tables chars = .ok scan) (reached : IsReached tables scan span)
    (behind : List Char) :
    ofSpan tables ⟨scan.chars ++ behind, scan.marks⟩ span = ofSpan tables scan span := by
  -- on the length of the part
  generalize size : span.length = length
  induction length using Nat.strong_induction_on generalizing span with
  | _ length ih =>
      by_cases wide : span.start < span.stop
      · obtain ⟨_, _, _, _, covers⟩ := reached.exists_covers usable scanned
        have samePiece := scan.piece_append (covers.isSafe usable).within behind
        have same : Partition.ofSpan tables ⟨scan.chars ++ behind, scan.marks⟩ span =
            Partition.ofSpan tables scan span := by
          simp only [Partition.ofSpan, Partition.ofExposed, samePiece]
          rfl
        rw [ofSpan_eq_assemble wide, ofSpan_eq_assemble wide, same]
        cases divided : Partition.ofSpan tables scan span with
        | error error => rfl
        | ok partition =>
            refine partition.assemble_congr span.start ?_
            intro part member
            have shorter := Partition.length_lt_of_mem_ofSpan divided wide part member
            exact ih part.length (size ▸ shorter)
              (.call reached ⟨wide, partition, divided, member⟩) rfl
      · rw [ofSpan_of_empty wide, ofSpan_of_empty wide]

/-- Building ends for every text, with no more calls inside each other than the text has
characters, and one.  Every part on which it is called lies inside the text, and no character
outside the text matters for it. -/
theorem calls_of_build (valid : tables.validate = .ok ()) (text : String) :
    (∀ deeper, buildWithin tables deeper (text.length + 1) text = build tables text) ∧
      ∀ scan, Scan.ofChars tables text.toList = .ok scan → scan.chars = text.toList ∧
        ∀ span, IsReached tables scan span → span.IsSafe tables scan ∧
          ∀ behind, ofSpan tables ⟨scan.chars ++ behind, scan.marks⟩ span =
            ofSpan tables scan span := by
  have usable := tables.validate_eq_ok_iff.mp valid
  refine ⟨fun deeper => buildWithin_eq_build deeper text, ?_⟩
  intro scan scanned
  refine ⟨Scan.chars_of_ofChars scanned, ?_⟩
  intro span reached
  obtain ⟨_, _, _, _, covers⟩ := reached.exists_covers usable scanned
  exact ⟨covers.isSafe usable, ofSpan_append usable scanned reached⟩

theorem calls_of_build_two_brackets :
    SymbolTables.standard.validate = .ok () ∧
      Scan.ofChars SymbolTables.standard "(1)(2)".toList = .ok ⟨"(1)(2)".toList, []⟩ ∧
      IsReached SymbolTables.standard ⟨"(1)(2)".toList, []⟩ ⟨1, 5, 1⟩ ∧
      isEnclosed SymbolTables.standard 1 [] "1)(2".toList = .error (.mismatchedBracket 2) ∧
      (⟨1, 5, 1⟩ : Span).IsSafe SymbolTables.standard ⟨"(1)(2)".toList, []⟩ := by
  have scanned : Scan.ofChars SymbolTables.standard "(1)(2)".toList =
      .ok ⟨"(1)(2)".toList, []⟩ := by cbv
  have divided : Partition.ofSpan SymbolTables.standard ⟨"(1)(2)".toList, []⟩ ⟨0, 6, 0⟩ =
      .ok (.enclosed roundBrackets ⟨1, 5, 1⟩) := by cbv
  have reached : IsReached SymbolTables.standard ⟨"(1)(2)".toList, []⟩ ⟨1, 5, 1⟩ :=
    .call .whole ⟨by decide, _, divided, List.mem_cons_self⟩
  exact ⟨rfl, scanned, reached, by cbv,
    (((calls_of_build rfl "(1)(2)").2 _ scanned).2 _ reached).1⟩

end Expression
end DecimalCalculator
