/-
Positions and levels against texts of their own.

A part of a scanned expression is a range of positions and a level.  The marks
that divide the part are the exposed dividers of the text that the range covers,
moved by the start of the range.  So the part is divided at the places where the
text is divided, and both ways of building give the same tree or the same error.
-/

import DecimalCalculator.Proofs.Expression.Division

namespace DecimalCalculator

variable {tables : SymbolTables}

/-! ### Errors that move -/

theorem ExpressionError.shifted_shifted (first second : Nat) (error : ExpressionError) :
    (error.shifted first).shifted second = error.shifted (second + first) := by
  cases error <;> simp only [shifted, Nat.add_assoc]

theorem ExpressionError.shifted_zero (error : ExpressionError) : error.shifted 0 = error := by
  cases error <;> simp only [shifted, Nat.zero_add]

theorem mapError_shifted_shifted {α : Type} (first second : Nat)
    (outcome : Except ExpressionError α) :
    (outcome.mapError (·.shifted first)).mapError (·.shifted second) =
      outcome.mapError (·.shifted (second + first)) := by
  cases outcome with
  | error error => exact congrArg Except.error (error.shifted_shifted first second)
  | ok value => rfl

theorem checkNesting_shifted (tables : SymbolTables) (start position : Nat) (opened : List Nat)
    (text : List Char) :
    checkNesting tables (start + position) opened text =
      (checkNesting tables position opened text).mapError (·.shifted start) := by
  induction text generalizing position opened with
  | nil =>
      simp only [checkNesting]
      split <;> rfl
  | cons char rest ih =>
      simp only [checkNesting]
      cases nestingAfter? tables opened char with
      | none => rfl
      | some nesting => exact ih (position + 1) nesting

theorem isEnclosed_eq_checkNesting {position : Nat} {opened : List Nat} {text : List Char}
    (closed : ∀ final, nestingThrough? tables opened text = some final → final = []) :
    isEnclosed tables position opened text =
      (checkNesting tables position opened text).map fun _ =>
        decide (exposed tables opened.length text = []) := by
  induction text generalizing position opened with
  | nil =>
      have shut := closed opened rfl
      subst shut
      rfl
  | cons char rest ih =>
      simp only [isEnclosed, checkNesting]
      cases after : nestingAfter? tables opened char with
      | none => rfl
      | some nesting =>
          have later := @ih (position + 1) nesting fun final through =>
            closed final (nestingThrough?_cons_eq_some.mpr ⟨nesting, after, through⟩)
          simp only [later, exposed, depthAfter_of_nestingAfter? after]
          cases checkNesting tables (position + 1) nesting rest with
          | error error => rfl
          | ok value =>
              refine congrArg Except.ok ?_
              cases opened <;> cases bracket : isBracket tables char <;>
                simp [isExposed, bracket]

/-! ### Marks -/

/-- The marks of characters that begin at the given position inside so many brackets. -/
def marksAlong (tables : SymbolTables) : (position depth : Nat) → List Char → List Mark
  | _, _, [] => []
  | position, depth, char :: rest =>
      (if isBracket tables char then none
        else (dividerOf? tables char).map fun divider => ⟨divider, position, depth⟩).toList ++
        marksAlong tables (position + 1) (depthAfter tables depth char) rest

theorem marksFrom_eq_marksAlong (tables : SymbolTables) (position : Nat) (opened : List Nat)
    (text : List Char) :
    marksFrom tables position opened text =
      (checkNesting tables position opened text).map fun _ =>
        marksAlong tables position opened.length text := by
  induction text generalizing position opened with
  | nil =>
      simp only [marksFrom, checkNesting]
      split <;> rfl
  | cons char rest ih =>
      simp only [marksFrom, checkNesting]
      cases after : nestingAfter? tables opened char with
      | none => rfl
      | some nesting =>
          simp only [ih, marksAlong, depthAfter_of_nestingAfter? after]
          cases checkNesting tables (position + 1) nesting rest with
          | error error => rfl
          | ok value => rfl

theorem marksAlong_append {opened final : List Nat} {left : List Char}
    (through : nestingThrough? tables opened left = some final) (position : Nat)
    (right : List Char) :
    marksAlong tables position opened.length (left ++ right) =
      marksAlong tables position opened.length left ++
        marksAlong tables (position + left.length) final.length right := by
  induction left generalizing position opened with
  | nil =>
      rw [← Option.some.inj through]
      rfl
  | cons char rest ih =>
      obtain ⟨nesting, after, later⟩ := nestingThrough?_cons_eq_some.mp through
      simp only [List.cons_append, marksAlong, depthAfter_of_nestingAfter? after, ih later,
        List.append_assoc, List.length_cons, Nat.add_right_comm position 1, Nat.add_assoc]

theorem position_of_mem_marksAlong {mark : Mark} {position depth : Nat} {text : List Char}
    (member : mark ∈ marksAlong tables position depth text) :
    position ≤ mark.position ∧ mark.position < position + text.length := by
  induction text generalizing position depth with
  | nil => cases member
  | cons char rest ih =>
      rw [marksAlong, List.mem_append] at member
      rw [List.length_cons]
      rcases member with here | later
      · rw [Option.mem_toList, Option.ite_none_left_eq_some, Option.map_eq_some_iff] at here
        obtain ⟨_, divider, _, rfl⟩ := here
        exact ⟨Nat.le_refl position, by simp only; omega⟩
      · have bounds := ih later
        omega

def exposedDividers (tables : SymbolTables) :
    (position depth : Nat) → List Char → List (Divider × Nat)
  | _, _, [] => []
  | position, depth, char :: rest =>
      (if isExposed tables depth char then (dividerOf? tables char).map (·, position)
        else none).toList ++
        exposedDividers tables (position + 1) (depthAfter tables depth char) rest

/-- Of the marks of a text inside other brackets, those of the level of these brackets
are the exposed dividers of the text. -/
theorem filter_marksAlong {inner outer final : List Nat} {text : List Char} {position : Nat}
    (through : nestingThrough? tables inner text = some final) (accepts : Mark → Bool)
    (accepted : ∀ mark : Mark, position ≤ mark.position → mark.position < position + text.length →
      (accepts mark = true ↔ mark.level = outer.length)) :
    ((marksAlong tables position (inner ++ outer).length text).filter accepts).map
        (fun mark => (mark.divider, mark.position)) =
      exposedDividers tables position inner.length text := by
  induction text generalizing position inner with
  | nil => rfl
  | cons char rest ih =>
      obtain ⟨nesting, after, later⟩ := nestingThrough?_cons_eq_some.mp through
      have tail := @ih nesting (position + 1) later fun mark lower upper =>
        accepted mark (by omega) (by rw [List.length_cons]; omega)
      simp only [marksAlong, exposedDividers, depthAfter_of_nestingAfter? after,
        depthAfter_of_nestingAfter? (nestingAfter?_append after outer), List.filter_append,
        List.map_append, tail]
      congr 1
      cases bracket : isBracket tables char with
      | true => simp [isExposed, bracket]
      | false =>
          cases divider : dividerOf? tables char with
          | none => simp
          | some found =>
              have here : accepts ⟨found, position, (inner ++ outer).length⟩ =
                  isExposed tables inner.length char := by
                rw [Bool.eq_iff_iff, accepted ⟨found, position, (inner ++ outer).length⟩
                  (Nat.le_refl position) (by rw [List.length_cons]; simp only; omega)]
                simp [isExposed, bracket]
              simp only [Bool.false_eq_true, if_false, Option.map_some, Option.toList_some,
                List.filter_cons, List.filter_nil, here]
              split <;> rfl

/-! ### Parts and their texts -/

/-- A range of a scanned expression covers a text inside the brackets that the range
counts.  The text leaves no bracket open. -/
structure Covers (tables : SymbolTables) (scan : Scan) (span : Span) (text : List Char)
    (opened : List Nat) (before after : List Char) : Prop where
  chars : scan.chars = before ++ (text ++ after)
  marks : scan.marks = marksAlong tables 0 0 scan.chars
  start : span.start = before.length
  stop : span.stop = before.length + text.length
  level : span.level = opened.length
  opened : nestingThrough? tables [] before = some opened
  closed : ∀ final, nestingThrough? tables [] text = some final → final = []

namespace Covers

variable {scan : Scan} {span : Span} {text before after : List Char} {opened : List Nat}

theorem piece_eq (covers : Covers tables scan span text opened before after) :
    scan.piece span = text := by
  rw [Scan.piece, covers.chars, covers.start, covers.stop, List.extract_eq_take_drop,
    List.drop_left, Nat.add_sub_cancel_left, List.take_left]

theorem marksWithin_eq (covers : Covers tables scan span text opened before after)
    (balanced : IsBalanced tables text) :
    (scan.marksWithin span).map (fun mark => (mark.divider, mark.position)) =
      exposedDividers tables span.start 0 text := by
  have front := marksAlong_append covers.opened 0 (text ++ after)
  have middle := marksAlong_append (balanced.nestingThrough? opened) (0 + before.length) after
  rw [List.length_nil] at front
  rw [Scan.marksWithin, covers.marks, covers.chars, front, middle, List.filter_append,
    List.filter_append]
  have none_before : ((marksAlong tables 0 0 before).filter fun mark =>
      mark.level = span.level && span.start ≤ mark.position && mark.position < span.stop) = [] := by
    rw [List.filter_eq_nil_iff]
    intro mark member
    have bounds := position_of_mem_marksAlong member
    have start := covers.start
    simp only [Bool.and_eq_true, decide_eq_true_eq]
    omega
  have none_after : ((marksAlong tables (0 + before.length + text.length) opened.length
      after).filter fun mark =>
        mark.level = span.level && span.start ≤ mark.position && mark.position < span.stop) = [] := by
    rw [List.filter_eq_nil_iff]
    intro mark member
    have bounds := position_of_mem_marksAlong member
    have stop := covers.stop
    simp only [Bool.and_eq_true, decide_eq_true_eq]
    omega
  rw [none_before, none_after, List.nil_append, List.append_nil, covers.start]
  rw [Nat.zero_add]
  refine filter_marksAlong balanced _ ?_
  intro mark lower upper
  have stop := covers.stop
  have level := covers.level
  simp only [Bool.and_eq_true, decide_eq_true_eq]
  omega

end Covers

def separatorPositions (dividers : List (Divider × Nat)) : List Nat :=
  dividers.filterMap fun (divider, position) =>
    if divider = .separator then some position else none

def placedOperators (dividers : List (Divider × Nat)) : List Scan.PlacedOperator :=
  dividers.filterMap fun (divider, position) =>
    match divider with
    | .operator symbol priority => some ⟨symbol, priority, position⟩
    | .separator => none

theorem separatorsWithin_eq (scan : Scan) (span : Span) :
    scan.separatorsWithin span = separatorPositions
      ((scan.marksWithin span).map fun mark => (mark.divider, mark.position)) := by
  rw [separatorPositions, List.filterMap_map]
  rfl

theorem operatorsWithin_eq (scan : Scan) (span : Span) :
    scan.operatorsWithin span = placedOperators
      ((scan.marksWithin span).map fun mark => (mark.divider, mark.position)) := by
  rw [placedOperators, List.filterMap_map]
  rfl

/-! ### The same cuts -/

/-- The range that a piece has in a part that begins at the given position. -/
def Piece.span (start level : Nat) (piece : Piece) : Span :=
  ⟨start + piece.offset, start + piece.offset + piece.chars.length, level⟩

theorem separatorPositions_cons_of_separates {position depth : Nat} {char : Char}
    {rest : List Char} (outside : isExposed tables depth char = true)
    (same : char = listSeparator) :
    separatorPositions (exposedDividers tables position depth (char :: rest)) = position ::
      separatorPositions
        (exposedDividers tables (position + 1) (depthAfter tables depth char) rest) := by
  subst same
  simp [separatorPositions, exposedDividers, outside, dividerOf?]

theorem separatorPositions_cons_of_joins {position depth : Nat} {char : Char}
    {rest : List Char} (joins : ¬(isExposed tables depth char && char == listSeparator) = true) :
    separatorPositions (exposedDividers tables position depth (char :: rest)) =
      separatorPositions
        (exposedDividers tables (position + 1) (depthAfter tables depth char) rest) := by
  have nothing : separatorPositions (if isExposed tables depth char then
      (dividerOf? tables char).map (·, position) else none).toList = [] := by
    split
    · rename_i outside
      have different : char ≠ listSeparator := by
        intro same
        exact joins (by rw [outside, same]; rfl)
      rw [dividerOf?, if_neg different]
      cases tables.priority? char <;> rfl
    · rfl
  rw [exposedDividers, separatorPositions, List.filterMap_append]
  exact congrArg (· ++ _) nothing

theorem between_separatorPositions (tables : SymbolTables) (level : Nat) (text : List Char)
    (position depth first : Nat) :
    Span.between (position + text.length) level first
        (separatorPositions (exposedDividers tables position depth text)) =
      ⟨first, position + (splitItems tables depth text).1.length, level⟩ ::
        (Piece.inSequence (position + (splitItems tables depth text).1.length + 1)
          (splitItems tables depth text).2).map (Piece.span 0 level) := by
  induction text generalizing position depth first with
  | nil => rfl
  | cons char rest ih =>
      have length : position + (char :: rest).length = position + 1 + rest.length := by
        rw [List.length_cons]
        omega
      rw [length]
      simp only [splitItems]
      split
      · rename_i separates
        rw [Bool.and_eq_true, beq_iff_eq] at separates
        rw [separatorPositions_cons_of_separates separates.1 separates.2, Span.between, ih]
        simp [Piece.inSequence, Piece.span]
      · rename_i joins
        rw [separatorPositions_cons_of_joins joins, ih]
        simp only [List.length_cons, Nat.add_right_comm position 1, Nat.add_assoc]

theorem separatorPositions_eq_nil_iff {position depth : Nat} {text : List Char} :
    separatorPositions (exposedDividers tables position depth text) = [] ↔
      listSeparator ∉ exposed tables depth text := by
  induction text generalizing position depth with
  | nil => exact iff_of_true rfl List.not_mem_nil
  | cons char rest ih =>
      by_cases separates : (isExposed tables depth char && char == listSeparator) = true
      · rw [Bool.and_eq_true, beq_iff_eq] at separates
        rw [separatorPositions_cons_of_separates separates.1 separates.2]
        refine iff_of_false (List.cons_ne_nil _ _) (fun undivided => undivided ?_)
        exact separates.2 ▸ mem_exposed_of_isExposed separates.1
      · rw [separatorPositions_cons_of_joins separates, ih]
        rw [Bool.and_eq_true, beq_iff_eq, not_and] at separates
        simp only [exposed]
        split
        · rename_i outside
          rw [List.mem_cons, not_or]
          exact (and_iff_right (Ne.symm (separates outside))).symm
        · rfl

theorem lastApplied?_placedOperators (usable : tables.Unambiguous) (position depth : Nat)
    (text : List Char) :
    Scan.lastApplied? (placedOperators (exposedDividers tables position depth text)) =
      (lastCut? tables depth text).map fun cut =>
        ⟨cut.symbol, cut.priority, position + cut.left.length⟩ := by
  induction text generalizing position depth with
  | nil => rfl
  | cons char rest ih =>
      have later := ih (position + 1) (depthAfter tables depth char)
      have first : placedOperators (if isExposed tables depth char then
          (dividerOf? tables char).map (·, position) else none).toList =
          ((if isExposed tables depth char then tables.priority? char else none).map fun priority =>
            (⟨char, priority, position⟩ : Scan.PlacedOperator)).toList := by
        split
        · by_cases same : char = listSeparator
          · rw [dividerOf?, if_pos same, same,
              usable.priority?_of_isReserved (by decide : isReserved listSeparator = true)]
            rfl
          · rw [dividerOf?, if_neg same]
            cases tables.priority? char <;> rfl
        · rfl
      rw [exposedDividers, placedOperators, List.filterMap_append]
      change Scan.lastApplied? (placedOperators _ ++ placedOperators _) = _
      rw [first]
      simp only [lastCut?]
      cases (if isExposed tables depth char then tables.priority? char else none) with
      | none =>
          rw [Option.map_none, Option.toList_none, List.nil_append, later]
          cases lastCut? tables (depthAfter tables depth char) rest with
          | none => rfl
          | some cut =>
              simp only [Option.map_some, List.length_cons, Nat.add_assoc,
                Nat.add_comm cut.left.length 1]
      | some priority =>
          simp only [Option.map_some, Option.toList_some, List.singleton_append,
            Scan.lastApplied?, later]
          cases lastCut? tables (depthAfter tables depth char) rest with
          | none => rfl
          | some cut =>
              simp only [Option.map_some, Option.some.injEq]
              split
              · rfl
              · simp only [List.length_cons, Nat.add_assoc, Nat.add_comm cut.left.length 1]

/-! ### The same division -/

namespace Division

def place (start level : Nat) : Division → Partition
  | .enclosed kind content => .enclosed kind (content.span start (level + 1))
  | .items pieces => .items (pieces.map (Piece.span start level))
  | .leading symbol operand => .leading symbol start (operand.span start level)
  | .binary symbol position left right =>
      .binary symbol (start + position) (left.span start level) (right.span start level)
  | .constant name => .constant name
  | .function name nameSuffix operand =>
      .function name (nameSuffix.span start level) (operand.span start level)
  | .suffix symbol count operand => .suffix symbol count (operand.span start level)
  | .literal chars => .literal chars

end Division

theorem map_span_inSequence (start level offset : Nat) (items : List (List Char)) :
    (Piece.inSequence offset items).map (Piece.span start level) =
      (Piece.inSequence (start + offset) items).map (Piece.span 0 level) := by
  induction items generalizing offset with
  | nil => rfl
  | cons item rest ih =>
      simp only [Piece.inSequence, List.map_cons, ih, Piece.span, Nat.zero_add, Nat.add_assoc]

theorem ofName_eq_place (span : Span) (text : List Char)
    (stop : span.stop = span.start + text.length) :
    Partition.ofName tables span text =
      (Division.ofName tables text).place span.start span.level := by
  have whole := congrArg List.length
    (List.takeWhile_append_dropWhile (p := tables.isLetter) (l := text))
  have rest := congrArg List.length
    (append_leadingSuffix tables (text.dropWhile tables.isLetter))
  rw [List.length_append] at whole rest
  simp only [Partition.ofName, Division.ofName]
  split
  · rfl
  · simp only [Division.place, Piece.span, Partition.function.injEq, Span.mk.injEq, true_and,
      and_true]
    omega

theorem ofOperand_eq_place (span : Span) (text : List Char)
    (stop : span.stop = span.start + text.length) :
    Partition.ofOperand tables span text =
      (Division.ofOperand tables text).place span.start span.level := by
  simp only [Partition.ofOperand, Division.ofOperand]
  split
  · exact ofName_eq_place span text stop
  · rw [Division.ofUnnamed]
    cases text.getLast? with
    | none => rfl
    | some symbol =>
        have run := (List.takeWhile_prefix (l := text.reverse) (· == symbol)).length_le
        rw [List.length_reverse] at run
        simp only
        split
        · simp only [Division.place, Piece.span, Partition.suffix.injEq, Span.mk.injEq, true_and,
            and_true, List.length_take]
          omega
        · rfl

theorem ofExposed_eq_place (usable : tables.Unambiguous) {scan : Scan} {span : Span}
    {text before after : List Char} {opened : List Nat}
    (covers : Covers tables scan span text opened before after)
    (balanced : IsBalanced tables text) :
    Partition.ofExposed tables scan span =
      (Division.ofExposed tables text).place span.start span.level := by
  have stop : span.stop = span.start + text.length := by
    rw [covers.stop, covers.start]
  have separators : scan.separatorsWithin span =
      separatorPositions (exposedDividers tables span.start 0 text) := by
    rw [separatorsWithin_eq, covers.marksWithin_eq balanced]
  have operators : scan.operatorsWithin span =
      placedOperators (exposedDividers tables span.start 0 text) := by
    rw [operatorsWithin_eq, covers.marksWithin_eq balanced]
  unfold Partition.ofExposed Division.ofExposed
  rw [separators, operators, lastApplied?_placedOperators usable, covers.piece_eq]
  by_cases separated : listSeparator ∈ exposed tables 0 text
  · rw [if_pos separated]
    have cuts : separatorPositions (exposedDividers tables span.start 0 text) ≠ [] :=
      fun none => separatorPositions_eq_nil_iff.mp none separated
    obtain ⟨cut, others, split⟩ := List.exists_cons_of_ne_nil cuts
    have ranges := between_separatorPositions tables span.level text span.start 0
      span.start
    rw [split, ← stop] at ranges
    rw [split]
    simp only [ranges, Division.place, map_span_inSequence span.start span.level 0]
    simp [Piece.inSequence, Piece.span]
  · rw [if_neg separated, separatorPositions_eq_nil_iff.mpr separated]
    cases found : lastCut? tables 0 text with
    | none => exact ofOperand_eq_place span text stop
    | some cut =>
        have whole := congrArg List.length (append_of_lastCut? found)
        rw [List.length_append, List.length_cons] at whole
        obtain ⟨left, symbol, priority, right⟩ := cut
        simp only at whole
        simp only [Option.map_some, Division.ofCut]
        cases left with
        | nil =>
            simp only [List.length_nil] at whole ⊢
            simp only [Nat.add_zero, if_true, List.isEmpty_nil, Division.place, Piece.span,
              Partition.leading.injEq, Span.mk.injEq, true_and, and_true]
            omega
        | cons first rest =>
            have apart : ¬span.start + (first :: rest).length = span.start := by
              rw [List.length_cons]
              omega
            simp only [if_neg apart, List.isEmpty_cons, Bool.false_eq_true, if_false,
              Division.place, Piece.span, Partition.binary.injEq, Span.mk.injEq, true_and,
              and_true]
            omega

theorem ofSpan_eq_place (usable : tables.Unambiguous) {scan : Scan} {span : Span}
    {text before after : List Char} {opened : List Nat} (nonempty : text ≠ [])
    (covers : Covers tables scan span text opened before after) :
    Partition.ofSpan tables scan span =
      ((Division.ofText tables text).map (Division.place span.start span.level)).mapError
        (·.shifted span.start) := by
  have enclosed : isEnclosed tables span.start [] text =
      (checkNesting tables span.start [] text).map fun _ =>
        decide (exposed tables 0 text = []) := isEnclosed_eq_checkNesting covers.closed
  have moved := checkNesting_shifted tables span.start 0 [] text
  rw [Nat.add_zero] at moved
  unfold Partition.ofSpan Division.ofText
  rw [covers.piece_eq, enclosed, moved]
  cases checked : checkNesting tables 0 [] text with
  | error error => rfl
  | ok value =>
      have balanced : IsBalanced tables text := checkNesting_eq_ok_iff.mp checked
      simp only [Except.mapError, Except.map]
      by_cases hidden : exposed tables 0 text = []
      · obtain ⟨opening, closing, kind, content, rfl, enclosing⟩ :=
          exists_enclosing balanced nonempty hidden
        have stop : span.stop - 1 = span.start + 1 + content.length := by
          rw [covers.stop, covers.start]
          simp
          omega
        simp only [hidden, decide_true, if_true, List.head?_cons, Option.bind_some,
          enclosing.openingKind, List.tail_cons, List.dropLast_concat, Division.place, Piece.span,
          stop]
      · simp only [hidden, decide_false, if_false]
        rw [ofExposed_eq_place usable covers balanced]

end DecimalCalculator
