/-
Errors of building are true of the text.

A piece of a text with well nested brackets stands between characters that begin and end
an operand, or no operator divides it.  So what a piece lacks at its ends, the text lacks
there, and by induction on the length of pieces every error is true at its position in
the text.  Only the content of several brackets in a row is not balanced, and there two
neighbours face each other.
-/

import DecimalCalculator.Proofs.Expression.Literals
import DecimalCalculator.Proofs.Expression.WellNested

namespace DecimalCalculator

variable {tables : SymbolTables} {text before piece after front rest : List Char}
  {symbol : Char}

/-! ### Errors at a position -/

theorem getElem?_behind (front : List Char) (char : Char) (rest : List Char) :
    (front ++ char :: rest)[front.length + 1]? = rest.head? := by
  rw [List.getElem?_append_right (Nat.le_add_right _ 1), Nat.add_sub_cancel_left,
    List.getElem?_cons_succ, List.head?_eq_getElem?]

namespace ExpressionError

theorem isTrueOf_missingOperand (operator : (tables.priority? symbol).isSome = true)
    (lacks : endsOperand tables rest.head? = true ∨
      leadsOperand tables front.getLast? = true ∧ symbol ≠ '+' ∧ symbol ≠ '-') :
    (missingOperand symbol front.length).IsTrueOf tables (front ++ symbol :: rest) := by
  refine ⟨by simp, operator, ?_⟩
  rw [List.take_left, getElem?_behind]
  exact lacks

theorem isTrueOf_emptyBrackets {pair : BracketPair} (registered : pair ∈ tables.brackets)
    (front rest : List Char) :
    (emptyBrackets front.length).IsTrueOf tables
      (front ++ pair.opening :: pair.closing :: rest) :=
  ⟨pair, registered, by simp, getElem?_behind _ _ _⟩

theorem isTrueOf_mismatchedBracket {closing opening : Char}
    (closes : tables.closesBracket closing = true) (opens : tables.opensBracket opening = true)
    (front rest : List Char) :
    (mismatchedBracket front.length).IsTrueOf tables (front ++ closing :: opening :: rest) :=
  ⟨⟨closing, by simp, closes⟩, opening, getElem?_behind _ _ _, opens⟩

theorem isTrueOf_malformedNumber {chars : List Char} (nonempty : chars ≠ [])
    (malformed : Literal.isLiteral chars = false) (before after : List Char) :
    (malformedNumber (String.ofList chars)).IsTrueOf tables (before ++ (chars ++ after)) := by
  refine ⟨?_, ?_, ?_⟩
  · intro empty
    exact nonempty (String.ofList_eq_empty_iff.mp empty)
  · rw [String.toList_ofList]
    exact ⟨before, after, List.append_assoc before chars after⟩
  · rw [String.toList_ofList, ← Literal.isLiteral_iff_isDecimalLiteral, malformed]
    exact Bool.false_ne_true

theorem isTrueOf_overflow {chars : List Char} (uncountable : Literal.isCountable chars = false)
    (before after : List Char) :
    ExpressionError.overflow.IsTrueOf tables (before ++ (chars ++ after)) :=
  ⟨chars, ⟨before, after, List.append_assoc before chars after⟩, uncountable⟩

end ExpressionError

/-! ### Pieces of a text -/

/-- A balanced piece of a text.  Operators divide it only if the characters around it
begin and end an operand. -/
structure StandsIn (tables : SymbolTables) (text before piece after : List Char) : Prop where
  split : text = before ++ (piece ++ after)
  balanced : IsBalanced tables piece
  bounded : IsUndivided tables piece ∨
    leadsOperand tables before.getLast? = true ∧ endsOperand tables after.head? = true

theorem leadsOperand_append {left : List Char} (begins : leadsOperand tables before.getLast? = true)
    (last : ∀ char ∈ left.getLast?, leadsOperand tables (some char) = true) :
    leadsOperand tables (before ++ left).getLast? = true := by
  rw [List.getLast?_append]
  cases found : left.getLast? with
  | none => exact begins
  | some char => exact last char found

theorem endsOperand_append {right : List Char} (ends : endsOperand tables after.head? = true)
    (first : ∀ char ∈ right.head?, endsOperand tables (some char) = true) :
    endsOperand tables (right ++ after).head? = true := by
  rw [List.head?_append]
  cases found : right.head? with
  | none => exact ends
  | some char => exact first char found

theorem leadsOperand_operator (operator : (tables.priority? symbol).isSome = true) :
    leadsOperand tables (some symbol) = true := by
  rw [leadsOperand, operator, Bool.or_true]

theorem endsOperand_operator (operator : (tables.priority? symbol).isSome = true) :
    endsOperand tables (some symbol) = true := by
  rw [endsOperand, operator, Bool.or_true]

theorem leadsOperand_separator : leadsOperand tables (some listSeparator) = true := by
  simp [leadsOperand]

theorem endsOperand_separator : endsOperand tables (some listSeparator) = true := by
  simp [endsOperand]

theorem exists_between_separators {first : List Char} {others : List (List Char)} {offset : Nat}
    {item : Piece} (member : item ∈ Piece.inSequence offset (first :: others)) :
    ∃ left right, joinedItems first others = left ++ (item.chars ++ right) ∧
      item.offset = offset + left.length ∧ (∀ char ∈ left.getLast?, char = listSeparator) ∧
        ∀ char ∈ right.head?, char = listSeparator := by
  induction others generalizing first offset with
  | nil =>
      rw [Piece.inSequence, Piece.inSequence, List.mem_singleton] at member
      subst member
      exact ⟨[], [], rfl, rfl, fun _ absent => absurd absent (Option.not_mem_none _),
        fun _ absent => absurd absent (Option.not_mem_none _)⟩
  | cons other more ih =>
      rcases List.mem_cons.mp member with same | later
      · subst same
        exact ⟨[], listSeparator :: joinedItems other more, joinedItems_cons first other more,
          rfl, fun _ absent => absurd absent (Option.not_mem_none _),
          fun char head => (Option.some.inj head).symm⟩
      · obtain ⟨left, right, split, begins, last, head⟩ := ih later
        refine ⟨first ++ listSeparator :: left, right, ?_, ?_, ?_, head⟩
        · rw [joinedItems_cons, split, List.append_assoc, List.cons_append]
        · rw [begins, List.length_append, List.length_cons]
          omega
        · intro char final
          rw [List.getLast?_append, List.getLast?_cons] at final
          cases found : left.getLast? with
          | none =>
              rw [found] at final
              exact (Option.some.inj final).symm
          | some other =>
              rw [found] at final
              exact Option.some.inj final ▸ last other found

namespace StandsIn

theorem of_mem_pieces (usable : tables.Unambiguous)
    (stands : StandsIn tables text before piece after) {division : Division}
    (divides : Divides tables piece division) (shown : division.hides = false) {inner : Piece}
    (member : inner ∈ division.pieces) :
    ∃ left right, inner.offset = left.length ∧
      StandsIn tables text (before ++ left) inner.chars (right ++ after) := by
  obtain ⟨split, balanced, bounded⟩ := stands
  by_cases operand : division.isOperand = true
  · obtain ⟨left, right, apart, begins, _, inside⟩ := divides.exists_around usable shown member
    have undivided := divides.isUndivided_of_piece usable shown (divides.isUndivided operand) member
    refine ⟨left, right, begins, ?_, inside, Or.inl undivided⟩
    rw [split, apart]
    simp only [List.append_assoc]
  · cases divides with
    | enclosed => cases shown
    | items several items =>
        obtain ⟨leads, ends⟩ := bounded.resolve_left fun undivided => undivided.separators
          ((mem_exposed_joinedItems usable.isBracket_separator fun item present =>
            (items item present).balanced).mpr (Or.inr ⟨rfl, several⟩))
        obtain ⟨left, right, apart, begins, last, head⟩ := exists_between_separators member
        refine ⟨left, right, by rw [begins, Nat.zero_add], ?_,
          (items _ (Piece.mem_inSequence member)).balanced, Or.inr ⟨?_, ?_⟩⟩
        · rw [split, apart]
          simp only [List.append_assoc]
        · exact leadsOperand_append leads fun char final =>
            last char final ▸ leadsOperand_separator
        · exact endsOperand_append ends fun char first => head char first ▸ endsOperand_separator
    | @leading symbol priority right last =>
        obtain ⟨leads, ends⟩ := bounded.resolve_left last.not_isUndivided
        have operator := Option.isSome_of_eq_some last.operator
        rw [List.mem_singleton.mp member]
        refine ⟨[symbol], [], rfl, ?_, last.right, Or.inr ⟨?_, ends⟩⟩
        · rw [split]
          simp
        · exact leadsOperand_append leads fun char final =>
            Option.some.inj final ▸ leadsOperand_operator operator
    | @binary left right symbol priority nonempty last =>
        obtain ⟨leads, ends⟩ := bounded.resolve_left last.not_isUndivided
        have operator := Option.isSome_of_eq_some last.operator
        rcases List.mem_cons.mp member with same | other
        · subst same
          refine ⟨[], symbol :: right, rfl, ?_, last.left, Or.inr ⟨?_, ?_⟩⟩
          · rw [split]
            simp
          · rw [List.append_nil]
            exact leads
          · exact endsOperand_operator operator
        · rw [List.mem_singleton.mp other]
          refine ⟨left ++ [symbol], [], by simp, ?_, last.right, Or.inr ⟨?_, ends⟩⟩
          · rw [split]
            simp
          · rw [← List.append_assoc, List.getLast?_concat]
            exact leadsOperand_operator operator
    | constant | function | suffix | literal => exact absurd rfl operand

theorem between {opening closing : Char} {kind : Nat}
    {content : List Char}
    (stands : StandsIn tables text before (opening :: (content ++ [closing])) after)
    (enclosing : IsEnclosing tables opening closing kind content)
    (balanced : IsBalanced tables content) :
    StandsIn tables text (before ++ [opening]) content (closing :: after) := by
  refine ⟨?_, balanced, Or.inr ⟨?_, ?_⟩⟩
  · rw [stands.split]
    simp
  · rw [List.getLast?_concat, leadsOperand, enclosing.opens, Bool.true_or, Bool.true_or]
  · rw [List.head?_cons, endsOperand, enclosing.closes, Bool.true_or, Bool.true_or]

end StandsIn

/-! ### Brackets in a row -/

theorem exists_neighbours (usable : tables.Unambiguous) {opening closing : Char}
    {content : List Char} (balanced : IsBalanced tables (opening :: (content ++ [closing])))
    (hidden : exposed tables 0 (opening :: (content ++ [closing])) = [])
    (opens : tables.opensBracket opening = true) (unbalanced : ¬IsBalanced tables content) :
    ∃ inner pair next rest, content = inner ++ pair.closing :: next :: rest ∧
      IsBalanced tables inner ∧ pair ∈ tables.brackets ∧ tables.opensBracket next = true := by
  generalize whole : opening :: (content ++ [closing]) = group at balanced hidden
  cases (wellNested_iff_isBalanced usable).mpr balanced with
  | nil => cases whole
  | plain notOpens =>
      rw [(List.cons.inj whole).1, notOpens] at opens
      cases opens
  | @pair pair inner behind registered inside nested =>
      obtain ⟨-, split⟩ := List.cons.inj whole
      have first : WellNested tables (pair.opening :: (inner ++ [pair.closing])) :=
        .pair registered inside .nil
      rw [show pair.opening :: (inner ++ pair.closing :: behind) =
        pair.opening :: (inner ++ [pair.closing]) ++ behind by simp,
        (first.isBalanced usable).exposed_append, List.append_eq_nil_iff] at hidden
      by_cases alone : behind = []
      · subst alone
        rw [List.append_inj_left' split rfl] at unbalanced
        exact absurd (inside.isBalanced usable) unbalanced
      · obtain ⟨next, last, _, rest, rfl, enclosing⟩ :=
          exists_enclosing (nested.isBalanced usable) alone hidden.2
        have ends : content ++ [closing] = inner ++ pair.closing :: next :: rest ++ [last] := by
          rw [split]
          simp
        exact ⟨inner, pair, next, rest, List.append_inj_left' ends rfl,
          inside.isBalanced usable, registered, enclosing.opens⟩

/-! ### Whole runs -/

theorem Reads.eq_nil (reads : Reads tables text none) : text = [] := by
  cases reads with
  | nothing => rfl

theorem IsBalanced.exists_division (balanced : IsBalanced tables text) (nonempty : text ≠ []) :
    ∃ division, Division.ofText tables text = .ok division := by
  by_cases hidden : exposed tables 0 text = []
  · obtain ⟨opening, closing, kind, content, rfl, enclosing⟩ :=
      exists_enclosing balanced nonempty hidden
    unfold Division.ofText
    rw [checkNesting_eq_ok_iff.mpr balanced]
    simp only [if_pos hidden, List.head?_cons, Option.bind_some, enclosing.openingKind]
    exact ⟨_, rfl⟩
  · exact ⟨_, Division.ofText_eq_ofExposed balanced hidden⟩

namespace Expression

theorem ofText_of_checkNesting {error : ExpressionError}
    (failed : checkNesting tables 0 [] text = .error error) :
    ofText tables text = .error error := by
  have nonempty : text ≠ [] := by
    intro empty
    rw [empty] at failed
    cases failed
  rw [ofText_eq_assemble nonempty, Division.ofText, failed]
  rfl

theorem chars_eq_nil_of_ofPiece {piece : Piece} (found : ofPiece tables piece = .ok none) :
    piece.chars = [] :=
  (reads_of_ofText (ofPiece_eq_ok_iff.mp found)).eq_nil

theorem eq_none_of_required {position : Nat} {tree : Option Expression} {error : ExpressionError}
    (lacking : required symbol position tree = .error error) :
    tree = none ∧ error = .missingOperand symbol position := by
  cases tree with
  | none => exact ⟨rfl, (Except.error.inj lacking).symm⟩
  | some tree => cases lacking

theorem mem_of_mapM_eq_error {pieces : List Piece} {error : ExpressionError}
    (failed : pieces.mapM (ofPiece tables) = .error error) :
    ∃ inner ∈ pieces, ofPiece tables inner = .error error := by
  rw [← fault?_eq_some_iff, fault?_mapM, firstFault?_eq_some_iff] at failed
  obtain ⟨front, inner, rest, rfl, -, failed⟩ := failed
  exact ⟨inner, List.mem_append_right _ List.mem_cons_self, failed⟩

end Expression

namespace StandsIn

open Expression

/-- If the errors of the pieces are true of the text, so is an error of what is put
together from them. -/
theorem isTrueOf_of_assemble (usable : tables.Unambiguous)
    (stands : StandsIn tables text before piece after) {division : Division}
    (divides : Divides tables piece division)
    (inherited : ∀ inner ∈ division.pieces, ∀ error, ofPiece tables inner = .error error →
      (error.shifted before.length).IsTrueOf tables text) {error : ExpressionError}
    (failed : division.assemble (ofPiece tables) = .error error) :
    (error.shifted before.length).IsTrueOf tables text := by
  cases divides with
  | @enclosed opening closing kind content enclosing balanced hidden =>
      rcases bind_eq_error_iff.mp failed with inside | ⟨child, found, rest⟩
      · exact inherited _ List.mem_cons_self error inside
      · cases child with
        | some child => cases rest
        | none =>
            cases rest
            obtain rfl : content = [] := chars_eq_nil_of_ofPiece found
            have registered := enclosing.mem_brackets usable .nil
            rw [stands.split]
            exact ExpressionError.isTrueOf_emptyBrackets registered before after
  | items several items =>
      rcases bind_eq_error_iff.mp failed with inside | ⟨trees, _, rest⟩
      · obtain ⟨inner, member, failedInner⟩ := mem_of_mapM_eq_error inside
        exact inherited inner member error failedInner
      · cases rest
  | @leading symbol priority right last undivided =>
      have operator := Option.isSome_of_eq_some last.operator
      obtain ⟨leads, ends⟩ := stands.bounded.resolve_left last.not_isUndivided
      rcases bind_eq_error_iff.mp failed with inside | ⟨child, found, rest⟩
      · exact inherited _ List.mem_cons_self error inside
      · rcases bind_eq_error_iff.mp rest with lacking | ⟨_, _, impossible⟩
        · rw [stands.split]
          cases child with
          | none =>
              cases lacking
              obtain rfl : right = [] := chars_eq_nil_of_ofPiece found
              exact ExpressionError.isTrueOf_missingOperand operator (Or.inl ends)
          | some child =>
              simp only [ofLeading] at lacking
              split at lacking
              · cases lacking
              · split at lacking
                · cases lacking
                · rename_i notPlus notMinus
                  cases lacking
                  exact ExpressionError.isTrueOf_missingOperand operator
                    (Or.inr ⟨leads, notPlus, notMinus⟩)
        · cases impossible
  | @binary left right symbol priority nonempty last undivided =>
      have operator := Option.isSome_of_eq_some last.operator
      obtain ⟨-, ends⟩ := stands.bounded.resolve_left last.not_isUndivided
      rcases bind_eq_error_iff.mp failed with inside | ⟨leftTree, foundLeft, rest⟩
      · exact inherited _ List.mem_cons_self error inside
      rcases bind_eq_error_iff.mp rest with lacking | ⟨_, _, rest⟩
      · obtain ⟨rfl, -⟩ := eq_none_of_required lacking
        exact absurd (chars_eq_nil_of_ofPiece foundLeft) nonempty
      rcases bind_eq_error_iff.mp rest with inside | ⟨rightTree, foundRight, rest⟩
      · exact inherited _ (List.mem_cons_of_mem _ List.mem_cons_self) error inside
      rcases bind_eq_error_iff.mp rest with lacking | ⟨_, _, impossible⟩
      · obtain ⟨rfl, rfl⟩ := eq_none_of_required lacking
        obtain rfl : right = [] := chars_eq_nil_of_ofPiece foundRight
        rw [ExpressionError.shifted, ← List.length_append, stands.split, List.append_assoc,
          ← List.append_assoc]
        exact ExpressionError.isTrueOf_missingOperand operator (Or.inl ends)
      · cases impossible
  | constant => cases failed
  | function =>
      rcases bind_eq_error_iff.mp failed with inside | ⟨_, _, rest⟩
      · exact inherited _ List.mem_cons_self error inside
      · rcases bind_eq_error_iff.mp rest with inside | ⟨_, _, impossible⟩
        · exact inherited _ (List.mem_cons_of_mem _ List.mem_cons_self) error inside
        · cases impossible
  | suffix =>
      rcases bind_eq_error_iff.mp failed with inside | ⟨_, _, impossible⟩
      · exact inherited _ List.mem_cons_self error inside
      · cases impossible
  | literal exposes =>
      rcases bind_eq_error_iff.mp failed with malformed | ⟨_, _, impossible⟩
      · rw [stands.split]
        rcases ofLiteral_eq_error_iff.mp malformed with
          ⟨uncountable, rfl⟩ | ⟨notLiteral, -, rfl⟩
        · exact ExpressionError.isTrueOf_overflow uncountable before after
        · have nonempty : piece ≠ [] := by
            intro empty
            rw [empty] at exposes
            exact exposes rfl
          exact ExpressionError.isTrueOf_malformedNumber nonempty notLiteral before after
      · cases impossible

theorem isTrueOf_of_unbalanced (usable : tables.Unambiguous) {opening closing : Char}
    {kind : Nat} {content : List Char}
    (stands : StandsIn tables text before (opening :: (content ++ [closing])) after)
    (enclosing : IsEnclosing tables opening closing kind content)
    (hidden : exposed tables 0 (opening :: (content ++ [closing])) = [])
    (unbalanced : ¬IsBalanced tables content) {error : ExpressionError}
    (failed : ofText tables content = .error error) :
    (error.shifted (before.length + 1)).IsTrueOf tables text := by
  obtain ⟨inner, pair, next, rest, rfl, balanced, registered, opens⟩ :=
    exists_neighbours usable stands.balanced hidden enclosing.opens unbalanced
  have closes : tables.closesBracket pair.closing = true :=
    SymbolTables.closesBracket_iff.mpr ⟨pair, registered, rfl⟩
  have stops : nestingAfter? tables [] pair.closing = none :=
    (nestingAfter?_eq_none_iff usable fun other absent => absurd absent List.not_mem_nil).mpr
      ⟨closes, fun innermost absent => absurd absent (Option.not_mem_none _)⟩
  have stopped := ofText_of_checkNesting (checkNesting_of_stops balanced stops 0 (next :: rest))
  rw [stopped, Except.error.injEq] at failed
  have place : before.length + 1 + (0 + inner.length) = (before ++ opening :: inner).length := by
    simp
    omega
  rw [← failed, ExpressionError.shifted, place, stands.split,
    show before ++ (opening :: (inner ++ pair.closing :: next :: rest ++ [closing]) ++ after) =
      (before ++ opening :: inner) ++ pair.closing :: next :: (rest ++ closing :: after) by simp]
  exact ExpressionError.isTrueOf_mismatchedBracket closes opens _ _

theorem isTrueOf_of_ofText (usable : tables.Unambiguous)
    (stands : StandsIn tables text before piece after) {error : ExpressionError}
    (failed : ofText tables piece = .error error) :
    (error.shifted before.length).IsTrueOf tables text := by
  -- on the length of the piece, for all places at which it may stand
  generalize size : piece.length = length
  induction length using Nat.strong_induction_on generalizing before piece after error with
  | _ length ih =>
      by_cases nonempty : piece = []
      · rw [nonempty, ofText_nil] at failed
        cases failed
      · obtain ⟨division, divided⟩ := stands.balanced.exists_division nonempty
        have divides := divides_of_ofText nonempty divided
        rw [ofText_eq_assemble nonempty, divided] at failed
        refine stands.isTrueOf_of_assemble usable divides ?_ failed
        intro inner member error failedInner
        have shorter := size ▸ Division.length_lt_of_mem_ofText divided nonempty inner member
        obtain ⟨cause, failedText, rfl⟩ := mapError_eq_error_iff.mp failedInner
        rw [ExpressionError.shifted_shifted]
        by_cases shown : division.hides = false
        · obtain ⟨left, right, begins, inside⟩ := stands.of_mem_pieces usable divides shown member
          rw [begins, ← List.length_append]
          exact ih _ shorter inside failedText rfl
        · cases divides with
          | @enclosed opening closing kind content enclosing _ hidden =>
              rw [List.mem_singleton.mp member] at failedText shorter ⊢
              by_cases balanced : IsBalanced tables content
              · have inside := ih _ shorter (stands.between enclosing balanced) failedText rfl
                rw [List.length_append] at inside
                exact inside
              · exact stands.isTrueOf_of_unbalanced usable enclosing hidden balanced failedText
          | _ => exact absurd rfl shown

end StandsIn

/-! ### Built texts -/

namespace Expression

theorem build_of_checkNesting {text : String} {error : ExpressionError}
    (failed : checkNesting tables 0 [] text.toList = .error error) :
    build tables text = .error error := by
  rw [build, Scan.ofChars, marksFrom_eq_marksAlong, failed]
  rfl

theorem isTrueOf_of_build (usable : tables.Unambiguous) {text : String}
    (nested : WellNested tables text.toList) {error : ExpressionError}
    (failed : build tables text = .error error) : error.IsTrueOf tables text.toList := by
  rw [build_eq_buildPiecewise_of_unambiguous usable] at failed
  rcases bind_eq_error_iff.mp failed with failedText | ⟨tree, found, rest⟩
  · have whole : StandsIn tables text.toList [] text.toList [] :=
      ⟨by simp, nested.isBalanced usable, Or.inr ⟨rfl, rfl⟩⟩
    have holds := whole.isTrueOf_of_ofText usable failedText
    rw [List.length_nil, ExpressionError.shifted_zero] at holds
    exact holds
  · cases tree with
    | none =>
        cases rest
        exact (reads_of_ofText found).eq_nil
    | some tree => cases rest

/-- Faults of brackets come first, whatever else is wrong.  A text that is not well nested
is refused at its first closing bracket that does not match and, if there is none, because
brackets are left open; of a well nested text the latter is never said. -/
theorem bracketErrors_of_build (valid : tables.validate = .ok ()) (text : String) :
    (∀ position, IsFirstMismatch tables text.toList position →
      ¬WellNested tables text.toList ∧
        build tables text = .error (.mismatchedBracket position)) ∧
      (¬WellNested tables text.toList →
        (build tables text = .error .unclosedBracket ↔
          ∀ position, ¬IsFirstMismatch tables text.toList position)) ∧
      (WellNested tables text.toList → build tables text ≠ .error .unclosedBracket) := by
  have usable := tables.validate_eq_ok_iff.mp valid
  refine ⟨?_, ?_, fun nested failed => isTrueOf_of_build usable nested failed⟩
  · intro position mismatch
    have failed := (checkNesting_eq_mismatched_iff usable).mpr mismatch
    refine ⟨fun nested => ?_, build_of_checkNesting failed⟩
    rw [checkNesting_eq_ok_iff.mpr (nested.isBalanced usable)] at failed
    cases failed
  · intro faulty
    constructor
    · intro unclosed position mismatch
      have failed := (checkNesting_eq_mismatched_iff usable).mpr mismatch
      rw [build_of_checkNesting failed] at unclosed
      cases unclosed
    · intro matched
      exact build_of_checkNesting ((checkNesting_eq_unclosed_iff usable).mpr ⟨faulty, matched⟩)

theorem bracketErrors_of_build_crossed :
    SymbolTables.standard.validate = .ok () ∧
      IsFirstMismatch SymbolTables.standard "[(1+]*".toList 4 ∧
      build SymbolTables.standard "[(1+]*" = .error (.mismatchedBracket 4) := by
  have content : WellNested SymbolTables.standard ['1', '+'] :=
    .plain (by decide) (by decide) (.plain (by decide) (by decide) .nil)
  have mismatch : IsFirstMismatch SymbolTables.standard "[(1+]*".toList 4 :=
    ⟨['[', '(', '1', '+'], ']', ['*'], [⟨'(', ')', roundBrackets⟩, ⟨'[', ']', squareBrackets⟩],
      rfl, rfl, .bracket (.bracket (.none .nil) (by decide) .nil) (by decide) content, rfl,
      by decide⟩
  exact ⟨rfl, mismatch, ((bracketErrors_of_build rfl _).1 4 mismatch).2⟩

/-- Every error of a text with well nested brackets is true of the text, and only the empty
text is reported as empty. -/
theorem errors_of_build (valid : tables.validate = .ok ()) {text : String}
    (nested : WellNested tables text.toList) :
    (build tables text = .error .emptyExpression ↔ text = "") ∧
      ∀ error, build tables text = .error error → error.IsTrueOf tables text.toList := by
  have usable := tables.validate_eq_ok_iff.mp valid
  refine ⟨⟨?_, ?_⟩, fun error failed => isTrueOf_of_build usable nested failed⟩
  · intro failed
    exact String.toList_eq_nil_iff.mp (isTrueOf_of_build usable nested failed)
  · rintro rfl
    rw [build_eq_buildPiecewise_of_unambiguous usable, buildPiecewise, String.toList_empty,
      ofText_nil]
    rfl

set_option maxRecDepth 4000 in
theorem errors_of_build_missing_operand :
    SymbolTables.standard.validate = .ok () ∧
      WellNested SymbolTables.standard "2*(1+)".toList ∧
      build SymbolTables.standard "2*(1+)" = .error (.missingOperand '+' 4) ∧
      (ExpressionError.missingOperand '+' 4).IsTrueOf SymbolTables.standard
        "2*(1+)".toList := by
  have content : WellNested SymbolTables.standard ['1', '+'] :=
    .plain (by decide) (by decide) (.plain (by decide) (by decide) .nil)
  have registered : ⟨'(', ')', roundBrackets⟩ ∈ SymbolTables.standard.brackets := by decide
  have nested : WellNested SymbolTables.standard "2*(1+)".toList :=
    .plain (by decide) (by decide) (.plain (by decide) (by decide)
      (.pair registered content .nil))
  have built : build SymbolTables.standard "2*(1+)" = .error (.missingOperand '+' 4) := by cbv
  exact ⟨rfl, nested, built, (errors_of_build rfl nested).2 _ built⟩

end Expression
end DecimalCalculator
