/-
The trees that texts read as.

A relation between texts and trees says how every node comes from a division of
its text.  A text is built to a tree exactly if it reads as the tree, so facts
about built trees are proved by induction on readings, one case for each rule.
-/

import DecimalCalculator.Proofs.Expression.Agreement

namespace DecimalCalculator

variable {tables : SymbolTables}

/-! ### Readings -/

/-- The tree that a text reads as.  Only the empty text reads as no tree. -/
inductive Reads (tables : SymbolTables) : List Char → Option Expression → Prop where
  | nothing : Reads tables [] none
  | brackets {text : List Char} {kind : Nat} {content : Piece} {child : Expression}
      (divides : Divides tables text (.enclosed kind content))
      (inside : Reads tables content.chars (some child)) :
      Reads tables text (some (.brackets kind child))
  | list {first : List Char × Option Expression} {others : List (List Char × Option Expression)}
      (several : others ≠ []) (items : ∀ item ∈ first :: others, IsItem tables item.1)
      (every : ∀ item ∈ first :: others, Reads tables item.1 item.2) :
      Reads tables (joinedItems first.1 (others.map Prod.fst))
        (some (.list ((first :: others).filterMap Prod.snd)))
  | positive {text : List Char} {operand : Piece} {tree : Expression}
      (divides : Divides tables text (.leading '+' operand))
      (behind : Reads tables operand.chars (some tree)) : Reads tables text (some tree)
  | negative {text : List Char} {operand : Piece} {tree : Expression}
      (divides : Divides tables text (.leading '-' operand))
      (behind : Reads tables operand.chars (some tree)) :
      Reads tables text (some (.negative tree))
  | operator {text : List Char} {symbol : Char} {position : Nat} {left right : Piece}
      {leftTree rightTree : Expression}
      (divides : Divides tables text (.binary symbol position left right))
      (first : Reads tables left.chars (some leftTree))
      (second : Reads tables right.chars (some rightTree)) :
      Reads tables text (some (.operator symbol leftTree rightTree))
  | constant {text name : List Char} (divides : Divides tables text (.constant name)) :
      Reads tables text (some (.constant (String.ofList name)))
  | function {text name : List Char} {nameSuffix operand : Piece}
      {suffixTree operandTree : Option Expression}
      (divides : Divides tables text (.function name nameSuffix operand))
      (suffixed : Reads tables nameSuffix.chars suffixTree)
      (applied : Reads tables operand.chars operandTree) :
      Reads tables text (some (.function (String.ofList name) suffixTree operandTree))
  | suffix {text : List Char} {symbol : Char} {count : Nat} {operand : Piece}
      {operandTree : Option Expression} (divides : Divides tables text (.suffix symbol count operand))
      (inFront : Reads tables operand.chars operandTree) :
      Reads tables text (some (.suffix symbol count operandTree))
  | number {text chars : List Char} (divides : Divides tables text (.literal chars))
      (literal : Literal.isLiteral chars = true) (countable : Literal.isCountable chars = true) :
      Reads tables text (some (.number (String.ofList chars)))

theorem mem_exposed_of_items (usable : tables.Unambiguous) {char : Char}
    {first : List Char × Option Expression} {others : List (List Char × Option Expression)}
    (items : ∀ item ∈ first :: others, IsItem tables item.1) :
    char ∈ exposed tables 0 (joinedItems first.1 (others.map Prod.fst)) ↔
      (∃ item ∈ first :: others, char ∈ exposed tables 0 item.1) ∨
        (char = listSeparator ∧ others ≠ []) := by
  have balanced : ∀ item ∈ first.1 :: others.map Prod.fst, IsBalanced tables item :=
    List.forall_mem_map.mpr fun item member => (items item member).balanced
  rw [mem_exposed_joinedItems usable.isBracket_separator balanced, ← List.map_cons]
  simp only [List.mem_map, exists_exists_and_eq_and, ne_eq, List.map_eq_nil_iff]

/-! ### Outcomes -/

theorem exists_mem_inSequence {item : List Char} {items : List (List Char)} (offset : Nat)
    (member : item ∈ items) : ∃ piece ∈ Piece.inSequence offset items, piece.chars = item := by
  induction items generalizing offset with
  | nil => cases member
  | cons first rest ih =>
      rcases List.mem_cons.mp member with same | later
      · exact ⟨_, List.mem_cons_self, same.symm⟩
      · obtain ⟨piece, among, same⟩ := ih (offset + first.length + 1) later
        exact ⟨piece, List.mem_cons_of_mem _ among, same⟩

namespace Expression

theorem ofPiece_eq_ok_iff {piece : Piece} {tree : Option Expression} :
    ofPiece tables piece = .ok tree ↔ ofText tables piece.chars = .ok tree := by
  rw [ofPiece]
  cases ofText tables piece.chars with
  | error error =>
      constructor
      · intro impossible
        cases impossible
      · intro impossible
        cases impossible
  | ok found => exact Iff.rfl

theorem mapM_ofPiece_eq_ok_iff (offset : Nat) {items : List (List Char)}
    {trees : List (Option Expression)} :
    (Piece.inSequence offset items).mapM (ofPiece tables) = .ok trees ↔
      ∃ readings : List (List Char × Option Expression), readings.map Prod.fst = items ∧
        readings.map Prod.snd = trees ∧
        ∀ reading ∈ readings, ofText tables reading.1 = .ok reading.2 := by
  induction items generalizing offset trees with
  | nil =>
      constructor
      · intro none
        cases none
        exact ⟨[], rfl, rfl, fun reading member => absurd member List.not_mem_nil⟩
      · rintro ⟨readings, empty, rfl, _⟩
        rw [List.map_eq_nil_iff.mp empty]
        rfl
  | cons item rest ih =>
      rw [Piece.inSequence, List.mapM_cons, bind_eq_ok_iff]
      constructor
      · rintro ⟨tree, first, more⟩
        obtain ⟨later, found, same⟩ := bind_eq_ok_iff.mp more
        obtain ⟨readings, rfl, rfl, every⟩ := (ih _).mp found
        cases same
        refine ⟨(item, tree) :: readings, rfl, rfl, ?_⟩
        intro reading member
        rcases List.mem_cons.mp member with same | other
        · exact same ▸ ofPiece_eq_ok_iff.mp first
        · exact every reading other
      · rintro ⟨readings, split, rfl, every⟩
        obtain ⟨first, others, rfl, rfl, rfl⟩ := List.map_eq_cons_iff.mp split
        refine ⟨first.2, ofPiece_eq_ok_iff.mpr (every first List.mem_cons_self),
          bind_eq_ok_iff.mpr ⟨others.map Prod.snd, (ih _).mpr ⟨others, rfl, rfl, ?_⟩, rfl⟩⟩
        exact fun reading member => every reading (List.mem_cons_of_mem first member)

/-! ### Building gives readings -/

theorem reads_of_assemble {text : List Char} {division : Division} {tree : Option Expression}
    (divides : Divides tables text division)
    (pieces : ∀ piece ∈ division.pieces, ∀ child,
      ofText tables piece.chars = .ok child → Reads tables piece.chars child)
    (assembled : division.assemble (ofPiece tables) = .ok tree) : Reads tables text tree := by
  cases division with
  | enclosed kind content =>
      obtain ⟨child, found, rest⟩ := bind_eq_ok_iff.mp assembled
      have inside := pieces content List.mem_cons_self child (ofPiece_eq_ok_iff.mp found)
      cases child with
      | none => cases rest
      | some child =>
          cases rest
          exact .brackets divides inside
  | items parts =>
      obtain ⟨trees, found, rest⟩ := bind_eq_ok_iff.mp assembled
      cases rest
      cases divides with
      | @items first others several items =>
          obtain ⟨readings, split, rfl, every⟩ := (mapM_ofPiece_eq_ok_iff 0).mp found
          obtain ⟨first, others, rfl, rfl, rfl⟩ := List.map_eq_cons_iff.mp split
          rw [List.filterMap_map]
          refine .list (mt (congrArg (List.map Prod.fst)) several) ?_ ?_
          · exact fun reading member => items reading.1 (List.mem_map_of_mem member)
          · intro reading member
            obtain ⟨piece, among, same⟩ := exists_mem_inSequence 0
              (List.mem_map_of_mem (f := Prod.fst) member)
            rw [← same]
            refine pieces piece among reading.2 ?_
            rw [same]
            exact every reading member
  | leading symbol operand =>
      obtain ⟨child, found, rest⟩ := bind_eq_ok_iff.mp assembled
      have behind := pieces operand List.mem_cons_self child (ofPiece_eq_ok_iff.mp found)
      obtain ⟨whole, led, same⟩ := bind_eq_ok_iff.mp rest
      cases same
      cases child with
      | none => cases led
      | some operandTree =>
          unfold ofLeading at led
          simp only at led
          split at led
          · rename_i plus
            subst plus
            cases led
            exact .positive divides behind
          · split at led
            · rename_i minus
              subst minus
              cases led
              exact .negative divides behind
            · cases led
  | binary symbol position left right =>
      obtain ⟨leftTree, foundLeft, rest⟩ := bind_eq_ok_iff.mp assembled
      obtain ⟨leftChild, requiredLeft, rest⟩ := bind_eq_ok_iff.mp rest
      obtain ⟨rightTree, foundRight, rest⟩ := bind_eq_ok_iff.mp rest
      obtain ⟨rightChild, requiredRight, rest⟩ := bind_eq_ok_iff.mp rest
      have first := pieces left List.mem_cons_self leftTree (ofPiece_eq_ok_iff.mp foundLeft)
      have second := pieces right (List.mem_cons_of_mem left List.mem_cons_self) rightTree
        (ofPiece_eq_ok_iff.mp foundRight)
      cases rest
      cases leftTree with
      | none => cases requiredLeft
      | some leftTree =>
          cases rightTree with
          | none => cases requiredRight
          | some rightTree =>
              cases requiredLeft
              cases requiredRight
              exact .operator divides first second
  | constant name =>
      cases assembled
      exact .constant divides
  | function name nameSuffix operand =>
      obtain ⟨suffixTree, foundSuffix, rest⟩ := bind_eq_ok_iff.mp assembled
      obtain ⟨operandTree, foundOperand, rest⟩ := bind_eq_ok_iff.mp rest
      cases rest
      exact .function divides
        (pieces nameSuffix List.mem_cons_self suffixTree (ofPiece_eq_ok_iff.mp foundSuffix))
        (pieces operand (List.mem_cons_of_mem nameSuffix List.mem_cons_self) operandTree
          (ofPiece_eq_ok_iff.mp foundOperand))
  | suffix symbol count operand =>
      obtain ⟨operandTree, found, rest⟩ := bind_eq_ok_iff.mp assembled
      cases rest
      exact .suffix divides
        (pieces operand List.mem_cons_self operandTree (ofPiece_eq_ok_iff.mp found))
  | literal chars =>
      obtain ⟨whole, read, rest⟩ := bind_eq_ok_iff.mp assembled
      cases rest
      obtain ⟨countable, literal, same⟩ := ofLiteral_eq_ok_iff.mp read
      rw [← same]
      exact .number divides literal countable

theorem reads_of_ofText {text : List Char} {tree : Option Expression}
    (built : ofText tables text = .ok tree) : Reads tables text tree := by
  generalize size : text.length = length
  induction length using Nat.strong_induction_on generalizing text tree with
  | _ length ih =>
      by_cases nonempty : text = []
      · subst nonempty
        rw [ofText_nil] at built
        cases built
        exact .nothing
      · rw [ofText_eq_assemble nonempty] at built
        obtain ⟨division, divided, assembled⟩ := bind_eq_ok_iff.mp built
        refine reads_of_assemble (divides_of_ofText nonempty divided) ?_ assembled
        intro piece member child found
        have shorter := Division.length_lt_of_mem_ofText divided nonempty piece member
        exact ih piece.chars.length (size ▸ shorter) found rfl

end Expression

/-! ### Readings are built -/

theorem Divides.ne_nil {text : List Char} {division : Division}
    (divides : Divides tables text division) : text ≠ [] := by
  cases divides with
  | enclosed => exact List.cons_ne_nil _ _
  | items several =>
      obtain ⟨other, rest, rfl⟩ := List.exists_cons_of_ne_nil several
      rw [joinedItems_cons]
      exact List.append_ne_nil_of_right_ne_nil _ (List.cons_ne_nil _ _)
  | leading => exact List.cons_ne_nil _ _
  | binary => exact List.append_ne_nil_of_right_ne_nil _ (List.cons_ne_nil _ _)
  | constant nonempty => exact nonempty
  | function nonempty => exact List.append_ne_nil_of_left_ne_nil nonempty _
  | suffix positive =>
      refine List.append_ne_nil_of_right_ne_nil _ ?_
      rw [Ne, List.replicate_eq_nil_iff]
      exact Nat.pos_iff_ne_zero.mp positive
  | literal exposes =>
      intro empty
      rw [empty] at exposes
      exact exposes rfl

theorem Expression.ofText_eq_of_divides {text : List Char} {division : Division}
    (usable : tables.Unambiguous) (divides : Divides tables text division) :
    ofText tables text = division.assemble (ofPiece tables) := by
  rw [ofText_eq_assemble divides.ne_nil, DecimalCalculator.ofText_of_divides usable divides]
  rfl

namespace Reads

theorem ofText_eq_ok (usable : tables.Unambiguous) {text : List Char} {tree : Option Expression}
    (reads : Reads tables text tree) : Expression.ofText tables text = .ok tree := by
  induction reads with
  | nothing => exact Expression.ofText_nil
  | brackets divides _ inside =>
      rw [Expression.ofText_eq_of_divides usable divides]
      exact bind_eq_ok_iff.mpr ⟨_, Expression.ofPiece_eq_ok_iff.mpr inside, rfl⟩
  | @list first others several items _ every =>
      have divides := Divides.items (mt List.map_eq_nil_iff.mp several)
        (List.forall_mem_map.mpr items)
      rw [Expression.ofText_eq_of_divides usable divides]
      have together := (Expression.mapM_ofPiece_eq_ok_iff 0).mpr
        ⟨first :: others, rfl, rfl, every⟩
      refine bind_eq_ok_iff.mpr ⟨_, together, ?_⟩
      rw [List.filterMap_map]
      rfl
  | positive divides _ behind =>
      rw [Expression.ofText_eq_of_divides usable divides]
      exact bind_eq_ok_iff.mpr ⟨_, Expression.ofPiece_eq_ok_iff.mpr behind, rfl⟩
  | negative divides _ behind =>
      rw [Expression.ofText_eq_of_divides usable divides]
      exact bind_eq_ok_iff.mpr ⟨_, Expression.ofPiece_eq_ok_iff.mpr behind, rfl⟩
  | operator divides _ _ first second =>
      rw [Expression.ofText_eq_of_divides usable divides]
      refine bind_eq_ok_iff.mpr ⟨_, Expression.ofPiece_eq_ok_iff.mpr first, ?_⟩
      refine bind_eq_ok_iff.mpr ⟨_, rfl, ?_⟩
      exact bind_eq_ok_iff.mpr ⟨_, Expression.ofPiece_eq_ok_iff.mpr second, rfl⟩
  | constant divides => exact Expression.ofText_eq_of_divides usable divides
  | function divides _ _ suffixed applied =>
      rw [Expression.ofText_eq_of_divides usable divides]
      refine bind_eq_ok_iff.mpr ⟨_, Expression.ofPiece_eq_ok_iff.mpr suffixed, ?_⟩
      exact bind_eq_ok_iff.mpr ⟨_, Expression.ofPiece_eq_ok_iff.mpr applied, rfl⟩
  | suffix divides _ inFront =>
      rw [Expression.ofText_eq_of_divides usable divides]
      exact bind_eq_ok_iff.mpr ⟨_, Expression.ofPiece_eq_ok_iff.mpr inFront, rfl⟩
  | number divides literal countable =>
      rw [Expression.ofText_eq_of_divides usable divides]
      exact bind_eq_ok_iff.mpr
        ⟨_, Expression.ofLiteral_eq_ok_iff.mpr ⟨countable, literal, rfl⟩, rfl⟩

end Reads

namespace Expression

theorem ofText_eq_ok_iff (usable : tables.Unambiguous) {text : List Char}
    {tree : Option Expression} : ofText tables text = .ok tree ↔ Reads tables text tree :=
  ⟨reads_of_ofText, Reads.ofText_eq_ok usable⟩

theorem build_eq_ok_iff (usable : tables.Unambiguous) {text : String} {tree : Expression} :
    build tables text = .ok tree ↔ Reads tables text.toList (some tree) := by
  rw [build_eq_buildPiecewise_of_unambiguous usable, ← ofText_eq_ok_iff usable, buildPiecewise,
    bind_eq_ok_iff]
  constructor
  · rintro ⟨found, built, same⟩
    cases found with
    | none => cases same
    | some found =>
        cases same
        exact built
  · exact fun built => ⟨some tree, built, rfl⟩

end Expression
end DecimalCalculator
