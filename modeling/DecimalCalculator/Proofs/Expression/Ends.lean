/-
The first and the last character of a text that reads as a tree.

A text that nothing divides begins with no operator, and a text without exposed
separators ends with a character behind which an operator has its left operand.
-/

import DecimalCalculator.Expression.Written
import DecimalCalculator.Proofs.Expression.Reading

namespace DecimalCalculator

variable {tables : SymbolTables} {text : List Char} {tree : Option Expression}

/-! ### Pairs of brackets -/

theorem IsEnclosing.mem_brackets (usable : tables.Unambiguous) {opening closing : Char}
    {kind : Nat} {content : List Char}
    (enclosing : IsEnclosing tables opening closing kind content)
    (balanced : IsBalanced tables content) : ⟨opening, closing, kind⟩ ∈ tables.brackets :=
  usable.exists_pair enclosing.opens enclosing.closes enclosing.openingKind
    (enclosing.closed [] balanced).2

theorem SymbolTables.Unambiguous.isEnclosing (usable : tables.Unambiguous) {pair : BracketPair}
    (registered : pair ∈ tables.brackets) :
    IsEnclosing tables pair.opening pair.closing pair.kind [] where
  opens := SymbolTables.opensBracket_iff.mpr ⟨pair, registered, rfl⟩
  openingKind := (usable.bracketKind?_of_mem registered).1
  closes := SymbolTables.closesBracket_iff.mpr ⟨pair, registered, rfl⟩
  notOpens := usable.opensBracket_closing registered
  closed _ through := ⟨(Option.some.inj through).symm, (usable.bracketKind?_of_mem registered).2⟩

theorem SymbolTables.Unambiguous.bracketed_eq (usable : tables.Unambiguous) {pair : BracketPair}
    (registered : pair ∈ tables.brackets) (content : List Char) :
    tables.bracketed pair.kind content = pair.opening :: (content ++ [pair.closing]) := by
  rw [SymbolTables.bracketed, usable.find?_kind registered]

/-! ### Read texts -/

theorem Divides.isBalanced (usable : tables.Unambiguous) {division : Division}
    (divides : Divides tables text division) : IsBalanced tables text := by
  by_cases operand : division.isOperand = true
  · exact (divides.isUndivided operand).balanced
  · cases divides with
    | enclosed _ balanced => exact balanced
    | items _ items =>
        exact IsBalanced.joinedItems usable.isBracket_separator
          fun item member => (items item member).balanced
    | leading last => exact (IsBalanced.singleton last.plain).append last.right
    | binary _ last =>
        exact IsBalanced.append last.left ((IsBalanced.singleton last.plain).append last.right)
    | _ => exact absurd rfl operand

theorem Reads.isBalanced (usable : tables.Unambiguous) (reads : Reads tables text tree) :
    IsBalanced tables text := by
  cases reads with
  | nothing => exact .nil
  | list several items =>
      exact IsBalanced.joinedItems usable.isBracket_separator
        (List.forall_mem_map.mpr fun item member => (items item member).balanced)
  | brackets divides | positive divides | negative divides | operator divides | constant divides
  | function divides | suffix divides | number divides => exact divides.isBalanced usable

theorem Reads.ne_nil {node : Expression} (reads : Reads tables text (some node)) : text ≠ [] := by
  cases reads with
  | list several items =>
      obtain ⟨other, rest, rfl⟩ := List.exists_cons_of_ne_nil several
      rw [List.map_cons, joinedItems_cons]
      exact List.append_ne_nil_of_right_ne_nil _ (List.cons_ne_nil _ _)
  | brackets divides | positive divides | negative divides | operator divides | constant divides
  | function divides | suffix divides | number divides => exact divides.ne_nil

theorem Reads.separator_mem_exposed (usable : tables.Unambiguous) (reads : Reads tables text tree) :
    ∀ items, tree = some (.list items) → listSeparator ∈ exposed tables 0 text := by
  induction reads with
  | list several items =>
      intro _ _
      rw [mem_exposed_of_items usable items]
      exact Or.inr ⟨rfl, several⟩
  | positive divides _ ih =>
      intro items same
      exact divides.mem_exposed_of_piece usable rfl List.mem_cons_self (ih items same)
  | _ => intro _ impossible; cases impossible

theorem Divides.isUndivided_of_piece (usable : tables.Unambiguous) {division : Division}
    {piece : Piece} (divides : Divides tables text division) (shown : division.hides = false)
    (whole : IsUndivided tables text) (member : piece ∈ division.pieces) :
    IsUndivided tables piece.chars := by
  obtain ⟨_, _, _, _, _, balanced⟩ := divides.exists_around usable shown member
  refine ⟨balanced, ?_, ?_⟩
  · intro separator
    exact whole.separators (divides.mem_exposed_of_piece usable shown member separator)
  · intro char outside
    exact whole.operators char (divides.mem_exposed_of_piece usable shown member outside)

/-! ### First characters -/

theorem IsUndivided.priority?_head (usable : tables.Unambiguous)
    (undivided : IsUndivided tables text) : ∀ char ∈ text.head?, tables.priority? char = none := by
  intro char head
  obtain ⟨rest, rfl⟩ := List.head?_eq_some_iff.mp head
  cases bracket : isBracket tables char with
  | true => exact usable.priority?_of_isBracket bracket
  | false =>
      refine undivided.operators char (mem_exposed_of_isExposed ?_)
      rw [isExposed, bracket]
      rfl

/-! ### Last characters -/

theorem IsBalanced.exposed_or_closes_last (balanced : IsBalanced tables text) :
    ∀ char ∈ text.getLast?, char ∈ exposed tables 0 text ∨
      (tables.opensBracket char = false ∧ tables.closesBracket char = true) := by
  intro char last
  obtain ⟨front, rfl⟩ := List.getLast?_eq_some_iff.mp last
  rw [IsBalanced, nestingThrough?_append, Option.bind_eq_some_iff] at balanced
  obtain ⟨opened, through, rest⟩ := balanced
  obtain ⟨final, after, done⟩ := nestingThrough?_cons_eq_some.mp rest
  cases done
  rcases closes_or_exposed after with outside | closer
  · have whole := DecimalCalculator.exposed_append through [char]
    rw [List.length_nil] at whole
    rw [whole]
    exact Or.inl (List.mem_append_right _ (mem_exposed_of_isExposed outside))
  · exact Or.inr ⟨closer.1, closer.2.1⟩

theorem leadsOperand_of_closes (usable : tables.Unambiguous) {char : Char}
    (notOpens : tables.opensBracket char = false) (closes : tables.closesBracket char = true) :
    leadsOperand tables (some char) = false := by
  have bracket := SymbolTables.isBracket_of_closesBracket closes
  have different := usable.ne_separator_of_isBracket bracket
  simp [leadsOperand, notOpens, different, usable.priority?_of_isBracket bracket]

/-- Behind a last character that is exposed and no operator, an operator has its
left operand. -/
theorem leadsOperand_last (usable : tables.Unambiguous) (balanced : IsBalanced tables text)
    (undivided : listSeparator ∉ exposed tables 0 text) {char : Char} (last : char ∈ text.getLast?)
    (operand : char ∈ exposed tables 0 text → tables.priority? char = none) :
    leadsOperand tables (some char) = false := by
  cases balanced.exposed_or_closes_last char last with
  | inr closer => exact leadsOperand_of_closes usable closer.1 closer.2
  | inl outside =>
      have different : char ≠ listSeparator := fun same => undivided (same ▸ outside)
      have plain := isBracket_of_mem_exposed outside
      rw [isBracket, Bool.or_eq_false_iff] at plain
      simp [leadsOperand, plain.1, different, operand outside]

theorem Reads.leadsOperand_last (usable : tables.Unambiguous) (reads : Reads tables text tree) :
    listSeparator ∉ exposed tables 0 text →
      ∀ char ∈ text.getLast?, leadsOperand tables (some char) = false := by
  induction reads with
  | nothing =>
      intro _ char last
      cases last
  | brackets divides =>
      intro undivided char last
      cases divides with
      | enclosed _ balanced hidden =>
          refine DecimalCalculator.leadsOperand_last usable balanced undivided last ?_
          rw [hidden]
          exact fun outside => absurd outside List.not_mem_nil
  | list several items every =>
      intro undivided
      have divided := (Reads.list several items every).separator_mem_exposed usable _ rfl
      exact absurd divided undivided
  | positive divides behind ih | negative divides behind ih =>
      intro undivided char last
      have inner := mt (divides.mem_exposed_of_piece usable rfl List.mem_cons_self) undivided
      cases divides with
      | leading =>
          rw [List.getLast?_cons_of_ne_nil behind.ne_nil] at last
          exact ih inner char last
  | operator divides _ behind _ ih =>
      intro undivided char last
      have inner := mt (divides.mem_exposed_of_piece usable rfl
        (List.mem_cons_of_mem _ List.mem_cons_self)) undivided
      cases divides with
      | binary =>
          rw [List.getLast?_append, List.getLast?_cons_of_ne_nil behind.ne_nil] at last
          obtain ⟨final, same⟩ := Option.ne_none_iff_exists'.mp
            (mt List.getLast?_eq_none_iff.mp behind.ne_nil)
          rw [same] at last
          exact Option.some.inj last ▸ ih inner final same
  | constant divides | function divides | suffix divides | number divides =>
      intro undivided char last
      have whole := divides.isUndivided rfl
      exact DecimalCalculator.leadsOperand_last usable whole.balanced undivided last
        (whole.operators char)

end DecimalCalculator
