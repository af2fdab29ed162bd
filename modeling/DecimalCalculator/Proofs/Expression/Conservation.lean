/-
No character is lost between a text and its tree.

The nodes of a tree, written in order, give the text without separators and
without the plus signs that stand where no operand is on their left.  The character
in front of a text decides only about a plus sign at its very beginning.
-/

import Mathlib
import DecimalCalculator.Proofs.Expression.Ends

namespace DecimalCalculator

variable {tables : SymbolTables} {text : List Char} {tree : Option Expression}

/-! ### Recorded characters -/

theorem recorded_append (previous : Option Char) (left right : List Char) :
    recorded tables previous (left ++ right) =
      recorded tables previous left ++ recorded tables (left.getLast?.or previous) right := by
  induction left generalizing previous with
  | nil => rfl
  | cons char rest ih =>
      have last : (char :: rest).getLast?.or previous = rest.getLast?.or (some char) := by
        rw [List.getLast?_cons]
        cases rest.getLast? <;> rfl
      simp only [List.cons_append, recorded, ih, last]
      split <;> rfl

theorem recorded_cons {previous : Option Char} {char : Char} {rest : List Char}
    (different : char ≠ listSeparator) (kept : isUnaryPlus tables previous char = false) :
    recorded tables previous (char :: rest) = char :: recorded tables (some char) rest := by
  simp [recorded, different, kept]

theorem recorded_cons_of_isBracket (usable : tables.Unambiguous) {char : Char}
    (bracket : isBracket tables char = true) (previous : Option Char) (rest : List Char) :
    recorded tables previous (char :: rest) = char :: recorded tables (some char) rest := by
  refine recorded_cons (usable.ne_separator_of_isBracket bracket) ?_
  simp [isUnaryPlus, usable.priority?_of_isBracket bracket]

theorem recorded_separator (previous : Option Char) (rest : List Char) :
    recorded tables previous (listSeparator :: rest) = recorded tables (some listSeparator) rest := by
  simp [recorded]

theorem recorded_of_kept {previous : Option Char}
    (kept : ∀ char ∈ text, char ≠ listSeparator ∧
      (char = '+' → tables.priority? char = none)) : recorded tables previous text = text := by
  induction text generalizing previous with
  | nil => rfl
  | cons char rest ih =>
      obtain ⟨different, unregistered⟩ := kept char List.mem_cons_self
      have notUnary : isUnaryPlus tables previous char = false := by
        by_cases plus : char = '+'
        · simp [isUnaryPlus, unregistered plus]
        · simp [isUnaryPlus, plus]
      rw [recorded_cons different notUnary,
        ih fun other member => kept other (List.mem_cons_of_mem char member)]

theorem recorded_of_letters {name : List Char} {previous : Option Char}
    (letters : ∀ char ∈ name, tables.isLetter char = true) :
    recorded tables previous name = name := by
  refine recorded_of_kept ?_
  intro char member
  have letter := letters char member
  exact ⟨SymbolTables.ne_separator_of_isLetter letter,
    fun _ => SymbolTables.priority?_of_isLetter letter⟩

theorem kept_of_isLiteral {chars : List Char} (literal : Literal.isLiteral chars = true) :
    ∀ char ∈ chars, char ≠ listSeparator ∧ char ≠ '+' := by
  intro char member
  rw [Literal.isLiteral, Bool.and_eq_true] at literal
  obtain ⟨mantissa, exponent⟩ := literal
  have whole := List.takeWhile_append_dropWhile (p := (!Decimal.isExponentMark ·)) (l := chars)
  have written : char.isDigit = true ∨ char = '.' ∨ Decimal.isExponentMark char = true := by
    rw [← whole, List.mem_append] at member
    rcases member with inMantissa | inExponent
    · rw [Literal.isMantissa, Bool.and_eq_true, Bool.and_eq_true, List.all_eq_true] at mantissa
      have allowed := mantissa.1.1 char inMantissa
      rw [Literal.isMantissaChar, Bool.or_eq_true, beq_iff_eq] at allowed
      exact allowed.imp_right Or.inl
    · cases rest : chars.dropWhile (!Decimal.isExponentMark ·) with
      | nil =>
          rw [rest] at inExponent
          cases inExponent
      | cons mark digits =>
          rw [rest] at exponent inExponent
          rw [Literal.isExponent, Bool.and_eq_true, List.all_eq_true] at exponent
          rcases List.mem_cons.mp inExponent with same | among
          · have stop := List.head?_dropWhile_not (!Decimal.isExponentMark ·) chars
            rw [rest, List.head?_cons, ← same] at stop
            exact Or.inr (Or.inr (by simpa using stop))
          · exact Or.inl (exponent.2 char among)
  constructor
  · rintro rfl
    exact absurd written (by decide)
  · rintro rfl
    exact absurd written (by decide)

/-! ### Written items -/

theorem flatten_writtenItems (readings : List (List Char × Option Expression)) :
    (Expression.writtenItems tables List.flatten (readings.filterMap Prod.snd)).flatten =
      readings.flatMap fun reading => Expression.writtenOptional tables List.flatten reading.2 := by
  induction readings with
  | nil => rfl
  | cons reading rest ih =>
      obtain ⟨chars, tree⟩ := reading
      cases tree with
      | none => exact ih
      | some tree =>
          exact congrArg (tree.written tables List.flatten ++ ·) ih

/-! ### Trees -/

/-- Whether the character in front of a text does not matter, or is one behind which
an operand begins. -/
def Begins (tables : SymbolTables) (previous : Option Char) (text : List Char) : Prop :=
  leadsOperand tables previous = true ∨ ∀ char ∈ text.head?, tables.priority? char = none

theorem Begins.left {previous : Option Char} {left right : List Char}
    (begins : Begins tables previous (left ++ right)) : Begins tables previous left := by
  rcases begins with leads | plain
  · exact Or.inl leads
  · refine Or.inr ?_
    intro char head
    exact plain char (by rw [List.head?_append, Option.mem_def.mp head]; rfl)

theorem recorded_joinedItems {previous : Option Char} {first : List Char × Option Expression}
    {others : List (List Char × Option Expression)}
    (begins : Begins tables previous (joinedItems first.1 (others.map Prod.fst)))
    (every : ∀ item ∈ first :: others, ∀ previous, Begins tables previous item.1 →
      Expression.writtenOptional tables List.flatten item.2 = recorded tables previous item.1) :
    (first :: others).flatMap
        (fun item => Expression.writtenOptional tables List.flatten item.2) =
      recorded tables previous (joinedItems first.1 (others.map Prod.fst)) := by
  induction others generalizing first previous with
  | nil =>
      have alone : joinedItems first.1 [] = first.1 := List.append_nil first.1
      rw [List.map_nil, alone] at begins ⊢
      rw [← every first List.mem_cons_self previous begins, List.flatMap_cons, List.flatMap_nil,
        List.append_nil]
  | cons other rest ih =>
      rw [List.map_cons, joinedItems_cons] at begins ⊢
      have later := @ih (some listSeparator) other (Or.inl (by simp [leadsOperand]))
        fun item member => every item (List.mem_cons_of_mem first member)
      rw [recorded_append, recorded_separator, ← later,
        ← every first List.mem_cons_self previous begins.left, List.flatMap_cons]

namespace Reads

theorem written_eq_recorded (usable : tables.Unambiguous) (reads : Reads tables text tree) :
    ∀ previous, Begins tables previous text →
      Expression.writtenOptional tables List.flatten tree = recorded tables previous text := by
  -- for every character in front, because the pieces have different ones there
  induction reads with
  | nothing => exact fun previous _ => rfl
  | brackets divides reads inside =>
      intro previous _
      cases divides with
      | @enclosed opening closing kind content enclosing balanced hidden =>
          have registered := enclosing.mem_brackets usable (reads.isBalanced usable)
          have opens := SymbolTables.isBracket_of_opensBracket enclosing.opens
          have closes := SymbolTables.isBracket_of_closesBracket enclosing.closes
          have content := inside (some opening) (Or.inl (by simp [leadsOperand, enclosing.opens]))
          rw [recorded_cons_of_isBracket usable opens, recorded_append, ← content,
            recorded_cons_of_isBracket usable closes]
          exact usable.bracketed_eq registered _
  | list several items _ every =>
      intro previous begins
      exact (flatten_writtenItems _).trans (recorded_joinedItems begins every)
  | positive divides _ behind =>
      intro previous begins
      cases divides with
      | leading last =>
          have registered : tables.priority? '+' = some _ := last.operator
          have leads : leadsOperand tables previous = true := by
            refine begins.resolve_right ?_
            intro plain
            rw [plain '+' rfl] at registered
            cases registered
          rw [behind (some '+') (Or.inl (by simp [leadsOperand, registered]))]
          simp [recorded, isUnaryPlus, registered, leads]
  | negative divides _ behind =>
      intro previous _
      cases divides with
      | leading last =>
          have registered : tables.priority? '-' = some _ := last.operator
          have operand := behind (some '-') (Or.inl (by simp [leadsOperand, registered]))
          rw [recorded_cons (by decide) (by simp [isUnaryPlus]), ← operand]
          rfl
  | @operator _ symbol _ _ _ _ _ divides reads _ first second =>
      intro previous begins
      have inner := mt (divides.mem_exposed_of_piece usable rfl List.mem_cons_self)
        (divides.undivided (by simp))
      have behindOperand := reads.leadsOperand_last usable inner
      cases divides with
      | @binary left right _ _ nonempty last =>
          have registered : tables.priority? symbol = some _ := last.operator
          obtain ⟨final, same⟩ := Option.ne_none_iff_exists'.mp
            (mt List.getLast?_eq_none_iff.mp nonempty)
          have notUnary : isUnaryPlus tables (left.getLast?.or previous) symbol = false := by
            rw [same]
            simp [isUnaryPlus, behindOperand final same]
          rw [recorded_append, recorded_cons (usable.ne_separator_of_priority? registered) notUnary,
            ← first previous begins.left,
            ← second (some symbol) (Or.inl (by simp [leadsOperand, registered]))]
          rfl
  | constant divides =>
      intro previous _
      cases divides with
      | constant nonempty letters =>
          rw [recorded_of_letters letters]
          exact String.toList_ofList
  | function divides _ _ suffixed applied =>
      intro previous _
      have whole := divides.isUndivided rfl
      have nameSuffix := divides.isUndivided_of_piece usable rfl whole List.mem_cons_self
      have operand := divides.isUndivided_of_piece usable rfl whole
        (List.mem_cons_of_mem _ List.mem_cons_self)
      cases divides with
      | function nonempty letters =>
          rw [recorded_append, recorded_append,
            ← suffixed _ (Or.inr (nameSuffix.priority?_head usable)),
            ← applied _ (Or.inr (operand.priority?_head usable)), recorded_of_letters letters,
            ← List.append_assoc]
          exact congrArg (· ++ _ ++ _) String.toList_ofList
  | @suffix _ symbol _ _ _ divides _ inFront =>
      intro previous _
      have operand := divides.isUndivided_of_piece usable rfl (divides.isUndivided rfl)
        List.mem_cons_self
      cases divides with
      | suffix _ isSuffix =>
          rw [recorded_append, ← inFront _ (Or.inr (operand.priority?_head usable)),
            recorded_of_kept]
          · rfl
          · intro char member
            rw [List.eq_of_mem_replicate member]
            have belongs : Partition.belongsToSuffix tables symbol = true := by
              rw [Partition.belongsToSuffix, isSuffix, Bool.or_true]
            have plain := usable.plain_of_belongsToSuffix belongs
            exact ⟨plain.2.2, fun _ => plain.2.1⟩
  | number divides literal =>
      intro previous _
      cases divides with
      | literal =>
          rw [recorded_of_kept]
          · exact String.toList_ofList
          · intro char member
            have kept := kept_of_isLiteral literal char member
            exact ⟨kept.1, fun plus => absurd plus kept.2⟩

end Reads

namespace Expression

/-- The nodes of a built tree, written in order without separators, give the text
without its separators and unary plus signs. -/
theorem characters_of_build (valid : tables.validate = .ok ()) {text : String}
    {tree : Expression} (built : build tables text = .ok tree) :
    tree.characters tables = recorded tables none text.toList := by
  have usable := tables.validate_eq_ok_iff.mp valid
  exact ((build_eq_ok_iff usable).mp built).written_eq_recorded usable none (Or.inl rfl)

set_option maxRecDepth 4000 in
theorem characters_of_build_signed_item :
    SymbolTables.standard.validate = .ok () ∧
      build SymbolTables.standard "(+1;)" = .ok (.brackets 1 (.list [.number "1"])) ∧
      characters SymbolTables.standard (.brackets 1 (.list [.number "1"])) =
        recorded SymbolTables.standard none "(+1;)".toList := by
  have built : build SymbolTables.standard "(+1;)" =
      .ok (.brackets 1 (.list [.number "1"])) := by cbv
  exact ⟨rfl, built, characters_of_build rfl built⟩

end Expression
end DecimalCalculator
