/-
Writing a built tree and building it again.

The text that a tree is written as reads as the same tree and can stand in the
place of the text of the tree.  A text that nothing divides keeps its first and its
last character, so that names and suffix operators around it end where they did, and
the suffix of a name does not change at all.
-/

import Mathlib
import DecimalCalculator.Proofs.Expression.Replacement

namespace DecimalCalculator

variable {tables : SymbolTables} {text : List Char} {tree : Option Expression}

def rendered (tables : SymbolTables) (tree : Option Expression) : List Char :=
  Expression.writtenOptional tables separated tree

theorem rendered_number (chars : List Char) :
    rendered tables (some (.number (String.ofList chars))) = chars :=
  String.toList_ofList

theorem rendered_constant (name : List Char) :
    rendered tables (some (.constant (String.ofList name))) = name :=
  String.toList_ofList

theorem rendered_function (name : List Char) (nameSuffix operand : Option Expression) :
    rendered tables (some (.function (String.ofList name) nameSuffix operand)) =
      name ++ (rendered tables nameSuffix ++ rendered tables operand) := by
  rw [← List.append_assoc]
  exact congrArg (· ++ _ ++ _) String.toList_ofList

theorem rendered_suffix (symbol : Char) (count : Nat) (operand : Option Expression) :
    rendered tables (some (.suffix symbol count operand)) =
      rendered tables operand ++ List.replicate count symbol :=
  rfl

theorem rendered_brackets (usable : tables.Unambiguous) {opening closing : Char} {kind : Nat}
    (registered : ⟨opening, closing, kind⟩ ∈ tables.brackets) (content : Expression) :
    rendered tables (some (.brackets kind content)) =
      opening :: (rendered tables (some content) ++ [closing]) :=
  usable.bracketed_eq registered _

/-! ### Written lists -/

theorem writtenItems_eq_map (together : List (List Char) → List Char) (items : List Expression) :
    Expression.writtenItems tables together items = items.map (·.written tables together) := by
  induction items with
  | nil => rfl
  | cons item rest ih => rw [Expression.writtenItems, ih, List.map_cons]

theorem intercalate_eq_joinedItems (first : List Char) (others : List (List Char)) :
    [listSeparator].intercalate (first :: others) = joinedItems first others := by
  induction others generalizing first with
  | nil => simp [joinedItems]
  | cons other rest ih =>
      rw [List.intercalate_cons_cons, ih, joinedItems_cons, List.append_assoc]
      rfl

theorem exists_rendered_list (tables : SymbolTables) (trees : List Expression) :
    ∃ (first : List Char × Option Expression) (others : List (List Char × Option Expression)),
      others ≠ [] ∧
      joinedItems first.1 (others.map Prod.fst) = rendered tables (some (.list trees)) ∧
      (first :: others).filterMap Prod.snd = trees ∧
      ∀ item ∈ first :: others, item = ([], none) ∨
        ∃ tree ∈ trees, item = (rendered tables (some tree), some tree) := by
  let item (tree : Expression) : List Char × Option Expression :=
    (rendered tables (some tree), some tree)
  have written : rendered tables (some (.list trees)) =
      separated (trees.map fun tree => (item tree).1) :=
    congrArg separated (writtenItems_eq_map separated trees)
  rw [written]
  cases trees with
  | nil => exact ⟨([], none), [([], none)], by simp, rfl, rfl, by simp⟩
  | cons first rest =>
      cases rest with
      | nil =>
          exact ⟨item first, [([], none)], by simp, by simp [joinedItems, separated], rfl,
            by simp [item]⟩
      | cons second rest =>
          refine ⟨item first, (second :: rest).map item, by simp, ?_, ?_, ?_⟩
          · have several : ¬((first :: second :: rest).map fun tree => (item tree).1).length < 2 := by
              simp
            rw [separated, if_neg several, List.map_map]
            exact (intercalate_eq_joinedItems _ _).symm
          · rw [← List.map_cons, List.filterMap_map]
            exact List.filterMap_some
          · intro other member
            rw [← List.map_cons] at member
            obtain ⟨tree, present, same⟩ := List.mem_map.mp member
            exact Or.inr ⟨tree, present, same.symm⟩

namespace Reads

theorem rendered_eq_of_plain (reads : Reads tables text tree) :
    (∀ char ∈ text, isBracket tables char = false ∧ tables.priority? char = none ∧
      char ≠ listSeparator) → rendered tables tree = text := by
  induction reads with
  | nothing => exact fun _ => rfl
  | brackets divides =>
      intro plain
      cases divides with
      | enclosed enclosing =>
          have bracket := (plain _ List.mem_cons_self).1
          rw [isBracket, enclosing.opens] at bracket
          cases bracket
  | list several =>
      intro plain
      obtain ⟨other, rest, rfl⟩ := List.exists_cons_of_ne_nil several
      rw [List.map_cons, joinedItems_cons] at plain
      exact absurd rfl (plain listSeparator (List.mem_append_right _ List.mem_cons_self)).2.2
  | positive divides | negative divides =>
      intro plain
      cases divides with
      | leading last =>
          have operator := last.operator
          rw [(plain _ List.mem_cons_self).2.1] at operator
          cases operator
  | operator divides =>
      intro plain
      cases divides with
      | binary _ last =>
          have operator := last.operator
          rw [(plain _ (List.mem_append_right _ List.mem_cons_self)).2.1] at operator
          cases operator
  | constant divides =>
      intro _
      cases divides
      exact rendered_constant _
  | number divides =>
      intro _
      cases divides
      exact rendered_number _
  | function divides _ _ suffixed applied =>
      intro plain
      cases divides
      rw [rendered_function, suffixed, applied]
      · exact fun char member =>
          plain char (List.mem_append_right _ (List.mem_append_right _ member))
      · exact fun char member =>
          plain char (List.mem_append_right _ (List.mem_append_left _ member))
  | suffix divides _ inFront =>
      intro plain
      cases divides
      rw [rendered_suffix, inFront]
      exact fun char member => plain char (List.mem_append_left _ member)

end Reads

/-! ### Trees that are written in the place of texts -/

/-- What the tree is written as reads as the tree, and can stand for the text between
brackets, separators and operators. -/
structure StandsFor (tables : SymbolTables) (tree : Option Expression) (text : List Char) :
    Prop where
  reads : Reads tables (rendered tables tree) tree
  replaces : Replaces tables (rendered tables tree) text

/-- It can also stand for the text behind a name and in front of suffix operators: if
nothing divides the text, its first and its last character are kept. -/
structure StandsForOperand (tables : SymbolTables) (tree : Option Expression)
    (text : List Char) : Prop extends StandsFor tables tree text where
  ends : IsUndivided tables text → (rendered tables tree).head? = text.head? ∧
    (rendered tables tree).getLast? = text.getLast?

theorem StandsFor.enclosed (usable : tables.Unambiguous) {pair : BracketPair}
    (registered : pair ∈ tables.brackets) {node : Expression} {content : List Char}
    (inside : StandsFor tables (some node) content) :
    StandsFor tables (some (.brackets pair.kind node)) text := by
  obtain ⟨again, hidden⟩ := inside.reads.enclosed usable registered
  rw [← rendered_brackets usable registered] at again hidden
  refine ⟨again, again.isBalanced usable, ?_⟩
  rw [hidden]
  exact fun char outside => absurd outside List.not_mem_nil

theorem StandsFor.of_divided (stands : StandsFor tables tree text)
    (divided : ¬IsUndivided tables text) : StandsForOperand tables tree text :=
  ⟨stands, fun undivided => (divided undivided).elim⟩

namespace StandsForOperand

variable {node : Expression}

theorem of_written (usable : tables.Unambiguous) (reads : Reads tables text tree)
    (written : rendered tables tree = text) : StandsForOperand tables tree text := by
  refine ⟨⟨?_, ?_⟩, ?_⟩
  · rw [written]
    exact reads
  · rw [written]
    exact .refl (reads.isBalanced usable)
  · rw [written]
    exact fun _ => ⟨rfl, rfl⟩

theorem brackets (usable : tables.Unambiguous) {kind : Nat} {content : Piece}
    (divides : Divides tables text (.enclosed kind content))
    (balanced : IsBalanced tables content.chars)
    (inside : StandsFor tables (some node) content.chars) :
    StandsForOperand tables (some (.brackets kind node)) text := by
  cases divides with
  | enclosed enclosing =>
      have registered := enclosing.mem_brackets usable balanced
      refine ⟨inside.enclosed usable registered, ?_⟩
      intro _
      rw [rendered_brackets usable registered]
      simp [List.getLast?_cons]

/-- A list can stand for the items of another one if each of its items can stand for one
of them. -/
theorem list (usable : tables.Unambiguous) {first : List Char × Option Expression}
    {others : List (List Char × Option Expression)} (several : others ≠ [])
    (items : ∀ item ∈ first :: others, IsItem tables item.1) {trees : List Expression}
    (every : ∀ tree ∈ trees, ∃ item ∈ first :: others, StandsFor tables (some tree) item.1) :
    StandsForOperand tables (some (.list trees)) (joinedItems first.1 (others.map Prod.fst)) := by
  obtain ⟨padded, more, severalAgain, written, kept, origin⟩ := exists_rendered_list tables trees
  have itemsAgain : ∀ item ∈ padded :: more, IsItem tables item.1 := by
    intro item member
    rcases origin item member with rfl | ⟨tree, present, rfl⟩
    · exact ⟨.nil, List.not_mem_nil⟩
    · obtain ⟨old, among, stands⟩ := every tree present
      exact (items old among).of_replaces stands.replaces
  have again : Reads tables (joinedItems padded.1 (more.map Prod.fst))
      (some (.list ((padded :: more).filterMap Prod.snd))) := by
    apply Reads.list severalAgain itemsAgain
    intro item member
    rcases origin item member with rfl | ⟨tree, present, rfl⟩
    · exact .nothing
    · obtain ⟨old, among, stands⟩ := every tree present
      exact stands.reads
  rw [kept, written] at again
  have separator : listSeparator ∈ exposed tables 0 (joinedItems first.1 (others.map Prod.fst)) :=
    (mem_exposed_of_items usable items).mpr (Or.inr ⟨rfl, several⟩)
  refine StandsFor.of_divided ⟨again, again.isBalanced usable, ?_⟩
    fun undivided => undivided.separators separator
  intro char outside
  rw [← written, mem_exposed_of_items usable itemsAgain] at outside
  rcases outside with ⟨item, member, outside⟩ | ⟨same, _⟩
  · rcases origin item member with rfl | ⟨tree, present, rfl⟩
    · cases outside
    · obtain ⟨old, among, stands⟩ := every tree present
      rw [mem_exposed_of_items usable items]
      exact Or.inl ⟨old, among, stands.replaces.within char outside⟩
  · rw [same]
    exact separator

theorem positive (usable : tables.Unambiguous) {operand : Piece}
    (divides : Divides tables text (.leading '+' operand))
    (behind : StandsFor tables tree operand.chars) : StandsForOperand tables tree text := by
  have stands : StandsFor tables tree text := by
    refine ⟨behind.reads, behind.replaces.balanced, ?_⟩
    intro char outside
    exact divides.mem_exposed_of_piece usable rfl List.mem_cons_self
      (behind.replaces.within char outside)
  cases divides with
  | leading last => exact stands.of_divided last.not_isUndivided

theorem negative {operand : Piece} (divides : Divides tables text (.leading '-' operand))
    (behind : StandsFor tables (some node) operand.chars) :
    StandsForOperand tables (some (.negative node)) text := by
  cases divides with
  | leading last undivided =>
      have whole := Replaces.operator last .nil behind.replaces
      have again : Reads tables (rendered tables (some (.negative node)))
          (some (.negative node)) :=
        .negative (.leading (last.of_replaces .nil behind.replaces)
          (mt (whole.within _) undivided)) behind.reads
      exact StandsFor.of_divided ⟨again, whole⟩ last.not_isUndivided

theorem operator {symbol : Char} {position : Nat} {left right : Piece}
    {leftTree rightTree : Expression}
    (divides : Divides tables text (.binary symbol position left right))
    (first : StandsFor tables (some leftTree) left.chars)
    (second : StandsFor tables (some rightTree) right.chars) :
    StandsForOperand tables (some (.operator symbol leftTree rightTree)) text := by
  cases divides with
  | binary _ last undivided =>
      have whole := Replaces.operator last first.replaces second.replaces
      have again : Reads tables (rendered tables (some (.operator symbol leftTree rightTree)))
          (some (.operator symbol leftTree rightTree)) :=
        .operator (.binary first.reads.ne_nil
          (last.of_replaces first.replaces second.replaces) (mt (whole.within _) undivided))
          first.reads second.reads
      exact StandsFor.of_divided ⟨again, whole⟩ last.not_isUndivided

theorem function (usable : tables.Unambiguous) {name : List Char} {nameSuffix operand : Piece}
    {suffixTree operandTree : Option Expression}
    (divides : Divides tables text (.function name nameSuffix operand))
    (suffixed : Reads tables nameSuffix.chars suffixTree)
    (applied : StandsForOperand tables operandTree operand.chars) :
    StandsForOperand tables (some (.function (String.ofList name) suffixTree operandTree)) text := by
  have ends := applied.ends (divides.isUndivided_of_piece usable rfl
    (divides.isUndivided rfl) (List.mem_cons_of_mem _ List.mem_cons_self))
  have same := suffixed.rendered_eq_of_plain (divides.plain_suffix usable)
  obtain ⟨again, whole⟩ := divides.function_of_replaces usable applied.replaces ends.1
  have written : rendered tables
      (some (.function (String.ofList name) suffixTree operandTree)) =
        name ++ (nameSuffix.chars ++ rendered tables operandTree) := by
    rw [rendered_function, same]
  rw [← written] at again whole
  refine ⟨⟨.function again suffixed applied.reads, whole⟩, ?_⟩
  intro _
  rw [written]
  cases divides
  simp only [List.head?_append, List.getLast?_append, ends, and_self]

theorem suffix (usable : tables.Unambiguous) {symbol : Char} {count : Nat} {operand : Piece}
    {operandTree : Option Expression}
    (divides : Divides tables text (.suffix symbol count operand))
    (inFront : StandsForOperand tables operandTree operand.chars) :
    StandsForOperand tables (some (.suffix symbol count operandTree)) text := by
  have ends := inFront.ends (divides.isUndivided_of_piece usable rfl
    (divides.isUndivided rfl) List.mem_cons_self)
  obtain ⟨again, whole⟩ := divides.suffix_of_replaces usable inFront.replaces ends
  rw [← rendered_suffix] at again whole
  refine ⟨⟨.suffix again inFront.reads, whole⟩, ?_⟩
  intro _
  cases divides
  simp only [rendered_suffix, List.head?_append, List.getLast?_append, ends, and_self]

end StandsForOperand

namespace Reads

theorem standsFor (usable : tables.Unambiguous) (reads : Reads tables text tree) :
    StandsForOperand tables tree text := by
  induction reads with
  | nothing => exact .of_written usable .nothing rfl
  | brackets divides reads inside =>
      exact .brackets usable divides (reads.isBalanced usable) inside.toStandsFor
  | list several items _ every =>
      apply StandsForOperand.list usable several items
      intro tree member
      obtain ⟨reading, among, same⟩ := List.mem_filterMap.mp member
      exact ⟨reading, among, same ▸ (every reading among).toStandsFor⟩
  | positive divides _ behind => exact .positive usable divides behind.toStandsFor
  | negative divides _ behind => exact .negative divides behind.toStandsFor
  | operator divides _ _ first second =>
      exact .operator divides first.toStandsFor second.toStandsFor
  | constant divides =>
      apply StandsForOperand.of_written usable (.constant divides)
      cases divides
      exact rendered_constant _
  | function divides suffixed _ _ applied => exact .function usable divides suffixed applied
  | suffix divides _ inFront => exact .suffix usable divides inFront
  | number divides literal countable =>
      apply StandsForOperand.of_written usable (.number divides literal countable)
      cases divides
      exact rendered_number _

end Reads

namespace Expression

/-- The text that a built tree is written as is built to the same tree. -/
theorem build_render (valid : tables.validate = .ok ()) {text : String} {tree : Expression}
    (built : build tables text = .ok tree) : build tables (tree.render tables) = .ok tree := by
  have usable := tables.validate_eq_ok_iff.mp valid
  have reads := (build_eq_ok_iff usable).mp built
  rw [build_eq_ok_iff usable, render, String.toList_ofList]
  exact (reads.standsFor usable).reads

set_option maxRecDepth 4000 in
theorem build_render_signed_item :
    SymbolTables.standard.validate = .ok () ∧
      build SymbolTables.standard "(+1;)" = .ok (.brackets 1 (.list [.number "1"])) ∧
      build SymbolTables.standard
          (render SymbolTables.standard (.brackets 1 (.list [.number "1"]))) =
        .ok (.brackets 1 (.list [.number "1"])) := by
  have built : build SymbolTables.standard "(+1;)" =
      .ok (.brackets 1 (.list [.number "1"])) := by cbv
  exact ⟨rfl, built, build_render rfl built⟩

end Expression
end DecimalCalculator
