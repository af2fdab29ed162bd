/-
Priorities in built trees.

The operators that a tree shows outside brackets are operators that its text shows
outside brackets.  A text is cut at the last of its lowest operators, so the trees
on both sides show no lower one, and the tree behind it not even an equal one.
-/

import Mathlib
import DecimalCalculator.Expression.Nodes
import DecimalCalculator.Proofs.Expression.Ends

namespace DecimalCalculator

variable {tables : SymbolTables} {text : List Char} {tree : Option Expression}

/-! ### Operators of trees and of texts -/

theorem mem_exposedOperatorsItems {char : Char} {items : List Expression} :
    char ∈ Expression.exposedOperatorsItems items ↔
      ∃ item ∈ items, char ∈ item.exposedOperators := by
  induction items with
  | nil => simp [Expression.exposedOperatorsItems]
  | cons item rest ih => simp [Expression.exposedOperatorsItems, ih]

def ShowsOperators (tables : SymbolTables) (text operators : List Char) : Prop :=
  ∀ symbol ∈ operators,
    symbol ∈ exposed tables 0 text ∧ ∃ priority, tables.priority? symbol = some priority

namespace ShowsOperators

theorem nil : ShowsOperators tables text [] :=
  fun _ member => absurd member List.not_mem_nil

theorem append {left right : List Char} (first : ShowsOperators tables text left)
    (second : ShowsOperators tables text right) : ShowsOperators tables text (left ++ right) :=
  List.forall_mem_append.mpr ⟨first, second⟩

theorem cons {operators : List Char} {cut : OperatorCut} (last : IsLastCut tables [] cut)
    (others : ShowsOperators tables (cut.left ++ cut.symbol :: cut.right) operators) :
    ShowsOperators tables (cut.left ++ cut.symbol :: cut.right) (cut.symbol :: operators) :=
  List.forall_mem_cons.mpr ⟨⟨last.symbol_mem_exposed, cut.priority, last.operator⟩, others⟩

theorem of_piece (usable : tables.Unambiguous) {operators : List Char} {division : Division}
    {piece : Piece} (divides : Divides tables text division) (shown : division.hides = false)
    (member : piece ∈ division.pieces) (inside : ShowsOperators tables piece.chars operators) :
    ShowsOperators tables text operators := by
  intro symbol among
  obtain ⟨outside, registered⟩ := inside symbol among
  exact ⟨divides.mem_exposed_of_piece usable shown member outside, registered⟩

end ShowsOperators

namespace Reads

theorem showsOperators (usable : tables.Unambiguous) (reads : Reads tables text tree) :
    ShowsOperators tables text (Expression.exposedOperatorsOptional tree) := by
  induction reads with
  | nothing | brackets | constant | number => exact .nil
  | @list first others several items _ ih =>
      intro symbol member
      obtain ⟨item, among, inside⟩ := mem_exposedOperatorsItems.mp member
      obtain ⟨reading, present, same⟩ := List.mem_filterMap.mp among
      obtain ⟨outside, registered⟩ := ih reading present symbol (by rw [same]; exact inside)
      exact ⟨(mem_exposed_of_items usable items).mpr (Or.inl ⟨reading, present, outside⟩),
        registered⟩
  | positive divides _ behind => exact behind.of_piece usable divides rfl List.mem_cons_self
  | negative divides _ behind =>
      have operand := behind.of_piece usable divides rfl List.mem_cons_self
      cases divides with
      | leading last => exact .cons last operand
  | operator divides _ _ first second =>
      have left := first.of_piece usable divides rfl List.mem_cons_self
      have right := second.of_piece usable divides rfl (List.mem_cons_of_mem _ List.mem_cons_self)
      cases divides with
      | binary _ last => exact left.append (.cons last right)
  | function divides _ _ suffixed applied =>
      exact (suffixed.of_piece usable divides rfl List.mem_cons_self).append
        (applied.of_piece usable divides rfl (List.mem_cons_of_mem _ List.mem_cons_self))
  | suffix divides _ inFront => exact inFront.of_piece usable divides rfl List.mem_cons_self

theorem exposesOnly (usable : tables.Unambiguous) {node : Expression}
    (reads : Reads tables text (some node)) {allowed : Int → Prop}
    (priorities : Priorities tables allowed (exposed tables 0 text)) :
    node.ExposesOnly tables allowed := by
  intro symbol member
  obtain ⟨outside, priority, known⟩ := reads.showsOperators usable symbol member
  exact ⟨priority, known, priorities symbol outside priority known⟩

theorem exposedOperators_eq_nil (usable : tables.Unambiguous) (reads : Reads tables text tree)
    (undivided : ∀ char ∈ exposed tables 0 text, tables.priority? char = none) :
    Expression.exposedOperatorsOptional tree = [] := by
  rw [List.eq_nil_iff_forall_not_mem]
  intro char member
  obtain ⟨outside, priority, known⟩ := reads.showsOperators usable char member
  rw [undivided char outside] at known
  cases known

/-! ### Single nodes -/

theorem respectsPriorities (usable : tables.Unambiguous) (reads : Reads tables text tree) :
    ∀ node ∈ tree, node.RespectsPriorities tables := by
  induction reads with
  | nothing =>
      intro node member
      cases member
  | positive _ _ ih => exact ih
  | negative divides behind =>
      rintro node ⟨⟩
      cases divides with
      | leading last => exact ⟨_, last.operator, behind.exposesOnly usable last.behind⟩
  | operator divides first second =>
      rintro node ⟨⟩
      cases divides with
      | binary _ last =>
          exact ⟨_, last.operator, first.exposesOnly usable last.before,
            second.exposesOnly usable last.behind⟩
  | @function _ _ nameSuffix operand _ _ divides suffixed applied =>
      rintro node ⟨⟩
      have undivided : ∀ piece ∈ [nameSuffix, operand], ∀ char ∈ exposed tables 0 piece.chars,
          tables.priority? char = none := by
        intro piece member char outside
        have found := divides.mem_exposed_of_piece usable rfl member outside
        exact (divides.isUndivided rfl).operators char found
      exact ⟨suffixed.exposedOperators_eq_nil usable (undivided _ List.mem_cons_self),
        applied.exposedOperators_eq_nil usable
          (undivided _ (List.mem_cons_of_mem _ List.mem_cons_self))⟩
  | suffix divides inFront =>
      rintro node ⟨⟩
      refine inFront.exposedOperators_eq_nil usable ?_
      intro char outside
      have found := divides.mem_exposed_of_piece usable rfl List.mem_cons_self outside
      exact (divides.isUndivided rfl).operators char found
  | brackets | list | constant | number =>
      rintro node ⟨⟩
      trivial

theorem not_list_of_piece (usable : tables.Unambiguous) {division : Division} {piece : Piece}
    (divides : Divides tables text division) (shown : division.hides = false)
    (single : ∀ pieces, division ≠ .items pieces) (member : piece ∈ division.pieces)
    {items : List Expression} (reads : Reads tables piece.chars (some (.list items))) : False :=
  divides.undivided single
    (divides.mem_exposed_of_piece usable shown member (reads.separator_mem_exposed usable items rfl))

theorem keepsListsInBrackets (usable : tables.Unambiguous) (reads : Reads tables text tree) :
    ∀ node ∈ tree, node.KeepsListsInBrackets := by
  induction reads with
  | nothing =>
      intro node member
      cases member
  | brackets =>
      rintro node ⟨⟩ items member
      rw [List.mem_singleton.mp member]
      exact ⟨_, rfl⟩
  | list several items every =>
      rintro node ⟨⟩ inner member
      obtain ⟨reading, present, same⟩ := List.mem_filterMap.mp member
      have divided := (every reading present).separator_mem_exposed usable inner same
      exact absurd divided (items reading present).undivided
  | positive _ _ ih => exact ih
  | negative divides behind =>
      rintro node ⟨⟩ items member
      rw [← List.mem_singleton.mp member] at behind
      exact (not_list_of_piece usable divides rfl (fun _ => nofun) List.mem_cons_self behind).elim
  | operator divides first second =>
      rintro node ⟨⟩ items member
      rcases List.mem_cons.mp member with same | member
      · rw [← same] at first
        exact (not_list_of_piece usable divides rfl (fun _ => nofun) List.mem_cons_self first).elim
      · rw [← List.mem_singleton.mp member] at second
        exact (not_list_of_piece usable divides rfl (fun _ => nofun)
          (List.mem_cons_of_mem _ List.mem_cons_self) second).elim
  | function divides suffixed applied =>
      rintro node ⟨⟩ items member
      rcases List.mem_append.mp member with same | same
      · rw [Option.mem_toList.mp same] at suffixed
        exact (not_list_of_piece usable divides rfl (fun _ => nofun) List.mem_cons_self
          suffixed).elim
      · rw [Option.mem_toList.mp same] at applied
        exact (not_list_of_piece usable divides rfl (fun _ => nofun)
          (List.mem_cons_of_mem _ List.mem_cons_self) applied).elim
  | suffix divides inFront =>
      rintro node ⟨⟩ items member
      rw [Option.mem_toList.mp member] at inFront
      exact (not_list_of_piece usable divides rfl (fun _ => nofun) List.mem_cons_self inFront).elim
  | constant | number =>
      rintro node ⟨⟩ items member
      cases member

/-! ### All nodes -/

theorem exists_of_mem_children (reads : Reads tables text tree) :
    ∀ node ∈ tree, ∀ child ∈ node.children, ∃ inner, Reads tables inner (some child) := by
  induction reads with
  | nothing =>
      intro node member
      cases member
  | brackets _ inside =>
      rintro node ⟨⟩ child member
      exact ⟨_, List.mem_singleton.mp member ▸ inside⟩
  | list several items every =>
      rintro node ⟨⟩ child member
      obtain ⟨reading, present, same⟩ := List.mem_filterMap.mp member
      exact ⟨reading.1, same ▸ every reading present⟩
  | positive _ _ ih => exact ih
  | negative _ behind =>
      rintro node ⟨⟩ child member
      exact ⟨_, List.mem_singleton.mp member ▸ behind⟩
  | operator _ first second =>
      rintro node ⟨⟩ child member
      rcases List.mem_cons.mp member with same | member
      · exact ⟨_, same ▸ first⟩
      · exact ⟨_, List.mem_singleton.mp member ▸ second⟩
  | function _ suffixed applied =>
      rintro node ⟨⟩ child member
      rcases List.mem_append.mp member with same | same
      · exact ⟨_, Option.mem_toList.mp same ▸ suffixed⟩
      · exact ⟨_, Option.mem_toList.mp same ▸ applied⟩
  | suffix _ inFront =>
      rintro node ⟨⟩ child member
      exact ⟨_, Option.mem_toList.mp member ▸ inFront⟩
  | constant | number =>
      rintro node ⟨⟩ child member
      cases member

theorem exists_of_occurs {node whole : Expression} (occurs : node.Occurs whole) :
    ∀ text, Reads tables text (some whole) → ∃ inner, Reads tables inner (some node) := by
  induction occurs with
  | here => exact fun text reads => ⟨text, reads⟩
  | under member _ ih =>
      intro text reads
      obtain ⟨inner, below⟩ := reads.exists_of_mem_children _ rfl _ member
      exact ih inner below

end Reads

namespace Expression

/-- Every node of a built tree respects the priorities of the operators, and only
brackets have a list directly under them. -/
theorem priorities_of_build (valid : tables.validate = .ok ()) {text : String} {tree : Expression}
    (built : build tables text = .ok tree) :
    ∀ node : Expression, node.Occurs tree →
      node.RespectsPriorities tables ∧ node.KeepsListsInBrackets := by
  intro node occurs
  have usable := tables.validate_eq_ok_iff.mp valid
  obtain ⟨inner, reads⟩ := Reads.exists_of_occurs occurs _ ((build_eq_ok_iff usable).mp built)
  exact ⟨reads.respectsPriorities usable node rfl, reads.keepsListsInBrackets usable node rfl⟩

set_option maxRecDepth 4000 in
theorem priorities_of_build_difference :
    SymbolTables.standard.validate = .ok () ∧
      build SymbolTables.standard "1-2-3" =
        .ok (.operator '-' (.operator '-' (.number "1") (.number "2")) (.number "3")) ∧
      RespectsPriorities SymbolTables.standard
        (.operator '-' (.operator '-' (.number "1") (.number "2")) (.number "3")) := by
  have built : build SymbolTables.standard "1-2-3" =
      .ok (.operator '-' (.operator '-' (.number "1") (.number "2")) (.number "3")) := by cbv
  exact ⟨rfl, built, (priorities_of_build rfl built _ .here).1⟩

end Expression
end DecimalCalculator
