/-
Round brackets around one operand of a built tree.

The text of the tree with the brackets reads as that tree: brackets hide what their
content exposes, so that operators around them stay the last ones, and the suffix of a
name has no operator whose operands could get brackets.
-/

import DecimalCalculator.Expression.Bracketing
import DecimalCalculator.Proofs.Expression.Registered
import DecimalCalculator.Proofs.Expression.RoundTrip

namespace DecimalCalculator

variable {tables : SymbolTables} {text : List Char} {optional : Option Expression}
  {tree other : Expression}

namespace Expression

theorem IsNumeral.not_differsInNode (numeral : tree.IsNumeral) :
    ¬tree.DiffersInNode BracketsOperand other := by
  induction numeral generalizing other with
  | literal text =>
      intro differs
      cases differs with
      | here replaced => cases replaced
  | bare symbol count =>
      intro differs
      cases differs with
      | here replaced => cases replaced
  | suffixed symbol count inner ih =>
      intro differs
      cases differs with
      | here replaced => cases replaced
      | suffix _ _ inside => exact ih inside

end Expression

open Expression (BracketsOperand)

theorem Divides.not_differsInNode (usable : tables.Unambiguous) {name : List Char}
    {nameSuffix operand : Piece}
    (divides : Divides tables text (.function name nameSuffix operand))
    (suffixed : Reads tables nameSuffix.chars (some tree)) :
    ¬tree.DiffersInNode BracketsOperand other := by
  refine Expression.IsNumeral.not_differsInNode (suffixed.isNumeral usable ?_ tree rfl)
  cases divides with
  | function _ _ _ _ taken =>
      rw [← taken]
      exact belongsToSuffix_of_mem_leadingSuffix

namespace Reads

theorem standsFor_of_differs (usable : tables.Unambiguous) {opening closing : Char}
    (registered : ⟨opening, closing, roundBrackets⟩ ∈ tables.brackets)
    (reads : Reads tables text optional) :
    ∀ tree ∈ optional, ∀ other, tree.DiffersInNode BracketsOperand other →
      StandsForOperand tables (some other) text := by
  induction reads with
  | nothing => exact fun _ absent => nomatch absent
  | brackets divides reads content =>
      intro tree same other differs
      cases same
      cases differs with
      | here replaced => cases replaced
      | brackets _ inside =>
          have stands := content _ rfl _ inside
          exact .brackets usable divides (reads.isBalanced usable) stands.toStandsFor
  | @list first others several items every readings =>
      intro tree same other differs
      cases same
      cases differs with
      | here replaced => cases replaced
      | @item item replacement _ _ before after inside whole result =>
          subst result
          have origin : ∀ node ∈ before ++ item :: after,
              ∃ reading ∈ first :: others, reading.2 = some node := by
            intro node member
            rw [← whole] at member
            exact List.mem_filterMap.mp member
          have unchanged : ∀ node ∈ before ++ item :: after,
              ∃ reading ∈ first :: others, StandsFor tables (some node) reading.1 := by
            intro node member
            obtain ⟨reading, among, same⟩ := origin node member
            exact ⟨reading, among, same ▸ ((every reading among).standsFor usable).toStandsFor⟩
          have changed : ∃ reading ∈ first :: others,
              StandsFor tables (some replacement) reading.1 := by
            obtain ⟨reading, among, same⟩ :=
              origin item (List.mem_append_right _ List.mem_cons_self)
            have stands := readings reading among item same replacement inside
            exact ⟨reading, among, stands.toStandsFor⟩
          rw [List.forall_mem_append, List.forall_mem_cons] at unchanged
          apply StandsForOperand.list usable several items
          rw [List.forall_mem_append, List.forall_mem_cons]
          exact ⟨unchanged.1, changed, unchanged.2.2⟩
  | positive divides _ behind =>
      intro tree same other differs
      exact .positive usable divides (behind tree same other differs).toStandsFor
  | negative divides operand behind =>
      intro tree same other differs
      cases same
      cases differs with
      | here replaced =>
          cases replaced with
          | negative =>
              have stands := (operand.standsFor usable).toStandsFor
              exact .negative divides (stands.enclosed usable registered)
      | negative inside => exact .negative divides (behind _ rfl _ inside).toStandsFor
  | operator divides left right first second =>
      intro tree same other differs
      cases same
      have leftStands := (left.standsFor usable).toStandsFor
      have rightStands := (right.standsFor usable).toStandsFor
      cases differs with
      | here replaced =>
          cases replaced with
          | left => exact .operator divides (leftStands.enclosed usable registered) rightStands
          | right => exact .operator divides leftStands (rightStands.enclosed usable registered)
      | left _ _ inside =>
          exact .operator divides (first _ rfl _ inside).toStandsFor rightStands
      | right _ _ inside =>
          exact .operator divides leftStands (second _ rfl _ inside).toStandsFor
  | constant | number =>
      intro tree same other differs
      cases same
      cases differs with
      | here replaced => cases replaced
  | function divides suffixed _ _ applied =>
      intro tree same other differs
      cases same
      cases differs with
      | here replaced => cases replaced
      | functionSuffix _ _ inside => exact absurd inside (divides.not_differsInNode usable suffixed)
      | functionOperand _ _ inside =>
          exact .function usable divides suffixed (applied _ rfl _ inside)
  | suffix divides _ inFront =>
      intro tree same other differs
      cases same
      cases differs with
      | here replaced => cases replaced
      | suffix _ _ inside => exact .suffix usable divides (inFront _ rfl _ inside)

end Reads

namespace Expression

theorem build_render_of_differs (usable : tables.Unambiguous) {opening closing : Char}
    (registered : ⟨opening, closing, roundBrackets⟩ ∈ tables.brackets) {text : String}
    (built : build tables text = .ok tree) (differs : tree.DiffersInNode BracketsOperand other) :
    build tables (other.render tables) = .ok other := by
  have reads := (build_eq_ok_iff usable).mp built
  rw [build_eq_ok_iff usable, render, String.toList_ofList]
  exact (reads.standsFor_of_differs usable registered tree rfl other differs).reads

end Expression
end DecimalCalculator
