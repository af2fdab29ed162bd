/-
What literals evaluate to.

The reader of numbers accepts the numerals with a narrow scale, and reports every other
text as it stands.  The builder lets only numerals without signs into a tree, so a literal
of a tree has the value that is written, unless its scale is no 32-bit word.  It counts digits
and points in signed 32-bit words and gives up where these do not suffice.
-/

import Mathlib
import DecimalCalculator.Evaluation.Standard
import DecimalCalculator.Evaluation.Walk
import DecimalCalculator.Proofs.Expression.Literals
import DecimalCalculator.Proofs.Expression.Precedence

namespace DecimalCalculator

/-! ### Literals in trees -/

namespace Reads

theorem isLiteral {tables : SymbolTables} {text : List Char} {tree : Option Expression}
    (reads : Reads tables text tree) :
    ∀ literal, tree = some (.number literal) → Literal.isLiteral literal.toList = true := by
  induction reads with
  | positive _ _ ih => exact ih
  | number _ literal =>
      rintro _ ⟨⟩
      rw [String.toList_ofList]
      exact literal
  | _ =>
      intro literal impossible
      cases impossible

end Reads

namespace Expression

end Expression

namespace Evaluation

open Decimal

variable {text : String}

/-! ### Numerals -/

theorem ofText?_eq_of_numeral (short : text.length < 2 ^ 62) {numeral : Numeral}
    (written : numeral.chars = text.toList) :
    ofText? text = if numeral.IsNarrow then some numeral.number else none := by
  have places := numeral.length_places_le
  rw [written, String.length_toList] at places
  rw [ofText?, ← written, numeral.ofChars?_chars (places.trans_lt short)]

theorem literalValue_eq_of_numeral (short : text.length < 2 ^ 62) {numeral : Numeral}
    (written : numeral.chars = text.toList) :
    literalValue text =
      if numeral.IsNarrow then .ok (.scalar numeral.number) else .error (.malformedNumber text) := by
  by_cases narrow : numeral.IsNarrow
  · rw [literalValue, ofText?_eq_of_numeral short written, if_pos narrow, if_pos narrow]
  · rw [literalValue, ofText?_eq_of_numeral short written, if_neg narrow, if_neg narrow]

theorem ofText?_eq_some_iff (short : text.length < 2 ^ 62) {number : Decimal} :
    ofText? text = some number ↔
      ∃ numeral : Numeral, numeral.chars = text.toList ∧ numeral.IsNarrow ∧
        numeral.number = number :=
  Numeral.ofChars?_eq_some_iff (String.length_toList ▸ short)

/-- A text is read exactly if it is a numeral whose scale is a signed 32-bit word, and then as
the number that is written.  Every other text is reported as it stands. -/
theorem literalValue_accepts_numerals (text : String) (short : text.length < 2 ^ 62) :
    (∀ number, ofText? text = some number ↔
        ∃ numeral : Numeral, numeral.chars = text.toList ∧ numeral.IsNarrow ∧
          number.unscaled = numeral.unscaled ∧ number.scale.toInt = numeral.scale) ∧
      (∀ numeral : Numeral, numeral.chars = text.toList → numeral.IsNarrow →
        literalValue text = .ok (.scalar ⟨numeral.unscaled, Int64.ofInt numeral.scale⟩)) ∧
      ((¬∃ numeral : Numeral, numeral.chars = text.toList ∧ numeral.IsNarrow) →
        ofText? text = none ∧ literalValue text = .error (.malformedNumber text)) := by
  refine ⟨fun number => ?_, fun numeral written narrow => ?_, fun refused => ?_⟩
  · rw [ofText?_eq_some_iff short]
    constructor
    · rintro ⟨numeral, written, narrow, rfl⟩
      exact ⟨numeral, written, narrow, rfl, narrow.toInt_scale⟩
    · rintro ⟨numeral, written, narrow, unscaled, scale⟩
      refine ⟨numeral, written, narrow, ?_⟩
      rw [Numeral.number, ← unscaled, ← scale, Int64.ofInt_toInt]
  · rw [literalValue_eq_of_numeral short written, if_pos narrow]
    rfl
  · have none : ofText? text = none := by
      rw [Option.eq_none_iff_forall_ne_some]
      intro number read
      obtain ⟨numeral, written, narrow, -⟩ := (ofText?_eq_some_iff short).mp read
      exact refused ⟨numeral, written, narrow⟩
    exact ⟨none, by rw [literalValue, none]⟩

/-- -.5E+03 is -5 with the scale 1 - 3; the exponent of the other text leaves no 32-bit word
for the scale. -/
theorem literalValue_accepts_numerals_with_exponents :
    "-.5E+03".length < 2 ^ 62 ∧ ofText? "-.5E+03" = some ⟨-5, -2⟩ ∧
      (∃ numeral : Numeral, numeral.chars = "-.5E+03".toList ∧ numeral.IsNarrow ∧
        numeral.unscaled = -5 ∧ numeral.scale = -2 ∧
        literalValue "-.5E+03" = .ok (.scalar ⟨numeral.unscaled, Int64.ofInt numeral.scale⟩)) ∧
      "1.e2147483649".length < 2 ^ 62 ∧
      literalValue "1.e2147483649" = .error (.malformedNumber "1.e2147483649") := by
  have short : "-.5E+03".length < 2 ^ 62 := by decide
  have short' : "1.e2147483649".length < 2 ^ 62 := by decide
  have known : ofText? "-.5E+03" = some ⟨-5, -2⟩ := by cbv
  have unknown : ofText? "1.e2147483649" = none := by cbv
  obtain ⟨read, value, -⟩ := literalValue_accepts_numerals "-.5E+03" short
  obtain ⟨read', -, refused⟩ := literalValue_accepts_numerals "1.e2147483649" short'
  obtain ⟨numeral, written, narrow, unscaled, scale⟩ := (read _).mp known
  refine ⟨short, known, ⟨numeral, written, narrow, unscaled.symm, scale.symm,
    value numeral written narrow⟩, short', (refused ?_).2⟩
  rintro ⟨wide, written, narrow⟩
  have found := (read' wide.number).mpr ⟨wide, written, narrow, rfl, narrow.toInt_scale⟩
  rw [unknown] at found
  cases found

end Evaluation
end DecimalCalculator
