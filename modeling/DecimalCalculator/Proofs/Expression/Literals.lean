/-
Literals are the numerals without signs.

The literals of expressions are told by what characters they have and how often, numerals
by the parts that they are put together from.  Where no sign stands, both are the same.
-/

import Mathlib
import DecimalCalculator.Expression.Defects
import DecimalCalculator.Expression.Literal
import DecimalCalculator.Proofs.Decimal.Numerals

namespace DecimalCalculator

/-! ### Mantissas -/

namespace Mantissa

theorem any_isDigit (mantissa : Mantissa) : mantissa.chars.any Char.isDigit = true := by
  obtain ⟨digit, rest, begins⟩ := List.exists_cons_of_ne_nil mantissa.nonempty
  have among : digit ∈ mantissa.whole.chars ++ mantissa.places := begins ▸ List.mem_cons_self
  rw [List.any_eq_true]
  refine ⟨digit, ?_, mantissa.isDigit_of_mem_digits digit among⟩
  rcases List.mem_append.mp among with before | behind
  · exact List.mem_append_left _ before
  · refine List.mem_append_right _ ?_
    rw [places] at behind
    cases pointed : mantissa.fraction with
    | none =>
        rw [pointed] at behind
        cases behind
    | some run =>
        rw [pointed] at behind
        exact List.mem_cons_of_mem _ behind

theorem count_point (mantissa : Mantissa) : mantissa.chars.count '.' ≤ 1 := by
  have pointless (run : DigitRun) : run.chars.count '.' = 0 :=
    List.count_eq_zero.mpr fun member => ne_point_of_isDigit (run.digits _ member) rfl
  rw [chars, List.count_append, pointless, Nat.zero_add]
  cases mantissa.fraction with
  | none => exact Nat.zero_le 1
  | some run => rw [Option.elim_some, List.count_cons_self, pointless]

end Mantissa

namespace Literal

theorem isMantissa_iff {chars : List Char} :
    isMantissa chars = true ↔ ∃ mantissa : Mantissa, mantissa.chars = chars := by
  constructor
  · intro counted
    rw [isMantissa, Bool.and_eq_true, Bool.and_eq_true, List.all_eq_true, List.any_eq_true,
      decide_eq_true_eq] at counted
    obtain ⟨⟨allowed, some, member, isDigit⟩, once⟩ := counted
    have digits : ∀ char ∈ chars, char ≠ '.' → char.isDigit = true := by
      intro char among other
      have either := allowed char among
      rw [isMantissaChar, Bool.or_eq_true, beq_iff_eq] at either
      exact either.resolve_right other
    by_cases pointed : '.' ∈ chars
    · obtain ⟨front, rest, rfl⟩ := List.append_of_mem pointed
      rw [List.count_append, List.count_cons_self] at once
      have before : '.' ∉ front := List.count_eq_zero.mp (by omega)
      have behind : '.' ∉ rest := List.count_eq_zero.mp (by omega)
      have whole : ∀ char ∈ front, char.isDigit = true := fun char among =>
        digits char (List.mem_append_left _ among) fun same => before (same ▸ among)
      have fraction : ∀ char ∈ rest, char.isDigit = true := fun char among =>
        digits char (List.mem_append_right _ (List.mem_cons_of_mem _ among))
          fun same => behind (same ▸ among)
      have nonempty : front ++ rest ≠ [] := by
        intro empty
        obtain ⟨rfl, rfl⟩ := List.append_eq_nil_iff.mp empty
        exact ne_point_of_isDigit isDigit (List.mem_singleton.mp member)
      exact ⟨⟨⟨front, whole⟩, .some ⟨rest, fraction⟩, nonempty⟩, rfl⟩
    · have whole : ∀ char ∈ chars, char.isDigit = true := fun char among =>
        digits char among fun same => pointed (same ▸ among)
      have nonempty : chars ++ [] ≠ [] := List.append_ne_nil_of_left_ne_nil
        (List.ne_nil_of_mem member) _
      exact ⟨⟨⟨chars, whole⟩, none, nonempty⟩, List.append_nil _⟩
  · rintro ⟨mantissa, rfl⟩
    have allowed : ∀ char ∈ mantissa.chars, isMantissaChar char = true := by
      intro char member
      rw [isMantissaChar, Bool.or_eq_true, beq_iff_eq]
      exact mantissa.isDigit_or_point_of_mem_chars char member
    rw [isMantissa, List.all_eq_true.mpr allowed, mantissa.any_isDigit,
      decide_eq_true mantissa.count_point]
    rfl

theorem isDecimalLiteral {chars : List Char} (literal : isLiteral chars = true) :
    IsDecimalLiteral chars := by
  rw [isLiteral, Bool.and_eq_true, isMantissa_iff] at literal
  obtain ⟨⟨mantissa, front⟩, exponent⟩ := literal
  have together :=
    List.takeWhile_append_dropWhile (p := (!Decimal.isExponentMark ·)) (l := chars)
  rcases dropWhile_cases (!Decimal.isExponentMark ·) chars with
    none | ⟨mark, digits, behind, isMark⟩
  · refine ⟨⟨.unsigned, mantissa, .none⟩, ?_, rfl, fun part absent => nomatch absent⟩
    rw [none, ← front] at together
    exact together
  · rw [behind, isExponent, Bool.and_eq_true, Bool.not_eq_true', List.isEmpty_eq_false_iff,
      List.all_eq_true] at exponent
    rw [Bool.not_eq_false', isExponentMark_iff] at isMark
    refine ⟨⟨.unsigned, mantissa, some ⟨mark, isMark, .unsigned, ⟨digits, exponent.2⟩,
      exponent.1⟩⟩, ?_, rfl, fun part same => Option.some.inj same ▸ rfl⟩
    rw [behind, ← front] at together
    exact together

theorem exists_numeral {chars : List Char} (literal : isLiteral chars = true) :
    ∃ numeral : Numeral, numeral.chars = chars :=
  (isDecimalLiteral literal).imp fun _ conditions => conditions.1

theorem isLiteral_chars (numeral : Numeral) (unsigned : ∀ char ∈ numeral.chars, IsUnsigned char) :
    isLiteral numeral.chars = true := by
  have plain : numeral.chars =
      numeral.mantissa.chars ++ numeral.exponentPart.elim [] ExponentPart.chars := by
    rw [Numeral.chars, numeral.sign.chars_eq_nil fun char member =>
      unsigned char (List.mem_append_left _ member), List.nil_append]
  obtain ⟨front, back⟩ := Numeral.splitMark numeral.mantissa numeral.exponentPart
  rw [plain, isLiteral, front, back, isMantissa_iff.mpr ⟨numeral.mantissa, rfl⟩, Bool.true_and]
  cases marked : numeral.exponentPart with
  | none => rfl
  | some part =>
      have inside : ∀ char ∈ part.sign.chars, IsUnsigned char := by
        intro char member
        refine unsigned char ?_
        rw [plain, marked]
        exact List.mem_append_right _ (List.mem_cons_of_mem _ (List.mem_append_left _ member))
      rw [Option.elim_some, ExponentPart.chars, part.sign.chars_eq_nil inside, List.nil_append,
        isExponent, List.isEmpty_eq_false_iff.mpr part.nonempty, List.all_eq_true.mpr part.run.digits]
      rfl

theorem isLiteral_iff_isDecimalLiteral {chars : List Char} :
    isLiteral chars = true ↔ IsDecimalLiteral chars := by
  refine ⟨isDecimalLiteral, ?_⟩
  rintro ⟨numeral, rfl, unsigned, exponents⟩
  refine isLiteral_chars numeral ?_
  intro char member
  rw [Numeral.chars, unsigned, Signing.chars, List.nil_append, List.mem_append] at member
  rcases member with inMantissa | inExponent
  · exact numeral.mantissa.isUnsigned_of_mem_chars char inMantissa
  · cases marked : numeral.exponentPart with
    | none =>
        rw [marked] at inExponent
        cases inExponent
    | some part =>
        rw [marked, Option.elim_some, ExponentPart.chars, exponents part marked, Signing.chars,
          List.nil_append] at inExponent
        rcases List.mem_cons.mp inExponent with rfl | digit
        · rcases part.isMark with same | same <;> rw [same] <;> exact ⟨by decide, by decide⟩
        · exact isUnsigned_of_isDigit (part.run.digits char digit)

end Literal
end DecimalCalculator
