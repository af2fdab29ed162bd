/-
Written numbers are read back.

A number without sign and with a scale that is not negative is written as a run of
digits, with a point in it if there are digits behind the point.  Such a text is a
literal, and the number that it stands for keeps the written digits and their places.
-/

import Mathlib
import DecimalCalculator.Proofs.Expression.Literals

namespace DecimalCalculator

/-- Digits and, if there are digits behind the point, the point and these. -/
def positional (whole fraction : List Char) : List Char :=
  if fraction = [] then whole else whole ++ '.' :: fraction

/-- Digits before a point, at least one, and any number of digits behind it. -/
structure ArePlaces (whole fraction : List Char) : Prop where
  nonempty : whole ≠ []
  whole : ∀ char ∈ whole, char.isDigit = true
  fraction : ∀ char ∈ fraction, char.isDigit = true

namespace ArePlaces

variable {whole fraction : List Char}

theorem of_digits {digits : List Char} {size : Nat}
    (every : ∀ char ∈ digits, char.isDigit = true) (long : size < digits.length) :
    ArePlaces (digits.take (digits.length - size)) (digits.drop (digits.length - size)) := by
  refine ⟨?_, fun char member => every char (List.mem_of_mem_take member),
    fun char member => every char (List.mem_of_mem_drop member)⟩
  rw [← List.length_pos_iff, List.length_take]
  omega

theorem exists_mantissa (places : ArePlaces whole fraction) :
    ∃ mantissa : Mantissa, mantissa.chars = positional whole fraction ∧
      mantissa.whole.chars = whole ∧ mantissa.places = fraction := by
  have nonempty : whole ++ fraction ≠ [] := List.append_ne_nil_of_left_ne_nil places.nonempty _
  cases fraction with
  | nil => exact ⟨⟨⟨whole, places.whole⟩, none, nonempty⟩, List.append_nil whole, rfl, rfl⟩
  | cons digit rest =>
      exact ⟨⟨⟨whole, places.whole⟩, some ⟨digit :: rest, places.fraction⟩, nonempty⟩, rfl, rfl, rfl⟩

theorem mem_positional (places : ArePlaces whole fraction) :
    ∀ char ∈ positional whole fraction, char.isDigit = true ∨ char = '.' := by
  obtain ⟨mantissa, written, -⟩ := places.exists_mantissa
  exact written ▸ mantissa.isDigit_or_point_of_mem_chars

theorem positional_ne_nil (places : ArePlaces whole fraction) :
    positional whole fraction ≠ [] := by
  obtain ⟨mantissa, written, -⟩ := places.exists_mantissa
  exact written ▸ mantissa.chars_ne_nil

theorem isDigit_head? (places : ArePlaces whole fraction) :
    ∀ char ∈ (positional whole fraction).head?, char.isDigit = true := by
  intro char first
  obtain ⟨digit, rest, rfl⟩ := List.exists_cons_of_ne_nil places.nonempty
  have same : (positional (digit :: rest) fraction).head? = some digit := by
    unfold positional
    split
    · rfl
    · rfl
  rw [same, Option.mem_some_iff] at first
  exact first ▸ places.whole digit List.mem_cons_self

theorem isDigit_getLast? (places : ArePlaces whole fraction) :
    ∀ char ∈ (positional whole fraction).getLast?, char.isDigit = true := by
  intro char last
  unfold positional at last
  split at last
  · exact places.whole char (List.mem_of_getLast? last)
  · rename_i nonempty
    obtain ⟨digit, rest, rfl⟩ := List.exists_cons_of_ne_nil nonempty
    rw [List.getLast?_append, List.getLast?_cons_cons] at last
    have among : char ∈ (digit :: rest).getLast? := by
      simpa [List.getLast?_cons] using last
    exact places.fraction char (List.mem_of_getLast? among)

/-! ### Reading -/

theorem splitPoint_positional (places : ArePlaces whole fraction) :
    (positional whole fraction).takeWhile (· != '.') = whole ∧
      ((positional whole fraction).dropWhile (· != '.')).drop 1 = fraction := by
  obtain ⟨mantissa, written, before, behind⟩ := places.exists_mantissa
  rw [← written, ← before, ← behind]
  exact mantissa.splitPoint_chars

theorem exists_numeral (places : ArePlaces whole fraction) (sign : Signing) :
    ∃ numeral : Numeral, numeral.chars = sign.chars ++ positional whole fraction ∧
      numeral.mantissa.places = fraction ∧ numeral.scale = fraction.length ∧
      numeral.unscaled = sign.apply (Nat.ofDigitChars 10 (whole ++ fraction) 0) := by
  obtain ⟨mantissa, written, before, behind⟩ := places.exists_mantissa
  refine ⟨⟨sign, mantissa, none⟩, ?_, behind, ?_, ?_⟩
  · rw [Numeral.chars, Option.elim_none, List.append_nil, written]
  · rw [Numeral.scale, behind]
    exact Int.sub_zero _
  · rw [Numeral.unscaled, Mantissa.size, before, behind]

theorem isLiteral (places : ArePlaces whole fraction) :
    Literal.isLiteral (positional whole fraction) = true := by
  obtain ⟨numeral, written, -⟩ := places.exists_numeral .unsigned
  have same : numeral.chars = positional whole fraction := written
  rw [← same]
  refine Literal.isLiteral_chars numeral fun char member => ?_
  rw [same] at member
  rcases places.mem_positional char member with digit | rfl
  · exact isUnsigned_of_isDigit digit
  · exact ⟨by decide, by decide⟩

theorem ofChars?_signed (places : ArePlaces whole fraction) (sign : Signing)
    (short : fraction.length < 2 ^ 31) :
    Decimal.ofChars? (sign.chars ++ positional whole fraction) =
      some ⟨sign.apply (Nat.ofDigitChars 10 (whole ++ fraction) 0), Int64.ofNat fraction.length⟩ := by
  obtain ⟨numeral, written, behind, scale, unscaled⟩ := places.exists_numeral sign
  have narrow : numeral.IsNarrow := by
    rw [Numeral.IsNarrow, scale]
    constructor
    · omega
    · omega
  rw [← written, numeral.ofChars?_chars (by rw [behind]; omega), if_pos narrow, Numeral.number,
    scale, unscaled, Int64.ofInt_eq_ofNat]

theorem ofChars?_positional (places : ArePlaces whole fraction)
    (short : fraction.length < 2 ^ 31) :
    Decimal.ofChars? (positional whole fraction) =
      some ⟨Nat.ofDigitChars 10 (whole ++ fraction) 0, Int64.ofNat fraction.length⟩ :=
  places.ofChars?_signed .unsigned short

end ArePlaces

/-! ### Writing -/

namespace Decimal

variable {number : Decimal}

theorem toChars_eq_append_abs (number : Decimal) :
    number.toChars = (if number.isNegative then ['-'] else []) ++ number.abs.toChars := by
  by_cases zero : number.unscaled = 0
  · obtain ⟨unscaled, scale⟩ := number
    cases zero
    rfl
  · have unsigned : number.abs.isNegative = false := by
      rw [isNegative, decide_eq_false_iff_not, Int.not_lt]
      exact Int.natCast_nonneg _
    have nonzero : number.abs.unscaled ≠ 0 := by
      rw [abs, Ne, Int.natCast_eq_zero, Int.natAbs_eq_zero]
      exact zero
    have digits : number.abs.unscaled.natAbs = number.unscaled.natAbs := Int.natAbs_natCast _
    have scale : number.abs.scale = number.scale := rfl
    simp only [toChars, zero, nonzero, unsigned, digits, scale, false_and, if_false]
    split
    · rw [List.append_assoc]
      rfl
    · rw [List.append_assoc]
      rfl

theorem exists_places (unsigned : 0 ≤ number.unscaled) (fractional : 0 ≤ number.scale) :
    ∃ whole fraction, ArePlaces whole fraction ∧ number.toChars = positional whole fraction ∧
      fraction.length = number.scale.toNatClampNeg ∧
      Nat.ofDigitChars 10 (whole ++ fraction) 0 = number.unscaled.natAbs := by
  have written := Digits.written_eq_toDigits number.unscaled.natAbs
  have digits : ∀ char ∈ Nat.toDigits 10 number.unscaled.natAbs, char.isDigit = true :=
    fun char member => Nat.isDigit_of_mem_toDigits (by decide) (by decide) member
  have value := Nat.ofDigitChars_toDigits (b := 10) (n := number.unscaled.natAbs)
    (by decide) (by decide)
  have plus : number.isNegative = false := by
    rw [isNegative, decide_eq_false_iff_not]
    exact Int.not_lt.mpr unsigned
  by_cases integer : number.scale ≤ 0
  · have none : number.scale = 0 := Int64.le_antisymm integer fractional
    refine ⟨Nat.toDigits 10 number.unscaled.natAbs, [],
      ⟨Nat.toDigits_ne_nil, digits, fun _ absent => nomatch absent⟩, ?_, ?_, ?_⟩
    · by_cases zero : number.unscaled = 0
      · rw [toChars, if_pos ⟨zero, integer⟩, zero]
        rfl
      · rw [toChars, if_neg fun both => zero both.1, written, plus, if_pos integer, none]
        exact List.append_nil _
    · rw [none]
      rfl
    · rw [List.append_nil]
      exact value
  · have behind : 0 < number.scale.toNatClampNeg := by
      rw [← Int64.toNat_toInt, Int.lt_toNat]
      exact Int64.lt_iff_toInt_lt.mp (Int64.not_le.mp integer)
    let run := Nat.toDigits 10 number.unscaled.natAbs
    let padded := List.replicate (number.scale.toNatClampNeg + 1 - run.length) '0' ++ run
    have long : number.scale.toNatClampNeg < padded.length := by
      simp only [padded, List.length_append, List.length_replicate]
      omega
    have every : ∀ char ∈ padded, char.isDigit = true := by
      intro char member
      rcases List.mem_append.mp member with zero | digit
      · rw [List.eq_of_mem_replicate zero]
        rfl
      · exact digits char digit
    have length : (padded.drop (padded.length - number.scale.toNatClampNeg)).length =
        number.scale.toNatClampNeg := by
      rw [List.length_drop]
      omega
    have pointed : padded.drop (padded.length - number.scale.toNatClampNeg) ≠ [] := by
      rw [← List.length_pos_iff, length]
      exact behind
    refine ⟨_, _, .of_digits every long, ?_, length, ?_⟩
    · rw [toChars, if_neg fun both => integer both.2, written, plus, if_neg integer, positional,
        if_neg pointed]
      rfl
    · rw [List.take_append_drop, Nat.ofDigitChars_append, Nat.ofDigitChars_replicate_zero,
        Nat.mul_zero]
      exact value

/-! ### Numbers that are written alike -/

theorem isDigit_head?_toChars_abs (fractional : 0 ≤ number.scale) :
    ∀ char ∈ number.abs.toChars.head?, char.isDigit = true := by
  obtain ⟨whole, fraction, places, written, _⟩ :=
    number.abs.exists_places (Int.natCast_nonneg _) fractional
  rw [written]
  exact places.isDigit_head?

theorem isNegative_iff_head?_toChars (fractional : 0 ≤ number.scale) :
    number.isNegative = true ↔ number.toChars.head? = some '-' := by
  rw [toChars_eq_append_abs]
  cases negative : number.isNegative with
  | true => exact iff_of_true rfl rfl
  | false =>
      apply iff_of_false Bool.false_ne_true
      intro minus
      have digit := isDigit_head?_toChars_abs fractional '-' minus
      exact absurd digit (by decide)

theorem abs_eq_of_toChars_abs_eq {left right : Decimal} (leftFractional : 0 ≤ left.scale)
    (rightFractional : 0 ≤ right.scale) (same : left.abs.toChars = right.abs.toChars) :
    left.abs = right.abs := by
  obtain ⟨whole, fraction, places, written, length, size⟩ :=
    left.abs.exists_places (Int.natCast_nonneg _) leftFractional
  obtain ⟨whole', fraction', places', written', length', size'⟩ :=
    right.abs.exists_places (Int.natCast_nonneg _) rightFractional
  rw [written, written'] at same
  have wholes : whole = whole' := by
    rw [← places.splitPoint_positional.1, ← places'.splitPoint_positional.1, same]
  have fractions : fraction = fraction' := by
    rw [← places.splitPoint_positional.2, ← places'.splitPoint_positional.2, same]
  have scales : left.scale = right.scale := by
    rw [← Int64.ofNat_toNatClampNeg left.scale leftFractional,
      ← Int64.ofNat_toNatClampNeg right.scale rightFractional]
    exact congrArg Int64.ofNat (length.symm.trans ((congrArg List.length fractions).trans length'))
  have sizes : left.unscaled.natAbs = right.unscaled.natAbs := by
    rw [wholes, fractions, size'] at size
    exact size.symm
  rw [abs, abs, scales, sizes]

/-- Numbers that need no zeros behind their digits are written alike only if they are the
same. -/
theorem toChars_injective {left right : Decimal} (leftFractional : 0 ≤ left.scale)
    (rightFractional : 0 ≤ right.scale) (same : left.toChars = right.toChars) : left = right := by
  have signs : left.isNegative = right.isNegative := by
    rw [Bool.eq_iff_iff, isNegative_iff_head?_toChars leftFractional,
      isNegative_iff_head?_toChars rightFractional, same]
  rw [toChars_eq_append_abs left, toChars_eq_append_abs right, signs,
    List.append_cancel_left_eq] at same
  have sizes := abs_eq_of_toChars_abs_eq leftFractional rightFractional same
  rw [abs, abs, Decimal.mk.injEq, Int.natCast_inj] at sizes
  have sides : left.unscaled < 0 ↔ right.unscaled < 0 := by
    rw [isNegative, isNegative, decide_eq_decide] at signs
    exact signs
  have unscaled : left.unscaled = right.unscaled := by omega
  exact Decimal.mk.injEq .. ▸ ⟨unscaled, sizes.2⟩

def isNumeric (char : Char) : Bool :=
  char.isDigit || char == '.' || char == '-'

theorem isNumeric_of_mem_toChars (fractional : 0 ≤ number.scale) :
    ∀ char ∈ number.toChars, isNumeric char = true := by
  obtain ⟨whole, fraction, places, written, _⟩ :=
    number.abs.exists_places (Int.natCast_nonneg _) fractional
  intro char member
  rw [toChars_eq_append_abs, written, List.mem_append] at member
  rw [isNumeric, Bool.or_eq_true, Bool.or_eq_true, beq_iff_eq, beq_iff_eq]
  cases member with
  | inl sign =>
      split at sign
      · exact Or.inr (List.mem_singleton.mp sign)
      · cases sign
  | inr place => exact Or.inl (places.mem_positional char place)

theorem toChars_ne_nil (fractional : 0 ≤ number.scale) : number.toChars ≠ [] := by
  obtain ⟨whole, fraction, places, written, _⟩ :=
    number.abs.exists_places (Int.natCast_nonneg _) fractional
  rw [toChars_eq_append_abs, written]
  exact List.append_ne_nil_of_right_ne_nil _ places.positional_ne_nil

end Decimal
end DecimalCalculator
