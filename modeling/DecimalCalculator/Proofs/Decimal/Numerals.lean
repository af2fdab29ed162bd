/-
Reading accepts exactly the numerals.

The characters of a numeral are divided at the sign, the exponent mark and the point
into the parts that they were put together from.  The other way round, characters that
are read as a number are those of a numeral, so the grammar and the reader agree.
-/

import Mathlib
import DecimalCalculator.Decimal.Numeral
import DecimalCalculator.Proofs.Decimal.Rational

namespace DecimalCalculator

/-! ### Characters -/

theorem ne_point_of_isDigit {char : Char} (digit : char.isDigit = true) : char ≠ '.' := by
  rintro rfl
  exact absurd digit (by decide)

theorem isExponentMark_of_isDigit {char : Char} (digit : char.isDigit = true) :
    Decimal.isExponentMark char = false := by
  rw [Decimal.isExponentMark, Bool.or_eq_false_iff, beq_eq_false_iff_ne, beq_eq_false_iff_ne]
  constructor
  · rintro rfl
    exact absurd digit (by decide)
  · rintro rfl
    exact absurd digit (by decide)

theorem isExponentMark_iff {char : Char} :
    Decimal.isExponentMark char = true ↔ char = 'e' ∨ char = 'E' := by
  rw [Decimal.isExponentMark, Bool.or_eq_true, beq_iff_eq, beq_iff_eq]

theorem dropWhile_cases {α : Type} (inRun : α → Bool) (items : List α) :
    items.dropWhile inRun = [] ∨
      ∃ stop rest, items.dropWhile inRun = stop :: rest ∧ inRun stop = false := by
  cases behind : items.dropWhile inRun with
  | nil => exact Or.inl rfl
  | cons stop rest =>
      have ends := List.head?_dropWhile_not inRun items
      rw [behind, List.head?_cons] at ends
      exact Or.inr ⟨stop, rest, rfl, by simpa using ends⟩

/-! ### Signs -/

def IsUnsigned (char : Char) : Prop :=
  char ≠ '+' ∧ char ≠ '-'

theorem isUnsigned_of_isDigit {char : Char} (digit : char.isDigit = true) : IsUnsigned char := by
  constructor
  · rintro rfl
    exact absurd digit (by decide)
  · rintro rfl
    exact absurd digit (by decide)

namespace Signing

theorem splitSign_append (sign : Signing) {rest : List Char}
    (unsigned : ∀ char ∈ rest.head?, IsUnsigned char) :
    Decimal.splitSign (sign.chars ++ rest) = (sign.isMinus, rest) := by
  cases sign with
  | plus => rfl
  | minus => rfl
  | unsigned =>
      rw [chars, List.nil_append, isMinus]
      unfold Decimal.splitSign
      split
      · exact absurd rfl (unsigned '-' rfl).2
      · exact absurd rfl (unsigned '+' rfl).1
      · rfl

theorem exists_append_splitSign (chars : List Char) :
    ∃ sign : Signing, chars = sign.chars ++ (Decimal.splitSign chars).2 ∧
      (Decimal.splitSign chars).1 = sign.isMinus := by
  unfold Decimal.splitSign
  split
  · exact ⟨.minus, rfl, rfl⟩
  · exact ⟨.plus, rfl, rfl⟩
  · exact ⟨.unsigned, rfl, rfl⟩

theorem chars_eq_nil (sign : Signing) (plain : ∀ char ∈ sign.chars, IsUnsigned char) :
    sign.chars = [] := by
  cases sign with
  | unsigned => rfl
  | plus => exact absurd rfl (plain '+' List.mem_cons_self).1
  | minus => exact absurd rfl (plain '-' List.mem_cons_self).2

end Signing

/-! ### Digits and the point -/

theorem digitsValue?_of_digits {digits : List Char} (every : ∀ char ∈ digits, char.isDigit = true) :
    Decimal.digitsValue? digits = some (Nat.ofDigitChars 10 digits 0) := by
  rw [Decimal.digitsValue?, List.all_eq_true.mpr every, if_pos rfl]

theorem isDigit_of_digitsValue? {digits : List Char} {size : Nat}
    (read : Decimal.digitsValue? digits = some size) : ∀ char ∈ digits, char.isDigit = true := by
  rw [Decimal.digitsValue?] at read
  split at read
  · rename_i every
    exact List.all_eq_true.mp every
  · cases read

namespace Mantissa

theorem isDigit_of_mem_digits (mantissa : Mantissa) :
    ∀ char ∈ mantissa.whole.chars ++ mantissa.places, char.isDigit = true := by
  intro char member
  rcases List.mem_append.mp member with before | behind
  · exact mantissa.whole.digits char before
  · cases pointed : mantissa.fraction with
    | none =>
        rw [places, pointed] at behind
        cases behind
    | some run =>
        rw [places, pointed] at behind
        exact run.digits char behind

theorem isDigit_or_point_of_mem_chars (mantissa : Mantissa) :
    ∀ char ∈ mantissa.chars, char.isDigit = true ∨ char = '.' := by
  intro char member
  rcases List.mem_append.mp member with before | behind
  · exact Or.inl (mantissa.whole.digits char before)
  · cases pointed : mantissa.fraction with
    | none =>
        rw [pointed] at behind
        cases behind
    | some run =>
        rw [pointed] at behind
        rcases List.mem_cons.mp behind with point | digit
        · exact Or.inr point
        · exact Or.inl (run.digits char digit)

theorem isUnsigned_of_mem_chars (mantissa : Mantissa) : ∀ char ∈ mantissa.chars, IsUnsigned char := by
  intro char member
  rcases mantissa.isDigit_or_point_of_mem_chars char member with digit | rfl
  · exact isUnsigned_of_isDigit digit
  · exact ⟨by decide, by decide⟩

theorem chars_ne_nil (mantissa : Mantissa) : mantissa.chars ≠ [] := by
  intro empty
  obtain ⟨whole, behind⟩ := List.append_eq_nil_iff.mp empty
  have nonempty := mantissa.nonempty
  cases pointed : mantissa.fraction with
  | none =>
      rw [pointed, whole] at nonempty
      exact nonempty rfl
  | some run =>
      rw [pointed] at behind
      cases behind

theorem splitPoint_chars (mantissa : Mantissa) :
    mantissa.chars.takeWhile (· != '.') = mantissa.whole.chars ∧
      (mantissa.chars.dropWhile (· != '.')).drop 1 = mantissa.places := by
  have before : ∀ char ∈ mantissa.whole.chars, (char != '.') = true := by
    intro char member
    rw [bne_iff_ne]
    exact ne_point_of_isDigit (mantissa.whole.digits char member)
  rw [chars, places, List.takeWhile_append_of_pos before, List.dropWhile_append_of_pos before]
  cases mantissa.fraction with
  | none => exact ⟨List.append_nil _, rfl⟩
  | some run => exact ⟨List.append_nil _, rfl⟩

theorem exists_of_splitPoint {chars : List Char}
    (nonempty : chars.takeWhile (· != '.') ++ (chars.dropWhile (· != '.')).drop 1 ≠ [])
    (every : ∀ char ∈ chars.takeWhile (· != '.') ++ (chars.dropWhile (· != '.')).drop 1,
      char.isDigit = true) :
    ∃ mantissa : Mantissa, mantissa.chars = chars := by
  have before : ∀ char ∈ chars.takeWhile (· != '.'), char.isDigit = true :=
    fun char member => every char (List.mem_append_left _ member)
  have together := List.takeWhile_append_dropWhile (p := (· != '.')) (l := chars)
  rcases dropWhile_cases (· != '.') chars with none | ⟨point, rest, behind, isPoint⟩
  · rw [none] at nonempty together
    exact ⟨⟨⟨_, before⟩, .none, nonempty⟩, together⟩
  · have digits : ∀ char ∈ rest, char.isDigit = true := by
      rw [behind] at every
      exact fun char member => every char (List.mem_append_right _ member)
    rw [bne_eq_false_iff_eq] at isPoint
    rw [behind] at nonempty together
    rw [isPoint] at together
    exact ⟨⟨⟨_, before⟩, some ⟨rest, digits⟩, nonempty⟩, together⟩

end Mantissa

/-! ### Exponents -/

theorem Decimal.word?_eq_some_iff {size : Int} {word : Int64} :
    Decimal.word? size = some word ↔ word.toInt = size := by
  rw [Decimal.word?]
  split
  · rename_i fits
    rw [Option.some.injEq]
    constructor
    · rintro rfl
      exact Int64.toInt_ofInt_of_le fits.1 fits.2
    · rintro rfl
      exact Int64.ofInt_toInt word
  · rename_i leaves
    constructor
    · intro impossible
      cases impossible
    · rintro rfl
      exact absurd ⟨word.le_toInt, word.toInt_lt⟩ leaves

theorem Decimal.isWritableScale_iff {scale : Int64} :
    Decimal.isWritableScale scale = true ↔
      -2 ^ (31 : Nat) ≤ scale.toInt ∧ scale.toInt < 2 ^ (31 : Nat) := by
  rw [Decimal.isWritableScale, Bool.and_eq_true, decide_eq_true_eq, decide_eq_true_eq]

namespace Numeral

variable (mantissa : Mantissa) (part : Option ExponentPart)

theorem splitMark :
    (mantissa.chars ++ part.elim [] ExponentPart.chars).takeWhile (!Decimal.isExponentMark ·) =
        mantissa.chars ∧
      (mantissa.chars ++ part.elim [] ExponentPart.chars).dropWhile (!Decimal.isExponentMark ·) =
        part.elim [] ExponentPart.chars := by
  have unmarked : ∀ char ∈ mantissa.chars, (!Decimal.isExponentMark char) = true := by
    intro char member
    rcases mantissa.isDigit_or_point_of_mem_chars char member with digit | rfl
    · rw [isExponentMark_of_isDigit digit]
      rfl
    · rfl
  rw [List.takeWhile_append_of_pos unmarked, List.dropWhile_append_of_pos unmarked]
  cases part with
  | none => exact ⟨List.append_nil _, rfl⟩
  | some part =>
      have mark : (!Decimal.isExponentMark part.mark) = false := by
        rw [isExponentMark_iff.mpr part.isMark]
        rfl
      rw [Option.elim_some, ExponentPart.chars, List.takeWhile_cons_of_neg (by simp [mark]),
        List.dropWhile_cons_of_neg (by simp [mark])]
      exact ⟨List.append_nil _, rfl⟩

theorem splitExponent?_chars :
    Decimal.splitExponent? (mantissa.chars ++ part.elim [] ExponentPart.chars) =
      (Decimal.word? (part.elim 0 ExponentPart.value)).map (mantissa.chars, ·) := by
  obtain ⟨front, back⟩ := splitMark mantissa part
  rw [Decimal.splitExponent?, front, back]
  cases part with
  | none => rfl
  | some part =>
      have first : ∀ char ∈ part.run.chars.head?, IsUnsigned char :=
        fun char member => isUnsigned_of_isDigit (part.run.digits char (List.mem_of_head? member))
      have nonempty : part.run.chars.isEmpty = false := List.isEmpty_eq_false_iff.mpr part.nonempty
      simp only [Option.elim_some, ExponentPart.chars, part.sign.splitSign_append first, nonempty,
        digitsValue?_of_digits part.run.digits, ExponentPart.value, Signing.apply,
        Bool.false_eq_true, if_false, Option.bind_eq_bind, Option.bind_some]
      exact Option.map_eq_bind.symm

end Numeral

theorem ExponentPart.exists_of_splitSign {mark : Char} {written : List Char}
    (isMark : Decimal.isExponentMark mark = true) (nonempty : (Decimal.splitSign written).2 ≠ [])
    (every : ∀ char ∈ (Decimal.splitSign written).2, char.isDigit = true) :
    ∃ part : ExponentPart, part.chars = mark :: written := by
  obtain ⟨sign, together, -⟩ := Signing.exists_append_splitSign written
  exact ⟨⟨mark, isExponentMark_iff.mp isMark, sign, ⟨_, every⟩, nonempty⟩,
    congrArg (mark :: ·) together.symm⟩

/-! ### Numerals -/

namespace Numeral

def value (numeral : Numeral) : ℚ :=
  numeral.unscaled / 10 ^ numeral.scale

theorem exists_of_splitExponent? {body chars : List Char} {word : Int64}
    (divided : Decimal.splitExponent? body = some (chars, word)) :
    ∃ part : Option ExponentPart, body = chars ++ part.elim [] ExponentPart.chars := by
  have together :=
    List.takeWhile_append_dropWhile (p := (!Decimal.isExponentMark ·)) (l := body)
  rw [Decimal.splitExponent?] at divided
  rcases dropWhile_cases (!Decimal.isExponentMark ·) body with
    none | ⟨mark, written, behind, isMark⟩
  · rw [none] at divided together
    cases divided
    exact ⟨.none, together.symm⟩
  · rw [behind] at divided together
    rw [Bool.not_eq_false'] at isMark
    cases some : (Decimal.splitSign written).2.isEmpty with
    | true =>
        simp only [some, if_true] at divided
        cases divided
    | false =>
        simp only [some, Bool.false_eq_true, if_false, Option.bind_eq_bind, Option.bind_eq_some_iff]
          at divided
        obtain ⟨size, read, exponent, -, same⟩ := divided
        cases same
        obtain ⟨part, written⟩ := ExponentPart.exists_of_splitSign isMark
          (List.isEmpty_eq_false_iff.mp some) (isDigit_of_digitsValue? read)
        refine ⟨.some part, ?_⟩
        rw [Option.elim_some, written]
        exact together.symm

variable (numeral : Numeral)

theorem splitSign_chars :
    Decimal.splitSign numeral.chars = (numeral.sign.isMinus,
      numeral.mantissa.chars ++ numeral.exponentPart.elim [] ExponentPart.chars) := by
  refine numeral.sign.splitSign_append fun char first => ?_
  rw [List.head?_append_of_ne_nil _ numeral.mantissa.chars_ne_nil] at first
  exact numeral.mantissa.isUnsigned_of_mem_chars char (List.mem_of_head? first)

theorem ofChars?_chars_eq :
    Decimal.ofChars? numeral.chars = (Decimal.word? numeral.exponent).bind fun exponent =>
      (Decimal.word? (numeral.mantissa.places.length - exponent.toInt)).bind fun scale =>
        if Decimal.isWritableScale scale then some ⟨numeral.unscaled, scale⟩ else none := by
  obtain ⟨before, behind⟩ := numeral.mantissa.splitPoint_chars
  have nonempty : (numeral.mantissa.whole.chars ++ numeral.mantissa.places).isEmpty = false :=
    List.isEmpty_eq_false_iff.mpr numeral.mantissa.nonempty
  have digits := digitsValue?_of_digits numeral.mantissa.isDigit_of_mem_digits
  simp only [Decimal.ofChars?, numeral.splitSign_chars, splitExponent?_chars,
    Option.bind_eq_bind, Option.bind_map, Function.comp_def, before, behind, nonempty, digits,
    Bool.false_eq_true, if_false, Option.bind_some]
  rfl

theorem IsNarrow.toInt_scale {numeral : Numeral} (narrow : numeral.IsNarrow) :
    (Int64.ofInt numeral.scale).toInt = numeral.scale := by
  obtain ⟨lower, upper⟩ := narrow
  exact Int64.toInt_ofInt_of_le (by omega) (by omega)

/-- A numeral is read if its scale is narrow.  The digits behind the point are too few to
bring an exponent that is no word back to a narrow scale. -/
theorem ofChars?_chars (short : numeral.mantissa.places.length < 2 ^ 62) :
    Decimal.ofChars? numeral.chars = if numeral.IsNarrow then some numeral.number else none := by
  have scale : numeral.scale = numeral.mantissa.places.length - numeral.exponent := rfl
  rw [ofChars?_chars_eq]
  split
  · rename_i narrow
    have places := narrow.toInt_scale
    obtain ⟨lower, upper⟩ := narrow
    have exponent : (Int64.ofInt numeral.exponent).toInt = numeral.exponent :=
      Int64.toInt_ofInt_of_le (by omega) (by omega)
    have writable : Decimal.isWritableScale (Int64.ofInt numeral.scale) = true := by
      rw [Decimal.isWritableScale_iff, places]
      exact ⟨lower, upper⟩
    rw [Decimal.word?_eq_some_iff.mpr exponent, Option.bind_some, exponent, ← scale,
      Decimal.word?_eq_some_iff.mpr places, Option.bind_some, if_pos writable]
    rfl
  · rename_i wide
    rw [Option.eq_none_iff_forall_ne_some]
    intro number read
    simp only [Option.bind_eq_some_iff, Decimal.word?_eq_some_iff] at read
    obtain ⟨exponent, same, found, places, read⟩ := read
    rw [same, ← scale] at places
    split at read
    · rename_i writable
      rw [Decimal.isWritableScale_iff, places] at writable
      exact wide writable
    · cases read

theorem exists_of_ofChars? {chars : List Char} {number : Decimal}
    (read : Decimal.ofChars? chars = some number) : ∃ numeral : Numeral, numeral.chars = chars := by
  obtain ⟨sign, together, -⟩ := Signing.exists_append_splitSign chars
  simp only [Decimal.ofChars?, Option.bind_eq_bind, Option.bind_eq_some_iff] at read
  obtain ⟨⟨front, word⟩, divided, read⟩ := read
  obtain ⟨part, body⟩ := exists_of_splitExponent? divided
  simp only at read
  split at read
  · cases read
  · rename_i nonempty
    obtain ⟨size, digits, -⟩ := Option.bind_eq_some_iff.mp read
    obtain ⟨mantissa, rfl⟩ := Mantissa.exists_of_splitPoint
      (fun empty => nonempty (List.isEmpty_iff.mpr empty)) (isDigit_of_digitsValue? digits)
    refine ⟨⟨sign, mantissa, part⟩, ?_⟩
    rw [together, body]
    rfl

theorem length_places_le : numeral.mantissa.places.length ≤ numeral.chars.length := by
  have inside : numeral.mantissa.places.length ≤ numeral.mantissa.chars.length := by
    rw [Mantissa.places, Mantissa.chars, List.length_append]
    cases numeral.mantissa.fraction with
    | none => exact Nat.zero_le _
    | some run =>
        rw [Option.elim_some, Option.elim_some, List.length_cons]
        omega
  rw [chars, List.length_append, List.length_append]
  omega

theorem ofChars?_eq_some_iff {chars : List Char} (short : chars.length < 2 ^ 62)
    {number : Decimal} :
    Decimal.ofChars? chars = some number ↔
      ∃ numeral : Numeral, numeral.chars = chars ∧ numeral.IsNarrow ∧ numeral.number = number := by
  constructor
  · intro read
    obtain ⟨numeral, rfl⟩ := exists_of_ofChars? read
    rw [ofChars?_chars numeral (numeral.length_places_le.trans_lt short)] at read
    split at read
    · exact ⟨numeral, rfl, ‹_›, Option.some.inj read⟩
    · cases read
  · rintro ⟨numeral, rfl, narrow, rfl⟩
    rw [ofChars?_chars numeral (numeral.length_places_le.trans_lt short), if_pos narrow]

end Numeral
end DecimalCalculator
