/-
Classes of characters under accepted tables.

Tables are accepted exactly if no kind and no character in them occurs twice and no
character in them has a fixed meaning.  Every character then belongs to one class at most:
the opening or the closing brackets, the operators, the suffix operators, the letters or the
reserved characters.  The brackets of one pair share a kind with each other and with no
other pair.
-/

import DecimalCalculator.Proofs.Expression.Tables

namespace DecimalCalculator

/-! ### Letters and reserved characters -/

namespace Unicode

variable {char : Char}

theorem exists_alphabetic_range (alphabetic : isAlphabetic char = true) :
    ∃ range ∈ alphabeticRanges, range.1 ≤ char.toNat ∧ char.toNat ≤ range.2 := by
  obtain ⟨range, member, within⟩ := List.any_eq_true.mp alphabetic
  rw [Bool.and_eq_true, decide_eq_true_iff, decide_eq_true_iff] at within
  exact ⟨range, member, within⟩

theorem le_toNat_of_isAlphabetic (alphabetic : isAlphabetic char = true) :
    'A'.toNat ≤ char.toNat := by
  have first : ∀ range ∈ alphabeticRanges, 'A'.toNat ≤ range.1 := by decide +kernel
  obtain ⟨range, member, within⟩ := exists_alphabetic_range alphabetic
  exact Nat.le_trans (first range member) within.1

theorem isWhiteSpace_of_isAlphabetic (alphabetic : isAlphabetic char = true) :
    isWhiteSpace char = false := by
  have apart : ∀ range ∈ alphabeticRanges, ∀ gap ∈ whiteSpaceRanges,
      range.2 < gap.1 ∨ gap.2 < range.1 := by
    decide +kernel
  obtain ⟨range, member, within⟩ := exists_alphabetic_range alphabetic
  rw [Bool.eq_false_iff]
  intro blank
  obtain ⟨gap, present, inside⟩ := List.any_eq_true.mp blank
  rw [Bool.and_eq_true, decide_eq_true_iff, decide_eq_true_iff] at inside
  have disjoint := apart range member gap present
  omega

end Unicode

theorem isReserved_iff {char : Char} : isReserved char = true ↔
    char = listSeparator ∨ char = '.' ∨ char.isDigit = true ∨ Unicode.isWhiteSpace char = true := by
  simp only [isReserved, Bool.or_eq_true, beq_iff_eq, or_assoc]

theorem isReserved_eq_false_iff {char : Char} : isReserved char = false ↔
    char ≠ listSeparator ∧ char ≠ '.' ∧ char.isDigit = false ∧
      Unicode.isWhiteSpace char = false := by
  rw [← Bool.not_eq_true, isReserved_iff]
  simp only [not_or, Bool.not_eq_true, Ne]

theorem isReserved_of_isAlphabetic {char : Char} (alphabetic : Unicode.isAlphabetic char = true) :
    isReserved char = false := by
  have late := Unicode.le_toNat_of_isAlphabetic alphabetic
  rw [isReserved_eq_false_iff]
  refine ⟨?_, ?_, ?_, Unicode.isWhiteSpace_of_isAlphabetic alphabetic⟩
  · rintro rfl
    exact absurd late (by decide)
  · rintro rfl
    exact absurd late (by decide)
  · rw [Bool.eq_false_iff]
    intro digit
    have upper := (Char.isDigit_iff_toNat.mp digit).2
    exact absurd (Nat.le_trans late upper) (by decide)

theorem eq_false_of_excludes {first second : Bool} (excludes : second = true → first = false)
    (holds : first = true) : second = false := by
  rw [Bool.eq_false_iff]
  intro also
  rw [excludes also] at holds
  cases holds

namespace SymbolTables

variable {tables : SymbolTables} {char : Char}

/-! ### Classes exclude each other -/

/-- Which classes a character belongs to: the opening brackets, the closing brackets, the
operators, the suffix operators, the letters, the reserved characters. -/
def characterClasses (tables : SymbolTables) (char : Char) : List Bool :=
  [tables.opensBracket char, tables.closesBracket char, (tables.priority? char).isSome,
    tables.isSuffix char, tables.isLetter char, isReserved char]

theorem isReserved_of_isLetter (letter : tables.isLetter char = true) :
    isReserved char = false := by
  simp only [isLetter, Bool.and_eq_true] at letter
  exact isReserved_of_isAlphabetic letter.1.1.1

theorem isSuffix_of_isLetter (letter : tables.isLetter char = true) :
    tables.isSuffix char = false := by
  simp only [isLetter, Bool.and_eq_true, Bool.not_eq_true'] at letter
  exact letter.1.1.2

namespace Unambiguous

theorem opensBracket_of_closesBracket (usable : tables.Unambiguous)
    (closes : tables.closesBracket char = true) : tables.opensBracket char = false := by
  obtain ⟨pair, member, rfl⟩ := closesBracket_iff.mp closes
  exact usable.opensBracket_closing member

theorem not_other_of_isBracket (usable : tables.Unambiguous)
    (bracket : isBracket tables char = true) :
    (tables.priority? char).isSome = false ∧ tables.isSuffix char = false ∧
      tables.isLetter char = false ∧ isReserved char = false := by
  refine ⟨?_, eq_false_of_excludes usable.isBracket_of_isSuffix bracket,
    eq_false_of_excludes isBracket_of_isLetter bracket,
    eq_false_of_excludes usable.isBracket_of_isReserved bracket⟩
  rw [usable.priority?_of_isBracket bracket]
  rfl

theorem not_other_of_operator (usable : tables.Unambiguous)
    (operator : (tables.priority? char).isSome = true) :
    tables.isSuffix char = false ∧ tables.isLetter char = false ∧ isReserved char = false := by
  have none (absent : tables.priority? char = none) : (tables.priority? char).isSome = false := by
    rw [absent]
    rfl
  exact ⟨eq_false_of_excludes (fun suffix => none (usable.priority?_of_isSuffix suffix)) operator,
    eq_false_of_excludes (fun letter => none (priority?_of_isLetter letter)) operator,
    eq_false_of_excludes (fun reserved => none (usable.priority?_of_isReserved reserved)) operator⟩

theorem not_other_of_isSuffix (usable : tables.Unambiguous)
    (suffix : tables.isSuffix char = true) :
    tables.isLetter char = false ∧ isReserved char = false :=
  ⟨eq_false_of_excludes isSuffix_of_isLetter suffix, usable.isReserved_of_isSuffix suffix⟩

theorem count_characterClasses (usable : tables.Unambiguous) (char : Char) :
    (tables.characterClasses char).count true ≤ 1 := by
  unfold characterClasses
  cases opens : tables.opensBracket char with
  | true =>
      obtain ⟨operator, suffix, letter, reserved⟩ :=
        usable.not_other_of_isBracket (isBracket_of_opensBracket opens)
      cases closes : tables.closesBracket char with
      | true => simp [usable.opensBracket_of_closesBracket closes] at opens
      | false => simp [operator, suffix, letter, reserved]
  | false =>
      cases closes : tables.closesBracket char with
      | true =>
          obtain ⟨operator, suffix, letter, reserved⟩ :=
            usable.not_other_of_isBracket (isBracket_of_closesBracket closes)
          simp [operator, suffix, letter, reserved]
      | false =>
          cases operator : (tables.priority? char).isSome with
          | true =>
              obtain ⟨suffix, letter, reserved⟩ := usable.not_other_of_operator operator
              simp [suffix, letter, reserved]
          | false =>
              cases suffix : tables.isSuffix char with
              | true =>
                  obtain ⟨letter, reserved⟩ := usable.not_other_of_isSuffix suffix
                  simp [letter, reserved]
              | false =>
                  cases letter : tables.isLetter char with
                  | true => simp [isReserved_of_isLetter letter]
                  | false => cases isReserved char <;> simp

/-! ### Kinds -/

theorem nodup_bracketKinds (usable : tables.Unambiguous) :
    (tables.brackets.map fun pair => tables.bracketKind? pair.opening).Nodup := by
  have kinds : (tables.brackets.map fun pair => tables.bracketKind? pair.opening) =
      (tables.brackets.map (·.kind)).map some := by
    rw [List.map_map]
    exact List.map_congr_left fun pair member => (usable.bracketKind?_of_mem member).1
  rw [kinds]
  exact List.Pairwise.map some (fun _ _ different same => different (Option.some.inj same))
    usable.kinds

end Unambiguous

/-! ### Acceptance -/

variable {brackets : List BracketPair} {operators : List BinaryOperator} {suffixes : List Char}

theorem ofParts_eq_ok_iff : ofParts brackets operators suffixes = .ok tables ↔
    tables = ⟨brackets, operators, suffixes⟩ ∧ tables.Unambiguous := by
  unfold ofParts
  constructor
  · intro accepted
    by_cases usable : Unambiguous ⟨brackets, operators, suffixes⟩
    · rw [validated_of_unambiguous usable] at accepted
      cases accepted
      exact ⟨rfl, usable⟩
    · obtain ⟨error, refused⟩ := exists_validated_eq_error usable
      rw [refused] at accepted
      cases accepted
  · rintro ⟨rfl, usable⟩
    exact validated_of_unambiguous usable

/-- Tables are accepted exactly if their kinds are distinct, and their characters too and none
of them a separator, a point, a digit or white space.  They are accepted as they stand.
Every character belongs to one class at most, and a kind belongs to the two brackets of
one pair. -/
theorem ofParts_accepts_unambiguous (brackets : List BracketPair) (operators : List BinaryOperator)
    (suffixes : List Char) :
    ((∃ tables, ofParts brackets operators suffixes = .ok tables) ↔
      (brackets.map (·.kind)).Nodup ∧
        ((brackets.flatMap fun pair => [pair.opening, pair.closing]) ++
          operators.map (·.symbol) ++ suffixes).Nodup ∧
        ∀ char ∈ (brackets.flatMap fun pair => [pair.opening, pair.closing]) ++
            operators.map (·.symbol) ++ suffixes,
          char ≠ ';' ∧ char ≠ '.' ∧ char.isDigit = false ∧ Unicode.isWhiteSpace char = false) ∧
      ∀ tables, ofParts brackets operators suffixes = .ok tables →
        tables = ⟨brackets, operators, suffixes⟩ ∧
          (∀ char, (tables.characterClasses char).count true ≤ 1) ∧
          (∀ pair ∈ brackets, tables.bracketKind? pair.opening = some pair.kind ∧
            tables.bracketKind? pair.closing = some pair.kind) ∧
          (brackets.map fun pair => tables.bracketKind? pair.opening).Nodup := by
  constructor
  · constructor
    · rintro ⟨tables, accepted⟩
      obtain ⟨rfl, usable⟩ := ofParts_eq_ok_iff.mp accepted
      refine ⟨usable.kinds, usable.distinct, ?_⟩
      intro char member
      exact isReserved_eq_false_iff.mp (usable.unreserved char member)
    · rintro ⟨kinds, distinct, unreserved⟩
      refine ⟨_, ofParts_eq_ok_iff.mpr ⟨rfl, kinds, distinct, ?_⟩⟩
      intro char member
      exact isReserved_eq_false_iff.mpr (unreserved char member)
  · intro tables accepted
    obtain ⟨rfl, usable⟩ := ofParts_eq_ok_iff.mp accepted
    exact ⟨rfl, usable.count_characterClasses,
      fun pair member => usable.bracketKind?_of_mem member, usable.nodup_bracketKinds⟩

theorem ofParts_accepts_unambiguous_currency :
    ofParts [⟨'x', '€', 7⟩, ⟨'(', ')', 1⟩] [⟨'#', -3⟩] ['!'] =
        .ok ⟨[⟨'x', '€', 7⟩, ⟨'(', ')', 1⟩], [⟨'#', -3⟩], ['!']⟩ ∧
      (characterClasses ⟨[⟨'x', '€', 7⟩, ⟨'(', ')', 1⟩], [⟨'#', -3⟩], ['!']⟩ 'x').count true ≤ 1 ∧
      bracketKind? ⟨[⟨'x', '€', 7⟩, ⟨'(', ')', 1⟩], [⟨'#', -3⟩], ['!']⟩ '€' = some 7 := by
  have accepted : ofParts [⟨'x', '€', 7⟩, ⟨'(', ')', 1⟩] [⟨'#', -3⟩] ['!'] =
      .ok ⟨[⟨'x', '€', 7⟩, ⟨'(', ')', 1⟩], [⟨'#', -3⟩], ['!']⟩ :=
    rfl
  obtain ⟨-, classes, kinds, -⟩ := (ofParts_accepts_unambiguous _ _ _).2 _ accepted
  exact ⟨accepted, classes 'x', (kinds ⟨'x', '€', 7⟩ List.mem_cons_self).2⟩

end SymbolTables
end DecimalCalculator
