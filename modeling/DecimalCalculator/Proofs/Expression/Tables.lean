/-
What usable symbol tables guarantee about characters.

Validation succeeds exactly for tables without repeated kinds, repeated
characters and reserved characters.  The later modules use this through the
classes of characters alone: a character that opens a bracket, closes one, is an
operator, a suffix operator, a letter or reserved belongs to no other class.
-/

import DecimalCalculator.Expression.Scan
import DecimalCalculator.Proofs.Outcome

namespace DecimalCalculator
namespace SymbolTables

/-! ### Validation -/

def characters (tables : SymbolTables) : List Char :=
  tables.bracketCharacters ++ tables.operatorSymbols ++ tables.suffixes

/-- No kind and no character of the tables occurs twice, and none is reserved. -/
structure Unambiguous (tables : SymbolTables) : Prop where
  kinds : (tables.brackets.map (·.kind)).Nodup
  distinct : tables.characters.Nodup
  unreserved : ∀ char ∈ tables.characters, isReserved char = false

theorem checkBracketCharacter_eq_ok_iff (earlier : List Char) (char : Char) :
    checkBracketCharacter earlier char = .ok () ↔ isReserved char = false ∧ char ∉ earlier := by
  unfold checkBracketCharacter
  split
  · simp_all
  · split <;> simp_all

theorem checkBrackets_eq_ok_iff (pairs : List BracketPair) (kinds : List Nat)
    (earlier : List Char) :
    checkBrackets kinds earlier pairs = .ok () ↔
      (pairs.map (·.kind)).Nodup ∧ (∀ pair ∈ pairs, pair.kind ∉ kinds) ∧
        (pairs.flatMap fun pair => [pair.opening, pair.closing]).Nodup ∧
        ∀ char ∈ pairs.flatMap fun pair => [pair.opening, pair.closing],
          isReserved char = false ∧ char ∉ earlier := by
  induction pairs generalizing kinds earlier with
  | nil => simp [checkBrackets]
  | cons pair rest ih =>
      simp only [checkBrackets]
      by_cases same : pair.opening = pair.closing
      · rw [if_pos same]
        constructor
        · intro checked
          exact absurd checked throw_bind_ne_ok
        · intro conditions
          simp [same] at conditions
      · rw [if_neg same]
        by_cases known : pair.kind ∈ kinds
        · rw [if_pos (List.contains_iff_mem.mpr known)]
          constructor
          · intro checked
            exact absurd checked throw_bind_ne_ok
          · intro conditions
            exact absurd known (conditions.2.1 pair List.mem_cons_self)
        · rw [if_neg (fun present => known (List.contains_iff_mem.mp present)),
            check_bind_eq_ok_iff, check_bind_eq_ok_iff, checkBracketCharacter_eq_ok_iff,
            checkBracketCharacter_eq_ok_iff, ih]
          grind

theorem checkSymbols_eq_ok_iff (repeated : Char → TableError) (symbols others earlier : List Char) :
    checkSymbols repeated others earlier symbols = .ok () ↔
      symbols.Nodup ∧ ∀ symbol ∈ symbols,
        isReserved symbol = false ∧ symbol ∉ earlier ∧ symbol ∉ others := by
  induction symbols generalizing earlier with
  | nil => simp [checkSymbols]
  | cons symbol rest ih =>
      simp only [checkSymbols]
      by_cases reserved : isReserved symbol = true
      · rw [if_pos reserved]
        simp [throw_bind_ne_ok, reserved]
      · rw [if_neg reserved]
        by_cases known : symbol ∈ earlier
        · rw [if_pos (List.contains_iff_mem.mpr known)]
          simp [throw_bind_ne_ok, known]
        · rw [if_neg (fun present => known (List.contains_iff_mem.mp present))]
          by_cases other : symbol ∈ others
          · rw [if_pos (List.contains_iff_mem.mpr other)]
            simp [throw_bind_ne_ok, other]
          · rw [if_neg (fun present => other (List.contains_iff_mem.mp present)), ih]
            grind

theorem validate_eq_ok_iff (tables : SymbolTables) :
    tables.validate = .ok () ↔ tables.Unambiguous := by
  unfold validate
  rw [check_bind_eq_ok_iff, check_bind_eq_ok_iff, checkBrackets_eq_ok_iff, checkSymbols_eq_ok_iff,
    checkSymbols_eq_ok_iff]
  constructor
  · rintro ⟨⟨kinds, _, brackets, openings⟩, ⟨operators, symbols⟩, suffixes, signs⟩
    refine ⟨kinds, ?_, ?_⟩
    · simp only [characters, bracketCharacters, List.nodup_append]
      grind [bracketCharacters]
    · intro char member
      simp only [characters, bracketCharacters, List.mem_append] at member
      grind [bracketCharacters]
  · rintro ⟨kinds, distinct, unreserved⟩
    simp only [characters, List.nodup_append, List.mem_append] at distinct unreserved
    grind [bracketCharacters]

variable {tables : SymbolTables} {char : Char}

theorem validated_of_unambiguous (usable : tables.Unambiguous) : tables.validated = .ok tables := by
  rw [validated, tables.validate_eq_ok_iff.mpr usable]
  rfl

theorem exists_validated_eq_error (unusable : ¬tables.Unambiguous) :
    ∃ error, tables.validated = .error error := by
  rw [← validate_eq_ok_iff] at unusable
  unfold validated
  cases checked : tables.validate with
  | error error => exact ⟨error, rfl⟩
  | ok done => exact absurd checked unusable

/-! ### Membership -/

theorem opensBracket_iff :
    tables.opensBracket char = true ↔ ∃ pair ∈ tables.brackets, pair.opening = char := by
  simp [opensBracket]

theorem closesBracket_iff :
    tables.closesBracket char = true ↔ ∃ pair ∈ tables.brackets, pair.closing = char := by
  simp [closesBracket]

theorem isBracket_iff : isBracket tables char = true ↔ char ∈ tables.bracketCharacters := by
  unfold isBracket bracketCharacters
  rw [Bool.or_eq_true, opensBracket_iff, closesBracket_iff]
  grind

theorem mem_operatorSymbols_iff :
    char ∈ tables.operatorSymbols ↔ (tables.priority? char).isSome = true := by
  simp [operatorSymbols, priority?]

theorem isSuffix_iff : tables.isSuffix char = true ↔ char ∈ tables.suffixes :=
  List.contains_iff_mem

theorem isSome_bracketKind? :
    (tables.bracketKind? char).isSome = isBracket tables char := by
  rw [Bool.eq_iff_iff, isBracket_iff, bracketKind?, Option.isSome_map, List.find?_isSome]
  simp only [bracketCharacters, List.mem_flatMap, List.mem_cons, List.not_mem_nil, or_false,
    Bool.or_eq_true, beq_iff_eq, @eq_comm Char char]

theorem bracketKind?_of_opensBracket (opens : tables.opensBracket char = true) :
    ∃ kind, tables.bracketKind? char = some kind := by
  rw [← Option.isSome_iff_exists, isSome_bracketKind?, isBracket, opens, Bool.true_or]

/-! ### Classes of characters -/

theorem isBracket_of_opensBracket (opens : tables.opensBracket char = true) :
    isBracket tables char = true := by
  rw [isBracket, opens, Bool.true_or]

theorem isBracket_of_closesBracket (closes : tables.closesBracket char = true) :
    isBracket tables char = true := by
  rw [isBracket, closes, Bool.or_true]

theorem isBracket_of_isLetter (letter : tables.isLetter char = true) :
    isBracket tables char = false := by
  simp only [isLetter, Bool.and_eq_true, Option.isNone_iff_eq_none] at letter
  rw [← isSome_bracketKind?, letter.2]
  rfl

theorem priority?_of_isLetter (letter : tables.isLetter char = true) :
    tables.priority? char = none := by
  simp only [isLetter, Bool.and_eq_true, Option.isNone_iff_eq_none] at letter
  exact letter.1.2

theorem isLetter_separator : tables.isLetter listSeparator = false := by
  have separator : Unicode.isAlphabetic listSeparator = false := by decide +kernel
  simp [isLetter, separator]

theorem ne_separator_of_isLetter (letter : tables.isLetter char = true) :
    char ≠ listSeparator := by
  rintro rfl
  rw [isLetter_separator] at letter
  cases letter

namespace Unambiguous

theorem isBracket_of_isReserved (usable : tables.Unambiguous) (reserved : isReserved char = true) :
    isBracket tables char = false := by
  rw [Bool.eq_false_iff, Ne, isBracket_iff]
  intro member
  have unreserved := usable.unreserved char
    (List.mem_append_left _ (List.mem_append_left _ member))
  rw [reserved] at unreserved
  cases unreserved

theorem isBracket_separator (usable : tables.Unambiguous) :
    isBracket tables listSeparator = false :=
  usable.isBracket_of_isReserved (by decide)

theorem ne_separator_of_isBracket (usable : tables.Unambiguous)
    (bracket : isBracket tables char = true) : char ≠ listSeparator := by
  rintro rfl
  rw [usable.isBracket_separator] at bracket
  cases bracket

theorem priority?_of_isReserved (usable : tables.Unambiguous) (reserved : isReserved char = true) :
    tables.priority? char = none := by
  rw [← Option.not_isSome_iff_eq_none, ← mem_operatorSymbols_iff]
  intro member
  have unreserved := usable.unreserved char
    (List.mem_append_left _ (List.mem_append_right _ member))
  rw [reserved] at unreserved
  cases unreserved

theorem isReserved_of_isSuffix (usable : tables.Unambiguous) (suffix : tables.isSuffix char = true) :
    isReserved char = false :=
  usable.unreserved char (List.mem_append_right _ (isSuffix_iff.mp suffix))

theorem isBracket_of_priority? (usable : tables.Unambiguous) {priority : Int}
    (operator : tables.priority? char = some priority) : isBracket tables char = false := by
  have member : char ∈ tables.operatorSymbols := by
    rw [mem_operatorSymbols_iff, operator]
    rfl
  rw [Bool.eq_false_iff, Ne, isBracket_iff]
  intro bracket
  exact (List.nodup_append.mp (List.nodup_append.mp usable.distinct).1).2.2
    char bracket char member rfl

theorem priority?_of_isBracket (usable : tables.Unambiguous) (bracket : isBracket tables char = true) :
    tables.priority? char = none := by
  rw [Option.eq_none_iff_forall_ne_some]
  intro priority operator
  rw [usable.isBracket_of_priority? operator] at bracket
  cases bracket

theorem isBracket_of_isSuffix (usable : tables.Unambiguous) (suffix : tables.isSuffix char = true) :
    isBracket tables char = false := by
  rw [Bool.eq_false_iff, Ne, isBracket_iff]
  intro bracket
  exact (List.nodup_append.mp usable.distinct).2.2 char (List.mem_append_left _ bracket)
    char (isSuffix_iff.mp suffix) rfl

theorem priority?_of_isSuffix (usable : tables.Unambiguous) (suffix : tables.isSuffix char = true) :
    tables.priority? char = none := by
  rw [← Option.not_isSome_iff_eq_none, ← mem_operatorSymbols_iff]
  intro operator
  exact (List.nodup_append.mp usable.distinct).2.2 char (List.mem_append_right _ operator)
    char (isSuffix_iff.mp suffix) rfl

theorem ne_separator_of_priority? (usable : tables.Unambiguous) {priority : Int}
    (operator : tables.priority? char = some priority) : char ≠ listSeparator := by
  intro same
  rw [same, usable.priority?_of_isReserved (by decide)] at operator
  cases operator

/-! ### Pairs of brackets -/

theorem find?_kind (usable : tables.Unambiguous) {pair : BracketPair}
    (member : pair ∈ tables.brackets) :
    tables.brackets.find? (·.kind == pair.kind) = some pair := by
  have kinds := usable.kinds
  generalize tables.brackets = pairs at kinds member ⊢
  induction pairs with
  | nil => cases member
  | cons head rest ih => grind

theorem bracketKind?_of_mem (usable : tables.Unambiguous) {pair : BracketPair}
    (member : pair ∈ tables.brackets) :
    tables.bracketKind? pair.opening = some pair.kind ∧
      tables.bracketKind? pair.closing = some pair.kind := by
  have characters := (List.nodup_append.mp (List.nodup_append.mp usable.distinct).1).1
  unfold bracketCharacters at characters
  unfold bracketKind?
  generalize tables.brackets = pairs at characters member ⊢
  induction pairs with
  | nil => cases member
  | cons head rest ih => grind

theorem opensBracket_closing (usable : tables.Unambiguous) {pair : BracketPair}
    (member : pair ∈ tables.brackets) : tables.opensBracket pair.closing = false := by
  have characters := (List.nodup_append.mp (List.nodup_append.mp usable.distinct).1).1
  rw [Bool.eq_false_iff, Ne, opensBracket_iff]
  unfold bracketCharacters at characters
  generalize tables.brackets = pairs at characters member ⊢
  induction pairs with
  | nil => cases member
  | cons head rest ih => grind

/-- A pair with the opening character of one pair and the closing one of another
pair of the same kind does not exist. -/
theorem exists_pair (usable : tables.Unambiguous) {opening closing : Char} {kind : Nat}
    (opens : tables.opensBracket opening = true) (closes : tables.closesBracket closing = true)
    (openingKind : tables.bracketKind? opening = some kind)
    (closingKind : tables.bracketKind? closing = some kind) :
    ⟨opening, closing, kind⟩ ∈ tables.brackets := by
  obtain ⟨first, present, rfl⟩ := opensBracket_iff.mp opens
  obtain ⟨second, also, rfl⟩ := closesBracket_iff.mp closes
  rw [(usable.bracketKind?_of_mem present).1, Option.some.injEq] at openingKind
  rw [(usable.bracketKind?_of_mem also).2, Option.some.injEq] at closingKind
  have found := usable.find?_kind present
  have other := usable.find?_kind also
  rw [openingKind] at found
  rw [closingKind, found, Option.some.injEq] at other
  subst other
  rw [← openingKind]
  exact present

end Unambiguous
end SymbolTables
end DecimalCalculator
