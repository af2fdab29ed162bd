/-
Every node of a built tree is one that the tables provide for.

Symbols and kinds of brackets are looked up where a text is divided.  What stands
between a function name and its operand is made of digits, points and suffix
operators, and such a text can only be a literal under suffix operators.
-/

import DecimalCalculator.Expression.Registered
import DecimalCalculator.Proofs.Expression.Precedence

namespace DecimalCalculator

variable {tables : SymbolTables} {text : List Char} {tree : Option Expression}

/-! ### Characters of suffixes -/

theorem isAlphabetic_of_isDigit {char : Char} (digit : char.isDigit = true) :
    Unicode.isAlphabetic char = false := by
  have digits : ∀ size < 10, Unicode.isAlphabetic (Char.ofNat (48 + size)) = false := by
    decide +kernel
  have lower : 48 ≤ char.toNat := by
    simp only [Char.isDigit, Bool.and_eq_true, decide_eq_true_eq] at digit
    exact digit.1
  have upper : char.toNat ≤ 57 := by
    simp only [Char.isDigit, Bool.and_eq_true, decide_eq_true_eq] at digit
    exact digit.2
  have same := digits (char.toNat - 48) (by omega)
  rw [show 48 + (char.toNat - 48) = char.toNat by omega, Char.ofNat_toNat] at same
  exact same

theorem isLetter_of_isDigit {char : Char} (digit : char.isDigit = true) :
    tables.isLetter char = false := by
  rw [SymbolTables.isLetter, isAlphabetic_of_isDigit digit]
  rfl

theorem isLetter_of_belongsToSuffix {char : Char}
    (belongs : Partition.belongsToSuffix tables char = true) : tables.isLetter char = false := by
  rw [Partition.belongsToSuffix, Bool.or_eq_true, Bool.or_eq_true, beq_iff_eq] at belongs
  rcases belongs with (digit | rfl) | suffix
  · exact isLetter_of_isDigit digit
  · have point : Unicode.isAlphabetic '.' = false := by decide +kernel
    rw [SymbolTables.isLetter, point]
    rfl
  · simp [SymbolTables.isLetter, suffix]

namespace Reads

theorem isSome_of_ne_nil (reads : Reads tables text tree) (nonempty : text ≠ []) :
    tree.isSome = true := by
  cases reads with
  | nothing => exact absurd rfl nonempty
  | _ => rfl

/-! ### Suffixes of functions -/

theorem isNumeral (usable : tables.Unambiguous) (reads : Reads tables text tree) :
    (∀ char ∈ text, Partition.belongsToSuffix tables char = true) →
      ∀ node ∈ tree, node.IsNumeral := by
  induction reads with
  | nothing => exact fun _ _ absent => nomatch absent
  | brackets divides =>
      intro belongs
      cases divides with
      | enclosed enclosing =>
          have plain := (usable.plain_of_belongsToSuffix (belongs _ List.mem_cons_self)).1
          rw [isBracket, enclosing.opens] at plain
          cases plain
  | list several =>
      intro belongs
      obtain ⟨other, rest, rfl⟩ := List.exists_cons_of_ne_nil several
      rw [List.map_cons, joinedItems_cons] at belongs
      have separator := belongs listSeparator (List.mem_append_right _ List.mem_cons_self)
      exact absurd rfl (usable.plain_of_belongsToSuffix separator).2.2
  | positive divides | negative divides =>
      intro belongs
      cases divides with
      | leading last =>
          have operator := last.operator
          rw [(usable.plain_of_belongsToSuffix (belongs _ List.mem_cons_self)).2.1] at operator
          cases operator
  | operator divides =>
      intro belongs
      cases divides with
      | binary _ last =>
          have operator := last.operator
          have among := belongs _ (List.mem_append_right _ List.mem_cons_self)
          rw [(usable.plain_of_belongsToSuffix among).2.1] at operator
          cases operator
  | constant divides =>
      intro belongs
      cases divides with
      | constant nonempty letters =>
          obtain ⟨first, rest, rfl⟩ := List.exists_cons_of_ne_nil nonempty
          have letter := letters first List.mem_cons_self
          rw [isLetter_of_belongsToSuffix (belongs first List.mem_cons_self)] at letter
          cases letter
  | function divides =>
      intro belongs
      cases divides with
      | function nonempty letters =>
          obtain ⟨first, rest, rfl⟩ := List.exists_cons_of_ne_nil nonempty
          have letter := letters first List.mem_cons_self
          rw [isLetter_of_belongsToSuffix (belongs first List.mem_cons_self)] at letter
          cases letter
  | @suffix _ _ _ _ operandTree divides _ inFront =>
      intro belongs
      rintro node ⟨⟩
      cases divides with
      | suffix =>
          cases operandTree with
          | none => exact .bare _ _
          | some operand =>
              exact .suffixed _ _ (inFront
                (fun char member => belongs char (List.mem_append_left _ member)) operand rfl)
  | number =>
      rintro _ node ⟨⟩
      exact .literal _

/-! ### Single nodes -/

theorem isRegistered (usable : tables.Unambiguous) (reads : Reads tables text tree) :
    ∀ node ∈ tree, node.IsRegistered tables := by
  induction reads with
  | nothing => exact fun _ absent => nomatch absent
  | positive _ _ ih => exact ih
  | list | number =>
      rintro node ⟨⟩
      trivial
  | brackets divides inside =>
      rintro node ⟨⟩
      cases divides with
      | enclosed enclosing =>
          exact List.mem_map_of_mem (f := (·.kind))
            (enclosing.mem_brackets usable (inside.isBalanced usable))
  | negative divides =>
      rintro node ⟨⟩
      cases divides with
      | leading last =>
          rw [Expression.IsRegistered, SymbolTables.mem_operatorSymbols_iff, last.operator]
          rfl
  | operator divides =>
      rintro node ⟨⟩
      cases divides with
      | binary _ last =>
          rw [Expression.IsRegistered, SymbolTables.mem_operatorSymbols_iff, last.operator]
          rfl
  | constant divides =>
      rintro node ⟨⟩
      cases divides with
      | constant nonempty letters =>
          rw [Expression.IsRegistered, SymbolTables.IsName, String.toList_ofList]
          exact ⟨nonempty, letters⟩
  | function divides suffixed applied =>
      rintro node ⟨⟩
      cases divides with
      | @function name nameSuffix operand nonempty letters together unnamed taken undivided =>
          rw [Expression.IsRegistered, SymbolTables.IsName, String.toList_ofList]
          refine ⟨⟨nonempty, letters⟩, ?_, suffixed.isNumeral usable ?_⟩
          · by_cases empty : nameSuffix = []
            · rw [empty, List.nil_append] at together
              exact Or.inr (applied.isSome_of_ne_nil together)
            · exact Or.inl (suffixed.isSome_of_ne_nil empty)
          · intro char member
            rw [← taken] at member
            exact belongsToSuffix_of_mem_leadingSuffix char member
  | suffix divides =>
      rintro node ⟨⟩
      cases divides with
      | suffix positive isSuffix => exact ⟨SymbolTables.isSuffix_iff.mp isSuffix, positive⟩

end Reads

namespace Expression

theorem isRegistered_of_build (usable : tables.Unambiguous) {text : String} {tree : Expression}
    (built : build tables text = .ok tree) :
    ∀ node : Expression, node.Occurs tree → node.IsRegistered tables := by
  intro node occurs
  obtain ⟨inner, reads⟩ := Reads.exists_of_occurs occurs _ ((build_eq_ok_iff usable).mp built)
  exact reads.isRegistered usable node rfl

end Expression
end DecimalCalculator
