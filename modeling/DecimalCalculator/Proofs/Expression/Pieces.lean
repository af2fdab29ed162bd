/-
The first and the last characters of a text.

Brackets that enclose a text are its first and last character, and what stands
between them is balanced or has a bracket that does not match.  Equal suffix
operators at the end form one run; a name is followed by its suffix.
-/

import DecimalCalculator.Proofs.Expression.Cuts
import Mathlib.Data.List.DropRight

namespace DecimalCalculator

variable {tables : SymbolTables}

/-! ### Checking the brackets -/

theorem checkNesting_eq_ok_iff {position : Nat} {opened : List Nat} {text : List Char} :
    checkNesting tables position opened text = .ok () ↔
      nestingThrough? tables opened text = some [] := by
  induction text generalizing position opened with
  | nil =>
      cases opened with
      | nil => exact iff_of_true rfl rfl
      | cons kind outer => simp [checkNesting, nestingThrough?]
  | cons char rest ih =>
      simp only [checkNesting, nestingThrough?]
      cases after : nestingAfter? tables opened char with
      | none => exact iff_of_false (by simp) (by simp)
      | some nesting => exact ih

/-! ### Enclosing brackets -/

/-- Brackets around a text.  What stands between them is balanced or has a bracket
that does not match. -/
structure IsEnclosing (tables : SymbolTables) (opening closing : Char) (kind : Nat)
    (content : List Char) : Prop where
  opens : tables.opensBracket opening = true
  openingKind : tables.bracketKind? opening = some kind
  closes : tables.closesBracket closing = true
  notOpens : tables.opensBracket closing = false
  closed : ∀ final, nestingThrough? tables [] content = some final →
    final = [] ∧ tables.bracketKind? closing = some kind

theorem closes_or_exposed {opened : List Nat} {char : Char}
    (after : nestingAfter? tables opened char = some []) :
    isExposed tables opened.length char = true ∨
      (tables.opensBracket char = false ∧ tables.closesBracket char = true ∧
        ∃ kind, opened = [kind] ∧ tables.bracketKind? char = some kind) := by
  unfold nestingAfter? at after
  split at after
  · rename_i opens
    obtain ⟨kind, known⟩ := SymbolTables.bracketKind?_of_opensBracket opens
    rw [known] at after
    cases after
  · rename_i notOpens
    rw [Bool.not_eq_true] at notOpens
    split at after
    · rename_i closes
      right
      refine ⟨notOpens, closes, ?_⟩
      cases opened with
      | nil => cases after
      | cons kind outer =>
          simp only at after
          split at after
          · rename_i known
            exact ⟨kind, by rw [Option.some.inj after], known⟩
          · cases after
    · rename_i notCloses
      rw [Bool.not_eq_true] at notCloses
      left
      simp [isExposed, isBracket, notOpens, notCloses, Option.some.inj after]

theorem exists_enclosing {text : List Char} (balanced : IsBalanced tables text)
    (nonempty : text ≠ []) (hidden : exposed tables 0 text = []) :
    ∃ opening closing kind content, text = opening :: (content ++ [closing]) ∧
      IsEnclosing tables opening closing kind content := by
  obtain ⟨opening, rest, rfl⟩ := List.exists_cons_of_ne_nil nonempty
  obtain ⟨first, after, through⟩ := nestingThrough?_cons_eq_some.mp balanced
  have bracket : isBracket tables opening = true := by
    rw [← Bool.not_eq_false]
    intro plain
    have outside : isExposed tables 0 opening = true := by simp [isExposed, plain]
    have member : opening ∈ exposed tables 0 (opening :: rest) := mem_exposed_of_isExposed outside
    rw [hidden] at member
    cases member
  have opens : tables.opensBracket opening = true := by
    unfold nestingAfter? at after
    rw [isBracket, Bool.or_eq_true] at bracket
    by_cases opens : tables.opensBracket opening = true
    · exact opens
    · rw [if_neg opens, if_pos (bracket.resolve_left opens)] at after
      cases after
  obtain ⟨kind, known⟩ := SymbolTables.bracketKind?_of_opensBracket opens
  rw [nestingAfter?_of_opensBracket opens known, Option.some.injEq] at after
  subst after
  have shut : rest ≠ [] := by
    intro empty
    rw [empty] at through
    cases through
  obtain ⟨content, closing, rfl⟩ : ∃ content closing, rest = content ++ [closing] :=
    ⟨rest.dropLast, rest.getLast shut, (List.dropLast_append_getLast shut).symm⟩
  rw [nestingThrough?_append, Option.bind_eq_some_iff] at through
  obtain ⟨nesting, inside, last⟩ := through
  obtain ⟨final, afterLast, done⟩ := nestingThrough?_cons_eq_some.mp last
  rw [nestingThrough?, Option.some.injEq] at done
  subst done
  have deep := depthAfter_of_nestingAfter? (nestingAfter?_of_opensBracket opens known [])
  rcases closes_or_exposed afterLast with outside | closer
  · have member : closing ∈ exposed tables 0 (opening :: (content ++ [closing])) := by
      apply mem_exposed_cons
      rw [← List.length_nil (α := Nat), deep, exposed_append inside]
      exact List.mem_append_right _ (mem_exposed_of_isExposed outside)
    rw [hidden] at member
    cases member
  · obtain ⟨notOpens, closes, innermost, same, closingKind⟩ := closer
    refine ⟨opening, closing, kind, content, rfl, opens, known, closes, notOpens, ?_⟩
    intro final balancedContent
    have framed := nestingThrough?_frame balancedContent [kind]
    rw [List.nil_append, inside, same, Option.some.injEq] at framed
    cases final with
    | nil =>
        rw [List.nil_append, List.cons.injEq] at framed
        exact ⟨rfl, framed.1 ▸ closingKind⟩
    | cons other others =>
        have lengths := congrArg List.length framed
        simp at lengths

/-! ### Runs of equal characters -/

theorem exists_trailing_run (symbol : Char) (text : List Char) :
    ∃ front count, text = front ++ List.replicate count symbol ∧ front.getLast? ≠ some symbol := by
  induction text using List.reverseRecOn with
  | nil => exact ⟨[], 0, rfl, by simp⟩
  | append_singleton rest last ih =>
      by_cases same : last = symbol
      · obtain ⟨front, count, split, maximal⟩ := ih
        refine ⟨front, count + 1, ?_, maximal⟩
        rw [List.replicate_succ', ← List.append_assoc, ← split, same]
      · refine ⟨rest ++ [last], 0, (List.append_nil _).symm, ?_⟩
        rw [List.getLast?_concat]
        exact fun equal => same (Option.some.inj equal)

theorem length_takeWhile_trailing_run {front : List Char} {symbol : Char}
    (maximal : front.getLast? ≠ some symbol) (count : Nat) :
    ((front ++ List.replicate count symbol).reverse.takeWhile (· == symbol)).length = count := by
  rw [List.reverse_append, List.reverse_replicate, List.takeWhile_append_of_pos]
  · have stop : front.reverse.takeWhile (· == symbol) = [] := by
      rw [List.getLast?_eq_head?_reverse] at maximal
      cases reversed : front.reverse with
      | nil => rfl
      | cons last others =>
          rw [reversed, List.head?_cons] at maximal
          exact List.takeWhile_cons_of_neg fun equal => maximal (congrArg some (beq_iff_eq.mp equal))
    rw [stop, List.append_nil, List.length_replicate]
  · intro char member
    exact beq_iff_eq.mpr (List.eq_of_mem_replicate member)

theorem take_before_trailing_run (front : List Char) (symbol : Char) (count : Nat) :
    (front ++ List.replicate count symbol).take
      ((front ++ List.replicate count symbol).length - count) = front := by
  rw [List.length_append, List.length_replicate, Nat.add_sub_cancel]
  exact List.take_left

/-! ### Names and their suffixes -/

theorem append_leadingSuffix (tables : SymbolTables) (rest : List Char) :
    Partition.leadingSuffix tables rest ++
      rest.drop (Partition.leadingSuffix tables rest).length = rest := by
  rw [← List.prefix_iff_eq_append]
  unfold Partition.leadingSuffix
  split
  · exact List.takeWhile_prefix _
  · exact List.nil_prefix

theorem belongsToSuffix_of_mem_leadingSuffix {rest : List Char} :
    ∀ char ∈ Partition.leadingSuffix tables rest, Partition.belongsToSuffix tables char = true := by
  intro char member
  unfold Partition.leadingSuffix at member
  split at member
  · exact (List.mem_takeWhile_imp member)
  · cases member

theorem SymbolTables.Unambiguous.isBracket_of_mem_replicate (usable : tables.Unambiguous)
    {symbol : Char} (suffix : tables.isSuffix symbol = true) (count : Nat) :
    ∀ char ∈ List.replicate count symbol, isBracket tables char = false := by
  intro char member
  rw [List.eq_of_mem_replicate member]
  exact usable.isBracket_of_isSuffix suffix

theorem SymbolTables.Unambiguous.plain_of_belongsToSuffix (usable : tables.Unambiguous)
    {char : Char} (belongs : Partition.belongsToSuffix tables char = true) :
    isBracket tables char = false ∧ tables.priority? char = none ∧ char ≠ listSeparator := by
  rw [Partition.belongsToSuffix, Bool.or_eq_true] at belongs
  rcases belongs with written | suffix
  · have reserved : isReserved char = true := by
      rw [Bool.or_eq_true, beq_iff_eq] at written
      rcases written with digit | point <;> simp [isReserved, *]
    refine ⟨usable.isBracket_of_isReserved reserved, usable.priority?_of_isReserved reserved, ?_⟩
    intro same
    rw [same] at written
    exact absurd written (by decide)
  · refine ⟨usable.isBracket_of_isSuffix suffix, usable.priority?_of_isSuffix suffix, ?_⟩
    intro same
    have unreserved := usable.isReserved_of_isSuffix suffix
    rw [same] at unreserved
    exact absurd unreserved (by decide)

theorem plain_of_leadingSuffix (usable : tables.Unambiguous) {rest nameSuffix : List Char}
    (suffixed : Partition.leadingSuffix tables rest = nameSuffix) :
    ∀ char ∈ nameSuffix, isBracket tables char = false ∧ tables.priority? char = none ∧
      char ≠ listSeparator := by
  intro char member
  rw [← suffixed] at member
  exact usable.plain_of_belongsToSuffix (belongsToSuffix_of_mem_leadingSuffix char member)

end DecimalCalculator
