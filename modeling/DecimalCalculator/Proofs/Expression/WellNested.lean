/-
Well nested texts and the check with a stack of open brackets.

The stack holds the kinds of the brackets that a text leaves open, so a text is well
nested exactly if the check passes.  A check that fails stops at the first closing
bracket that does not match, or at the end of a text that leaves brackets open.
-/

import DecimalCalculator.Expression.Defects
import DecimalCalculator.Proofs.Expression.Ends

namespace DecimalCalculator

variable {tables : SymbolTables} {text front rest : List Char} {char : Char}
  {opened : List BracketPair}

/-! ### Registered pairs -/

namespace SymbolTables.Unambiguous

theorem eq_of_kind (usable : tables.Unambiguous) {first second : BracketPair}
    (registered : first ∈ tables.brackets) (also : second ∈ tables.brackets)
    (same : first.kind = second.kind) : first = second := by
  have found := usable.find?_kind registered
  rw [same, usable.find?_kind also, Option.some.injEq] at found
  exact found.symm

theorem closing_eq (usable : tables.Unambiguous) {pair : BracketPair}
    (registered : pair ∈ tables.brackets) (closes : tables.closesBracket char = true)
    (known : tables.bracketKind? char = some pair.kind) : pair.closing = char := by
  obtain ⟨other, also, rfl⟩ := SymbolTables.closesBracket_iff.mp closes
  rw [(usable.bracketKind?_of_mem also).2, Option.some.injEq] at known
  rw [usable.eq_of_kind also registered known]

end SymbolTables.Unambiguous

/-! ### Well nested texts are balanced -/

namespace WellNested

theorem append {left right : List Char} (first : WellNested tables left)
    (second : WellNested tables right) : WellNested tables (left ++ right) := by
  induction first with
  | nil => exact second
  | plain notOpens notCloses _ ih => exact .plain notOpens notCloses ih
  | pair registered inside _ _ ih =>
      rw [List.cons_append, List.append_assoc, List.cons_append]
      exact .pair registered inside ih

theorem isBalanced (usable : tables.Unambiguous) (nested : WellNested tables text) :
    IsBalanced tables text := by
  induction nested with
  | nil => exact .nil
  | @plain char rest notOpens notCloses _ ih =>
      have plain : isBracket tables char = false := by
        rw [isBracket, notOpens, notCloses]
        rfl
      exact (IsBalanced.singleton plain).append ih
  | @pair pair content rest registered _ _ inside behind =>
      have enclosing := usable.isEnclosing registered
      have closingKind := (enclosing.closed [] rfl).2
      have whole := (IsBalanced.enclosed enclosing.opens enclosing.closes enclosing.notOpens
        enclosing.openingKind closingKind inside).append behind
      rw [List.cons_append, List.append_assoc] at whole
      exact whole

end WellNested

/-! ### Brackets that stay open -/

namespace LeavesOpen

theorem append (leaves : LeavesOpen tables opened front) (nested : WellNested tables rest) :
    LeavesOpen tables opened (front ++ rest) := by
  cases leaves with
  | none first => exact .none (first.append nested)
  | bracket before registered inside =>
      rw [List.append_assoc, List.cons_append]
      exact .bracket before registered (inside.append nested)

theorem registered (leaves : LeavesOpen tables opened front) :
    ∀ pair ∈ opened, pair ∈ tables.brackets := by
  induction leaves with
  | none => exact fun pair absent => absurd absent List.not_mem_nil
  | bracket _ registered _ ih => exact List.forall_mem_cons.mpr ⟨registered, ih⟩

theorem nestingThrough?_eq (usable : tables.Unambiguous)
    (leaves : LeavesOpen tables opened front) :
    nestingThrough? tables [] front = some (opened.map (·.kind)) := by
  induction leaves with
  | none nested => exact nested.isBalanced usable
  | bracket _ registered inside ih =>
      have enclosing := usable.isEnclosing registered
      rw [nestingThrough?_append, ih, Option.bind_some]
      exact nestingThrough?_cons_eq_some.mpr
        ⟨_, nestingAfter?_of_opensBracket enclosing.opens enclosing.openingKind _,
          (inside.isBalanced usable).nestingThrough? _⟩

theorem exists_after (usable : tables.Unambiguous) (leaves : LeavesOpen tables opened front)
    {kinds : List Nat} (after : nestingAfter? tables (opened.map (·.kind)) char = some kinds) :
    ∃ later, LeavesOpen tables later (front ++ [char]) ∧ later.map (·.kind) = kinds := by
  unfold nestingAfter? at after
  split at after
  · rename_i opens
    obtain ⟨pair, known, rfl⟩ := SymbolTables.opensBracket_iff.mp opens
    rw [(usable.bracketKind?_of_mem known).1] at after
    exact ⟨pair :: opened, .bracket leaves known .nil, Option.some.inj after⟩
  · rename_i notOpens
    rw [Bool.not_eq_true] at notOpens
    split at after
    · rename_i closes
      cases leaves with
      | none => cases after
      | @bracket outer front content innermost before known inside =>
          simp only [List.map_cons, Option.ite_none_right_eq_some, Option.some.injEq] at after
          obtain ⟨sameKind, rfl⟩ := after
          rw [← usable.closing_eq known closes sameKind, List.append_assoc, List.cons_append]
          exact ⟨outer, before.append (.pair known inside .nil), rfl⟩
    · rename_i notCloses
      rw [Bool.not_eq_true] at notCloses
      exact ⟨opened, leaves.append (.plain notOpens notCloses .nil), Option.some.inj after⟩

end LeavesOpen

theorem nestingThrough?_eq_some_iff (usable : tables.Unambiguous) {kinds : List Nat} :
    nestingThrough? tables [] text = some kinds ↔
      ∃ opened, LeavesOpen tables opened text ∧ opened.map (·.kind) = kinds := by
  constructor
  · intro through
    induction text using List.reverseRecOn generalizing kinds with
    | nil => exact ⟨[], .none .nil, Option.some.inj through⟩
    | append_singleton front char ih =>
        rw [nestingThrough?_append, Option.bind_eq_some_iff] at through
        obtain ⟨nesting, inFront, last⟩ := through
        obtain ⟨final, after, done⟩ := nestingThrough?_cons_eq_some.mp last
        cases done
        obtain ⟨opened, leaves, rfl⟩ := ih inFront
        exact leaves.exists_after usable after
  · rintro ⟨opened, leaves, rfl⟩
    exact leaves.nestingThrough?_eq usable

theorem wellNested_iff_isBalanced (usable : tables.Unambiguous) :
    WellNested tables text ↔ IsBalanced tables text := by
  refine ⟨fun nested => nested.isBalanced usable, ?_⟩
  intro balanced
  obtain ⟨opened, leaves, none⟩ := (nestingThrough?_eq_some_iff usable).mp balanced
  cases leaves with
  | none nested => exact nested
  | bracket => cases none

/-! ### The first bracket that does not match -/

theorem checkNesting_of_stops {opened nesting : List Nat}
    (through : nestingThrough? tables opened front = some nesting)
    (stops : nestingAfter? tables nesting char = none) (position : Nat) (rest : List Char) :
    checkNesting tables position opened (front ++ char :: rest) =
      .error (.mismatchedBracket (position + front.length)) := by
  induction front generalizing position opened with
  | nil =>
      cases through
      rw [List.nil_append, checkNesting, stops]
      rfl
  | cons first others ih =>
      obtain ⟨next, after, later⟩ := nestingThrough?_cons_eq_some.mp through
      rw [List.cons_append, checkNesting, after]
      simp only [ih later, List.length_cons]
      rw [Nat.add_assoc, Nat.add_comm 1]

theorem checkNesting_eq_error {position : Nat} {opened : List Nat} {error : ExpressionError}
    (failed : checkNesting tables position opened text = .error error) :
    (error = .unclosedBracket ∧
        ∃ nesting, nestingThrough? tables opened text = some nesting ∧ nesting ≠ []) ∨
      ∃ front char rest nesting, text = front ++ char :: rest ∧
        error = .mismatchedBracket (position + front.length) ∧
        nestingThrough? tables opened front = some nesting ∧
        nestingAfter? tables nesting char = none := by
  induction text generalizing position opened with
  | nil =>
      rw [checkNesting] at failed
      split at failed
      · cases failed
      · rename_i remaining
        cases failed
        exact Or.inl ⟨rfl, opened, rfl, fun none => remaining (List.isEmpty_iff.mpr none)⟩
  | cons first others ih =>
      rw [checkNesting] at failed
      split at failed
      · rename_i stops
        cases failed
        exact Or.inr ⟨[], first, others, opened, rfl, rfl, rfl, stops⟩
      · rename_i next after
        rcases ih failed with ⟨same, nesting, through, remaining⟩ |
          ⟨front, char, rest, nesting, rfl, same, through, stops⟩
        · exact Or.inl ⟨same, nesting, nestingThrough?_cons_eq_some.mpr ⟨next, after, through⟩,
            remaining⟩
        · refine Or.inr ⟨first :: front, char, rest, nesting, rfl, ?_,
            nestingThrough?_cons_eq_some.mpr ⟨next, after, through⟩, stops⟩
          rw [same, List.length_cons, Nat.add_assoc, Nat.add_comm 1]

theorem nestingAfter?_eq_none_iff (usable : tables.Unambiguous)
    (registered : ∀ pair ∈ opened, pair ∈ tables.brackets) :
    nestingAfter? tables (opened.map (·.kind)) char = none ↔
      tables.closesBracket char = true ∧ ∀ innermost ∈ opened.head?, innermost.closing ≠ char := by
  unfold nestingAfter?
  by_cases closes : tables.closesBracket char = true
  · obtain ⟨pair, known, rfl⟩ := SymbolTables.closesBracket_iff.mp closes
    rw [if_neg (Bool.not_eq_true _ ▸ usable.opensBracket_closing known), if_pos closes,
      and_iff_right closes]
    cases opened with
    | nil => exact iff_of_true rfl fun innermost absent => absurd absent (Option.not_mem_none _)
    | cons innermost outer =>
        have among := registered innermost List.mem_cons_self
        simp only [List.map_cons, List.head?_cons, Option.mem_def, Option.some.injEq,
          forall_eq', ite_eq_right_iff, reduceCtorEq, imp_false]
        refine not_congr ⟨usable.closing_eq among closes, fun same => ?_⟩
        rw [← same]
        exact (usable.bracketKind?_of_mem among).2
  · rw [if_neg closes]
    split <;> simp [closes]

theorem checkNesting_eq_mismatched_iff (usable : tables.Unambiguous) {position : Nat} :
    checkNesting tables 0 [] text = .error (.mismatchedBracket position) ↔
      IsFirstMismatch tables text position := by
  constructor
  · intro failed
    rcases checkNesting_eq_error failed with ⟨different, _⟩ |
      ⟨front, char, rest, nesting, split, same, through, stops⟩
    · cases different
    · obtain ⟨opened, leaves, rfl⟩ := (nestingThrough?_eq_some_iff usable).mp through
      obtain ⟨closes, apart⟩ := (nestingAfter?_eq_none_iff usable leaves.registered).mp stops
      rw [Nat.zero_add, ExpressionError.mismatchedBracket.injEq] at same
      exact ⟨front, char, rest, opened, split, same, leaves, closes, apart⟩
  · rintro ⟨front, char, rest, opened, rfl, rfl, leaves, closes, apart⟩
    have stops := (nestingAfter?_eq_none_iff usable leaves.registered).mpr ⟨closes, apart⟩
    have stopped := checkNesting_of_stops (leaves.nestingThrough?_eq usable) stops 0 rest
    rwa [Nat.zero_add] at stopped

/-- The check finds brackets left open exactly if no closing bracket stops it and the text
is not well nested. -/
theorem checkNesting_eq_unclosed_iff (usable : tables.Unambiguous) :
    checkNesting tables 0 [] text = .error .unclosedBracket ↔
      ¬WellNested tables text ∧ ∀ position, ¬IsFirstMismatch tables text position := by
  have passes : WellNested tables text ↔ checkNesting tables 0 [] text = .ok () :=
    (wellNested_iff_isBalanced usable).trans checkNesting_eq_ok_iff.symm
  simp only [passes, ← checkNesting_eq_mismatched_iff usable]
  cases checked : checkNesting tables 0 [] text with
  | ok value => simp
  | error error =>
      rcases checkNesting_eq_error checked with ⟨rfl, _⟩ | ⟨_, _, _, _, _, rfl, _⟩
      · simp
      · simp

end DecimalCalculator
