/-
Texts that can stand in the place of other texts.

A balanced text that exposes nothing new can replace another one: the operator that
is applied last stays so, and a text that nothing divides stays undivided.  Names and
runs of suffix operators end where they did if the operand begins or ends as it did.
-/

import DecimalCalculator.Proofs.Expression.Ends

namespace DecimalCalculator

variable {tables : SymbolTables} {text new old : List Char}

/-- The new text is balanced and exposes no more than the old one. -/
structure Replaces (tables : SymbolTables) (new old : List Char) : Prop where
  balanced : IsBalanced tables new
  within : ∀ char ∈ exposed tables 0 new, char ∈ exposed tables 0 old

namespace Replaces

theorem refl (balanced : IsBalanced tables text) : Replaces tables text text :=
  ⟨balanced, fun _ outside => outside⟩

theorem nil : Replaces tables [] [] :=
  refl .nil

theorem behind {front : List Char} (balanced : IsBalanced tables front)
    (replaces : Replaces tables new old) : Replaces tables (front ++ new) (front ++ old) := by
  refine ⟨balanced.append replaces.balanced, ?_⟩
  intro char outside
  rw [balanced.exposed_append, List.mem_append] at outside ⊢
  exact outside.imp_right (replaces.within char)

theorem inFront {rest : List Char} (balanced : IsBalanced tables rest)
    (before : IsBalanced tables old) (replaces : Replaces tables new old) :
    Replaces tables (new ++ rest) (old ++ rest) := by
  refine ⟨replaces.balanced.append balanced, ?_⟩
  intro char outside
  rw [replaces.balanced.exposed_append, List.mem_append] at outside
  rw [before.exposed_append, List.mem_append]
  exact outside.imp_left (replaces.within char)

theorem operator {left right newLeft newRight : List Char} {symbol : Char} {priority : Int}
    (last : IsLastCut tables [] ⟨left, symbol, priority, right⟩)
    (first : Replaces tables newLeft left) (second : Replaces tables newRight right) :
    Replaces tables (newLeft ++ symbol :: newRight) (left ++ symbol :: right) := by
  refine ⟨first.balanced.append ((IsBalanced.singleton last.plain).append second.balanced), ?_⟩
  intro char outside
  have before : IsBalanced tables left := last.left
  rw [first.balanced.exposed_append_cons last.plain, List.mem_append, List.mem_cons] at outside
  rw [before.exposed_append_cons last.plain, List.mem_append, List.mem_cons]
  exact outside.imp (first.within char) (Or.imp_right (second.within char))

end Replaces

theorem IsItem.of_replaces (item : IsItem tables old) (replaces : Replaces tables new old) :
    IsItem tables new :=
  ⟨replaces.balanced, mt (replaces.within _) item.undivided⟩

theorem IsUndivided.of_replaces (undivided : IsUndivided tables old)
    (replaces : Replaces tables new old) : IsUndivided tables new :=
  ⟨replaces.balanced, mt (replaces.within _) undivided.separators,
    fun char outside => undivided.operators char (replaces.within char outside)⟩

theorem IsLastCut.of_replaces {left right newLeft newRight : List Char} {symbol : Char}
    {priority : Int} (last : IsLastCut tables [] ⟨left, symbol, priority, right⟩)
    (first : Replaces tables newLeft left) (second : Replaces tables newRight right) :
    IsLastCut tables [] ⟨newLeft, symbol, priority, newRight⟩ where
  left := first.balanced
  right := second.balanced
  plain := last.plain
  operator := last.operator
  before := fun char outside => last.before char (first.within char outside)
  behind := fun char outside => last.behind char (second.within char outside)

/-! ### Divisions -/

theorem IsEnclosing.divides {opening closing : Char} {kind : Nat}
    (enclosing : IsEnclosing tables opening closing kind old) (before : IsBalanced tables old)
    (balanced : IsBalanced tables new) :
    Divides tables (opening :: (new ++ [closing])) (.enclosed kind ⟨1, new⟩) := by
  have closingKind := (enclosing.closed [] before).2
  refine .enclosed ⟨enclosing.opens, enclosing.openingKind, enclosing.closes,
    enclosing.notOpens, ?_⟩ ?_ ?_
  · exact fun final through => ⟨balanced.closed final through, closingKind⟩
  · exact IsBalanced.enclosed enclosing.opens enclosing.closes enclosing.notOpens
      enclosing.openingKind closingKind balanced
  · exact exposed_enclosed enclosing.opens enclosing.closes enclosing.openingKind balanced

theorem Reads.enclosed (usable : tables.Unambiguous) {pair : BracketPair}
    (registered : pair ∈ tables.brackets) {tree : Expression}
    (reads : Reads tables text (some tree)) :
    Reads tables (pair.opening :: (text ++ [pair.closing])) (some (.brackets pair.kind tree)) ∧
      exposed tables 0 (pair.opening :: (text ++ [pair.closing])) = [] := by
  have enclosing := usable.isEnclosing registered
  have balanced := reads.isBalanced usable
  exact ⟨.brackets (enclosing.divides .nil balanced) reads,
    exposed_enclosed enclosing.opens enclosing.closes enclosing.openingKind balanced⟩

theorem leadingSuffix_append {nameSuffix operand other : List Char}
    (suffixed : Partition.leadingSuffix tables (nameSuffix ++ operand) = nameSuffix)
    (heads : other.head? = operand.head?) :
    Partition.leadingSuffix tables (nameSuffix ++ other) = nameSuffix := by
  have same : (nameSuffix ++ other).head? = (nameSuffix ++ operand).head? := by
    rw [List.head?_append, List.head?_append, heads]
  have belongs : ∀ char ∈ nameSuffix, Partition.belongsToSuffix tables char = true := by
    intro char member
    rw [← suffixed] at member
    exact belongsToSuffix_of_mem_leadingSuffix char member
  unfold Partition.leadingSuffix at suffixed ⊢
  rw [same]
  split
  · rename_i digit
    rw [if_pos digit, List.takeWhile_append_of_pos belongs, List.append_right_eq_self] at suffixed
    rw [List.takeWhile_append_of_pos belongs, List.append_right_eq_self]
    cases other with
    | nil => rfl
    | cons first rest =>
        obtain ⟨more, rfl⟩ := List.head?_eq_some_iff.mp heads.symm
        rw [List.takeWhile_eq_nil_iff] at suffixed ⊢
        exact fun _ => suffixed (Nat.succ_pos _)
  · rename_i noDigit
    rw [if_neg noDigit] at suffixed
    exact suffixed

theorem Divides.plain_suffix (usable : tables.Unambiguous) {name : List Char}
    {nameSuffix operand : Piece}
    (divides : Divides tables text (.function name nameSuffix operand)) :
    ∀ char ∈ nameSuffix.chars, isBracket tables char = false ∧ tables.priority? char = none ∧
      char ≠ listSeparator := by
  cases divides with
  | function _ _ _ _ suffixed => exact plain_of_leadingSuffix usable suffixed

theorem Divides.function_of_replaces (usable : tables.Unambiguous) {name : List Char}
    {nameSuffix operand : Piece}
    (divides : Divides tables text (.function name nameSuffix operand))
    (replaces : Replaces tables new operand.chars) (heads : new.head? = operand.chars.head?) :
    Divides tables (name ++ (nameSuffix.chars ++ new)) (.function name
        ⟨name.length, nameSuffix.chars⟩ ⟨name.length + nameSuffix.chars.length, new⟩) ∧
      Replaces tables (name ++ (nameSuffix.chars ++ new)) text := by
  have plain := divides.plain_suffix usable
  cases divides with
  | @function _ nameSuffix operand nonempty letters applied unnamed suffixed undivided =>
      have whole := (replaces.behind (.of_not_isBracket fun char member =>
        (plain char member).1)).behind (isUndivided_of_letters letters).balanced
      have sameHead : (nameSuffix ++ new).head? = (nameSuffix ++ operand).head? := by
        rw [List.head?_append, List.head?_append, heads]
      refine ⟨.function nonempty letters ?_ ?_ (leadingSuffix_append suffixed heads)
        (undivided.of_replaces whole), whole⟩
      · rw [Ne, ← List.head?_eq_none_iff, sameHead, List.head?_eq_none_iff]
        exact applied
      · rw [IsUnnamed, sameHead]
        exact unnamed

theorem Divides.suffix_of_replaces (usable : tables.Unambiguous) {symbol : Char} {count : Nat}
    {operand : Piece} (divides : Divides tables text (.suffix symbol count operand))
    (replaces : Replaces tables new operand.chars)
    (ends : new.head? = operand.chars.head? ∧ new.getLast? = operand.chars.getLast?) :
    Divides tables (new ++ List.replicate count symbol) (.suffix symbol count ⟨0, new⟩) ∧
      Replaces tables (new ++ List.replicate count symbol) text := by
  have before := (divides.isUndivided_of_piece usable rfl (divides.isUndivided rfl)
    List.mem_cons_self).balanced
  cases divides with
  | @suffix _ _ operand positive isSuffix maximal unnamed undivided =>
      have run := IsBalanced.of_not_isBracket (usable.isBracket_of_mem_replicate isSuffix count)
      have whole := replaces.inFront run before
      refine ⟨.suffix positive isSuffix ?_ ?_ (undivided.of_replaces whole), whole⟩
      · rw [ends.2]
        exact maximal
      · rw [IsUnnamed, List.head?_append, ends.1, ← List.head?_append]
        exact unnamed

end DecimalCalculator
