/-
Written results evaluate to themselves.

The text of a result without its spaces is a text of the expression language: a
number is a literal, with the minus sign in front of it as an operator, and a list
stands between round brackets.  The tree that it reads as has the result as its
value, and numbers in final form are left as they are.  A literal whose digits a
word does not count is not read back.
-/

import Mathlib
import DecimalCalculator.Calculator
import DecimalCalculator.Proofs.Decimal.Forms
import DecimalCalculator.Proofs.Decimal.Text
import DecimalCalculator.Proofs.Evaluation.Quotients
import DecimalCalculator.Proofs.Expression.RoundTrip
import DecimalCalculator.Proofs.Expression.Registered
import DecimalCalculator.Proofs.Value.Final

namespace DecimalCalculator

variable {tables : SymbolTables} {displayScale : UInt32} {number : Decimal} {value : Value}

/-! ### The trees of written values -/

namespace Expression

/-- The tree of a written number: the minus sign is an operator. -/
def ofDecimal (number : Decimal) : Expression :=
  if number.isNegative then .negative (.number number.abs.toText) else .number number.abs.toText

mutual

/-- The tree of a written item: lists stand between round brackets. -/
def ofItem : Value → Expression
  | .number value => ofDecimal value
  | .list items => .brackets roundBrackets (.list (ofItems items))

def ofItems : List Value → List Expression
  | [] => []
  | item :: rest => ofItem item :: ofItems rest

end

theorem ofItems_eq_map (items : List Value) : ofItems items = items.map ofItem := by
  induction items with
  | nil => rfl
  | cons item rest ih => rw [ofItems, ih, List.map_cons]

end Expression

/-! ### Digits that are counted -/

def Decimal.writtenDigits (number : Decimal) : Nat :=
  number.toChars.countP Char.isDigit

/-- Whether signed 32-bit words count the digits of every number of a value. -/
def Value.IsCounted (value : Value) : Prop :=
  ∀ number ∈ value.flatten, number.writtenDigits < 2 ^ 31

instance (value : Value) : Decidable value.IsCounted :=
  inferInstanceAs (Decidable (∀ number ∈ value.flatten, number.writtenDigits < 2 ^ 31))

theorem Value.isCounted_number_iff :
    (Value.number number).IsCounted ↔ number.writtenDigits < 2 ^ 31 :=
  List.forall_mem_singleton

theorem Value.isCounted_list_iff {items : List Value} :
    (Value.list items).IsCounted ↔ ∀ item ∈ items, item.IsCounted := by
  rw [IsCounted, flatten, flattenItems_eq_flatMap]
  exact List.forall_mem_flatMap

theorem ArePlaces.isCountable_iff {whole fraction : List Char} (places : ArePlaces whole fraction) :
    Literal.isCountable (positional whole fraction) = true ↔
      (positional whole fraction).countP Char.isDigit < 2 ^ 31 := by
  have mantissa : (positional whole fraction).takeWhile Literal.isMantissaChar =
      positional whole fraction := by
    rw [List.takeWhile_eq_self_iff]
    intro char member
    rcases places.mem_positional char member with digit | rfl
    · exact Bool.or_eq_true_iff.mpr (Or.inl digit)
    · rfl
  have pointless {digits : List Char} (every : ∀ char ∈ digits, char.isDigit = true) :
      digits.count '.' = 0 :=
    List.count_eq_zero.mpr fun point => absurd (every _ point) (by decide)
  have points : (positional whole fraction).count '.' ≤ 1 := by
    unfold positional
    split
    · rw [pointless places.whole]
      exact Nat.zero_le 1
    · rw [List.count_append, List.count_cons_self, pointless places.whole,
        pointless places.fraction]
  have few : (positional whole fraction).count '.' < 2 ^ 31 := points.trans_lt (by decide)
  simp only [Literal.isCountable, mantissa, Bool.and_eq_true, decide_eq_true_iff]
  exact and_iff_left few

theorem Decimal.writtenDigits_ofInt {size : Nat} (positive : 0 < size) :
    (ofInt size).writtenDigits = Digits.count size := by
  have plus : (ofInt size).isNegative = false :=
    decide_eq_false (Int.not_lt.mpr (Int.natCast_nonneg size))
  have nonzero : ¬((ofInt size).unscaled = 0 ∧ (ofInt size).scale ≤ 0) :=
    fun both => absurd both.1 (Int.natCast_ne_zero.mpr positive.ne')
  have written : (ofInt size).toChars = Digits.written size := by
    rw [toChars, if_neg nonzero, plus]
    exact List.append_nil _
  rw [writtenDigits, written, ← Digits.length_written, List.countP_eq_length,
    Digits.written_eq_toDigits]
  exact fun char member => Nat.isDigit_of_mem_toDigits (by decide) (by decide) member

theorem Decimal.countP_toChars_abs (number : Decimal) :
    number.abs.toChars.countP Char.isDigit = number.writtenDigits := by
  rw [writtenDigits, number.toChars_eq_append_abs, List.countP_append]
  split
  · exact (Nat.zero_add _).symm
  · exact (Nat.zero_add _).symm

/-! ### Reading -/

def Expression.unlessUncounted (counted : Prop) [Decidable counted] (tree : Expression) :
    Except ExpressionError (Option Expression) :=
  if counted then .ok (some tree) else .error .overflow

theorem isItem_of_plain {text : List Char}
    (plain : ∀ char ∈ text, isBracket tables char = false ∧ char ≠ listSeparator) :
    IsItem tables text := by
  refine ⟨.of_not_isBracket fun char member => (plain char member).1, ?_⟩
  rw [exposed_of_not_isBracket fun char member => (plain char member).1]
  exact fun separator => (plain _ separator).2 rfl

theorem ArePlaces.plain (usable : tables.Unambiguous) {whole fraction : List Char}
    (places : ArePlaces whole fraction) :
    ∀ char ∈ positional whole fraction, isBracket tables char = false ∧
      tables.priority? char = none ∧ char ≠ listSeparator := by
  intro char member
  apply usable.plain_of_belongsToSuffix
  rcases places.mem_positional char member with digit | rfl
  · simp [Partition.belongsToSuffix, digit]
  · simp [Partition.belongsToSuffix]

theorem divides_positional (usable : tables.Unambiguous) {whole fraction : List Char}
    (places : ArePlaces whole fraction) :
    Divides tables (positional whole fraction) (.literal (positional whole fraction)) := by
  have plain := places.plain usable
  have outside := exposed_of_not_isBracket fun char member => (plain char member).1
  refine .literal ?_ ?_ ?_ ⟨?_, ?_, ?_⟩
  · rw [outside]
    exact places.positional_ne_nil
  · exact fun char first => isLetter_of_isDigit (places.isDigit_head? char first)
  · intro char last
    have reserved : isReserved char = true := by
      simp [isReserved, places.isDigit_getLast? char last]
    rw [Bool.eq_false_iff]
    intro suffix
    rw [usable.isReserved_of_isSuffix suffix] at reserved
    cases reserved
  · exact .of_not_isBracket fun char member => (plain char member).1
  · rw [outside]
    exact fun separator => (plain _ separator).2.2 rfl
  · rw [outside]
    exact fun char member => (plain char member).2.1

theorem divides_negative_positional (usable : tables.Unambiguous) {priority : Int}
    (minus : tables.priority? '-' = some priority) {whole fraction : List Char}
    (places : ArePlaces whole fraction) :
    Divides tables ('-' :: positional whole fraction)
      (.leading '-' ⟨1, positional whole fraction⟩) := by
  have plain := places.plain usable
  have outside := exposed_of_not_isBracket fun char member => (plain char member).1
  have operator := usable.isBracket_of_priority? minus
  have all : ∀ char ∈ '-' :: positional whole fraction,
      isBracket tables char = false ∧ char ≠ listSeparator :=
    List.forall_mem_cons.mpr ⟨⟨operator, usable.ne_separator_of_priority? minus⟩,
      fun char member => ⟨(plain char member).1, (plain char member).2.2⟩⟩
  have last : IsLastCut tables [] ⟨[], '-', priority, positional whole fraction⟩ := by
    refine ⟨rfl, .of_not_isBracket fun char member => (plain char member).1, operator, minus,
      fun _ absent => (nomatch absent), ?_⟩
    intro char member known ranked
    rw [outside] at member
    rw [(plain char member).2.1] at ranked
    cases ranked
  exact .leading last (isItem_of_plain all).undivided

namespace Expression

theorem ofText_positional (usable : tables.Unambiguous) {whole fraction : List Char}
    (places : ArePlaces whole fraction) :
    ofText tables (positional whole fraction) =
      unlessUncounted ((positional whole fraction).countP Char.isDigit < 2 ^ 31)
        (.number (String.ofList (positional whole fraction))) := by
  rw [ofText_eq_of_divides usable (divides_positional usable places), Division.assemble,
    ofLiteral, places.isLiteral]
  by_cases counted : (positional whole fraction).countP Char.isDigit < 2 ^ 31
  · rw [places.isCountable_iff.mpr counted, unlessUncounted, if_pos counted]
    rfl
  · rw [Bool.eq_false_iff.mpr (mt places.isCountable_iff.mp counted), unlessUncounted,
      if_neg counted]
    rfl

theorem ofText_negative_positional (usable : tables.Unambiguous) {priority : Int}
    (minus : tables.priority? '-' = some priority) {whole fraction : List Char}
    (places : ArePlaces whole fraction) :
    ofText tables ('-' :: positional whole fraction) =
      unlessUncounted ((positional whole fraction).countP Char.isDigit < 2 ^ 31)
        (.negative (.number (String.ofList (positional whole fraction)))) := by
  rw [ofText_eq_of_divides usable (divides_negative_positional usable minus places),
    Division.assemble, ofPiece, ofText_positional usable places, unlessUncounted, unlessUncounted]
  split
  · rfl
  · rfl

theorem ofText_toChars (fractional : 0 ≤ number.scale) :
    ofText .standard number.toChars =
      unlessUncounted (number.writtenDigits < 2 ^ 31) (.ofDecimal number) := by
  have usable : SymbolTables.standard.Unambiguous :=
    SymbolTables.standard.validate_eq_ok_iff.mp rfl
  obtain ⟨whole, fraction, places, written, _⟩ :=
    number.abs.exists_places (Int.natCast_nonneg _) fractional
  rw [← number.countP_toChars_abs, number.toChars_eq_append_abs, ofDecimal, Decimal.toText, written]
  split
  · exact ofText_negative_positional usable rfl places
  · exact ofText_positional usable places

theorem mapM_ofPiece_eq {items : List Value} {chars : Value → List Char}
    {tree : Value → Expression} (offset : Nat)
    (every : ∀ item ∈ items, ofText tables (chars item) =
      unlessUncounted item.IsCounted (tree item)) :
    (Piece.inSequence offset (items.map chars)).mapM (ofPiece tables) =
      if ∀ item ∈ items, item.IsCounted then .ok (items.map fun item => some (tree item))
      else .error .overflow := by
  induction items generalizing offset with
  | nil => rfl
  | cons item rest ih =>
      obtain ⟨first, others⟩ := List.forall_mem_cons.mp every
      rw [List.map_cons, Piece.inSequence, List.mapM_cons, ih _ others, ofPiece, first,
        unlessUncounted]
      by_cases counted : item.IsCounted
      · rw [if_pos counted]
        by_cases later : ∀ other ∈ rest, other.IsCounted
        · rw [if_pos later, if_pos (List.forall_mem_cons.mpr ⟨counted, later⟩)]
          rfl
        · rw [if_neg later, if_neg fun all => later (List.forall_mem_cons.mp all).2]
          rfl
      · rw [if_neg counted, if_neg fun all => counted (List.forall_mem_cons.mp all).1]
        rfl

theorem isBalanced_intercalate (usable : tables.Unambiguous) {texts : List (List Char)}
    (every : ∀ text ∈ texts, IsBalanced tables text) :
    IsBalanced tables ([listSeparator].intercalate texts) := by
  cases texts with
  | nil => exact .nil
  | cons first rest =>
      rw [intercalate_eq_joinedItems]
      exact .joinedItems usable.isBracket_separator every

theorem ofText_intercalate (usable : tables.Unambiguous) {items : List Value}
    {chars : Value → List Char} {tree : Value → Expression} (several : 2 ≤ items.length)
    (separable : ∀ item ∈ items, IsItem tables (chars item))
    (every : ∀ item ∈ items, ofText tables (chars item) =
      unlessUncounted item.IsCounted (tree item)) :
    ofText tables ([listSeparator].intercalate (items.map chars)) =
      unlessUncounted (∀ item ∈ items, item.IsCounted) (.list (items.map tree)) := by
  have together := mapM_ofPiece_eq 0 every
  match items, several with
  | first :: second :: rest, _ =>
      have divides : Divides tables (joinedItems (chars first) ((second :: rest).map chars))
          (.items (Piece.inSequence 0 ((first :: second :: rest).map chars))) :=
        .items (List.cons_ne_nil _ _) (List.forall_mem_map.mpr separable)
      rw [List.map_cons, intercalate_eq_joinedItems, ofText_eq_of_divides usable divides,
        Division.assemble, together, unlessUncounted]
      split
      · change Except.ok (some (list (((first :: second :: rest).map _).filterMap id))) = _
        rw [List.filterMap_map]
        exact congrArg (fun trees => Except.ok (some (list trees)))
          (congrFun List.filterMap_eq_map _)
      · rfl

theorem ofText_enclosed (usable : tables.Unambiguous) {pair : BracketPair}
    (registered : pair ∈ tables.brackets) {content : List Char} (balanced : IsBalanced tables content)
    {counted : Prop} [Decidable counted] {tree : Expression}
    (inside : ofText tables content = unlessUncounted counted tree) :
    ofText tables (pair.opening :: (content ++ [pair.closing])) =
      unlessUncounted counted (.brackets pair.kind tree) := by
  have divides := (usable.isEnclosing registered).divides .nil balanced
  rw [ofText_eq_of_divides usable divides, Division.assemble, ofPiece, inside, unlessUncounted,
    unlessUncounted]
  split
  · rfl
  · rfl

end Expression

theorem plain_toChars (fractional : 0 ≤ number.scale) :
    (∀ char ∈ number.toChars, isBracket .standard char = false ∧ char ≠ listSeparator) ∧
      ' ' ∉ number.toChars := by
  have usable : SymbolTables.standard.Unambiguous :=
    SymbolTables.standard.validate_eq_ok_iff.mp rfl
  obtain ⟨whole, fraction, places, written, _⟩ :=
    number.abs.exists_places (Int.natCast_nonneg _) fractional
  have plain := places.plain usable
  have spaceless : ' ' ∉ positional whole fraction := by
    intro space
    exact absurd (places.mem_positional _ space) (by decide)
  have digits : ∀ char ∈ positional whole fraction,
      isBracket .standard char = false ∧ char ≠ listSeparator :=
    fun char member => ⟨(plain char member).1, (plain char member).2.2⟩
  rw [number.toChars_eq_append_abs, written]
  split
  · rw [List.singleton_append, List.mem_cons, not_or]
    exact ⟨List.forall_mem_cons.mpr ⟨by decide, digits⟩, by decide, spaceless⟩
  · exact ⟨digits, spaceless⟩

theorem compactChars_number (fractional : 0 ≤ number.scale) :
    (Value.number number).compactChars = number.toChars := by
  have spaceless := (plain_toChars fractional).2
  have written : (Value.number number).toText.toList = number.toChars := String.toList_ofList
  rw [Value.compactChars, written, List.filter_eq_self]
  intro char member
  rw [decide_eq_true_eq]
  rintro rfl
  exact spaceless member

theorem ofText_compactChars (final : value.isFinalItem displayScale = true) :
    Expression.ofText .standard value.compactChars =
        Expression.unlessUncounted value.IsCounted (.ofItem value) ∧
      IsItem .standard value.compactChars := by
  have usable : SymbolTables.standard.Unambiguous :=
    SymbolTables.standard.validate_eq_ok_iff.mp rfl
  induction value with
  | number number =>
      rw [Value.isFinalItem] at final
      have fractional := Decimal.scale_nonneg_of_strip_eq (Decimal.isFinal_iff.mp final).1
      rw [compactChars_number fractional, Expression.ofText_toChars fractional]
      refine ⟨?_, isItem_of_plain (plain_toChars fractional).1⟩
      exact if_congr Value.isCounted_number_iff.symm rfl rfl
  | list items ih =>
      obtain ⟨several, every⟩ := Value.isFinalItem_list_iff.mp final
      have separable : ∀ item ∈ items, IsItem .standard item.compactChars :=
        fun item member => (ih item member (every item member)).2
      have built := Expression.ofText_intercalate usable several separable fun item member =>
        (ih item member (every item member)).1
      have round : ⟨'(', ')', roundBrackets⟩ ∈ SymbolTables.standard.brackets :=
        List.mem_cons_self
      have enclosing := usable.isEnclosing round
      have balanced : IsBalanced .standard
          ([listSeparator].intercalate (items.map Value.compactChars)) :=
        Expression.isBalanced_intercalate usable <| List.forall_mem_map.mpr fun item member =>
          (separable item member).balanced
      rw [Value.compactChars_list several, Expression.ofItem, Expression.ofItems_eq_map]
      refine ⟨?_, ?_, ?_⟩
      · rw [Expression.ofText_enclosed usable round balanced built]
        exact if_congr Value.isCounted_list_iff.symm rfl rfl
      · exact IsBalanced.enclosed enclosing.opens enclosing.closes enclosing.notOpens
          enclosing.openingKind (enclosing.closed [] IsBalanced.nil).2 balanced
      · rw [exposed_enclosed enclosing.opens enclosing.closes enclosing.openingKind balanced]
        exact List.not_mem_nil

/-! ### Evaluation -/

namespace Evaluation

variable {context : Context}

theorem walk_ofDecimal (final : number.isFinal context.displayScale = true)
    (bounded : context.displayScale.toNat ≤ 2 ^ 31 - 1) :
    walk .standard context (.ofDecimal number) = .ok (.scalar number) := by
  have fractional := Decimal.scale_nonneg_of_strip_eq (Decimal.isFinal_iff.mp final).1
  obtain ⟨whole, fraction, places, written, length, size⟩ :=
    number.abs.exists_places (Int.natCast_nonneg _) fractional
  have short : fraction.length < 2 ^ 31 := by
    have limited := Decimal.toNatClampNeg_scale_of_isFinal final
    rw [length]
    exact Nat.lt_of_le_of_lt (limited.trans bounded) (by decide)
  have read : Decimal.ofText? number.abs.toText = some number.abs := by
    rw [Decimal.ofText?, Decimal.toText, String.toList_ofList, written,
      places.ofChars?_positional short, size, length]
    have scale := Int64.ofNat_toNatClampNeg number.abs.scale fractional
    rw [scale]
    rfl
  unfold Expression.ofDecimal
  split
  · rename_i negative
    rw [walk, walk, literalValue, read]
    have restored := Decimal.neg_abs_of_isNegative negative
    calc
      (Value.scalar number.abs).tryMap (fun number => (.ok (-number) : Outcome Decimal)) =
          .ok (.scalar (-number.abs)) := Value.tryMap_scalar _ _
      _ = .ok (.scalar number) := by rw [restored]
  · rename_i positive
    rw [walk, literalValue, read, Decimal.abs_of_not_isNegative positive]

/-- The result that an item of a list comes from: a number comes from its scalar. -/
def asResult : Value → Value
  | .number number => .scalar number
  | .list items => .list items

theorem asItem_asResult (final : value.isFinalItem displayScale = true) :
    asItem (asResult value) = value := by
  cases value with
  | number number => rfl
  | list items =>
      have several := (Value.isFinalItem_list_iff.mp final).1
      have unscalar : (Value.list items).scalar? = none := by
        rw [Option.eq_none_iff_forall_ne_some]
        intro number scalar
        rw [Value.scalar?_eq_some_iff, Value.scalar, Value.list.injEq] at scalar
        rw [scalar] at several
        exact absurd several (by simp)
      rw [asResult, asItem, unscalar]

theorem walkItems_eq_ok {resolvers : Resolvers} {items : List Value}
    {tree : Value → Expression} {result : Value → Value}
    (every : ∀ item ∈ items, walk resolvers context (tree item) = .ok (result item)) :
    walkItems resolvers context (items.map tree) = .ok (items.map fun item => asItem (result item)) := by
  induction items with
  | nil => rfl
  | cons item rest ih =>
      obtain ⟨first, later⟩ := List.forall_mem_cons.mp every
      rw [List.map_cons, walkItems, first, ih later]
      rfl

theorem walk_ofItem (bounded : context.displayScale.toNat ≤ 2 ^ 31 - 1)
    (final : value.isFinalItem context.displayScale = true) :
    walk .standard context (.ofItem value) = .ok (asResult value) := by
  induction value with
  | number number =>
      rw [Value.isFinalItem] at final
      exact walk_ofDecimal final bounded
  | list items ih =>
      have every := (Value.isFinalItem_list_iff.mp final).2
      have walked := walkItems_eq_ok fun item member => ih item member (every item member)
      have same : (items.map fun item => asItem (asResult item)) = items.map id :=
        List.map_congr_left fun item member => asItem_asResult (every item member)
      rw [same, List.map_id] at walked
      rw [Expression.ofItem, Expression.ofItems_eq_map, walk, walk, walked]
      exact Value.tryMap_ok (.list items)

end Evaluation

/-! ### Printed results -/

namespace Calculator

/-- A result in final form, written without spaces, evaluates to itself, provided that signed
32-bit words count the digits of its numbers.  Any other one is refused. -/
theorem calculate_toText (context : Context)
    (bounded : context.displayScale.toNat ≤ 2 ^ 31 - 1) (value : Value)
    (final : value.isFinal context.displayScale = true) :
    ({ context := context } : Calculator).calculate
        (String.ofList (value.toText.toList.filter (· ≠ ' '))) =
      if value.IsCounted then .ok value else .error (.expression .overflow) := by
  have usable : SymbolTables.standard.Unambiguous :=
    SymbolTables.standard.validate_eq_ok_iff.mp rfl
  obtain ⟨tree, reads, walked, every⟩ : ∃ tree,
      Expression.ofText .standard value.compactChars =
        Expression.unlessUncounted value.IsCounted tree ∧
      Evaluation.walk .standard context tree = .ok value ∧
      ∀ number ∈ value.flatten, number.isFinal context.displayScale = true := by
    rcases Value.isFinal_cases final with ⟨number, rfl, shortest⟩ | ⟨items, rfl, item⟩
    · have fractional := Decimal.scale_nonneg_of_strip_eq (Decimal.isFinal_iff.mp shortest).1
      have written : (Value.scalar number).compactChars = number.toChars :=
        compactChars_number fractional
      refine ⟨.ofDecimal number, ?_, Evaluation.walk_ofDecimal shortest bounded,
        fun other member => List.mem_singleton.mp member ▸ shortest⟩
      rw [written, Expression.ofText_toChars fractional]
      exact if_congr Value.isCounted_number_iff.symm rfl rfl
    · exact ⟨.ofItem (.list items), (ofText_compactChars item).1,
        Evaluation.walk_ofItem bounded item, Value.isFinal_of_mem_flatten item⟩
  have evaluated : Evaluation.evaluate .standard context tree = .ok value :=
    bind_eq_ok_iff.mpr ⟨value, walked, Value.tryMap_finalForm_of_isFinal every⟩
  have built : Expression.build .standard (String.ofList value.compactChars) =
      if value.IsCounted then .ok tree else .error .overflow := by
    rw [Expression.build_eq_buildPiecewise_of_unambiguous usable, Expression.buildPiecewise,
      String.toList_ofList, reads, Expression.unlessUncounted]
    split
    · rfl
    · rfl
  change ((Expression.build .standard (String.ofList value.compactChars)).mapError _ >>= fun tree =>
    (Evaluation.evaluate .standard context tree).mapError _) = _
  rw [built]
  split
  · exact congrArg (Except.mapError _) evaluated
  · rfl

theorem calculate_toText_nested_list :
    (2 : Nat) ≤ 2 ^ 31 - 1 ∧
      (Value.list [.number ⟨-15, 1⟩, .list [.number 0, .number ⟨7, 2⟩]]).isFinal 2 = true ∧
      ({ context := ⟨2, 20⟩ } : Calculator).calculate "(-1.5;(0;0.07))" =
        .ok (.list [.number ⟨-15, 1⟩, .list [.number 0, .number ⟨7, 2⟩]]) := by
  have written : String.ofList ((Value.list [.number ⟨-15, 1⟩, .list [.number 0,
      .number ⟨7, 2⟩]]).toText.toList.filter (· ≠ ' ')) = "(-1.5;(0;0.07))" := by cbv
  refine ⟨by decide, by decide, ?_⟩
  rw [← written, calculate_toText ⟨2, 20⟩ (by decide) _ (by decide)]
  exact if_pos (by decide)

theorem calculate_toText_power_of_ten (context : Context) {places : Nat} (many : 2 ^ 31 ≤ places + 1)
    (bounded : context.displayScale.toNat ≤ 2 ^ 31 - 1) :
    (Value.scalar (Decimal.ofInt (10 ^ places : Nat))).isFinal context.displayScale = true ∧
      ({ context := context } : Calculator).calculate (String.ofList
        ((Value.scalar (Decimal.ofInt (10 ^ places : Nat))).toText.toList.filter (· ≠ ' '))) =
          .error (.expression .overflow) := by
  set power := Decimal.ofInt (10 ^ places : Nat)
  have positive : 0 < 10 ^ places := Nat.pow_pos (by decide)
  have nonzero : power.unscaled ≠ 0 := Int.natCast_ne_zero.mpr positive.ne'
  have next : 10 ^ places < 10 ^ (places + 1) := Nat.pow_lt_pow_succ (by decide)
  have counted : power.digitCount = places + 1 :=
    (Decimal.digitCount_eq_iff nonzero).mpr ⟨le_rfl, next⟩
  have digits : power.writtenDigits = places + 1 :=
    (Decimal.writtenDigits_ofInt positive).trans counted
  have final : (Value.scalar power).isFinal context.displayScale = true :=
    Decimal.isFinal_iff.mpr ⟨Decimal.IsReduced.strip_eq ⟨Int64.le_refl 0, fun pointed =>
      absurd pointed (Int64.lt_irrefl)⟩, Decimal.displayScale_nonneg _⟩
  have uncounted : ¬(Value.scalar power).IsCounted := fun counted =>
    absurd (Value.isCounted_number_iff.mp counted) (by omega)
  exact ⟨final, (calculate_toText context bounded _ final).trans (if_neg uncounted)⟩

/-- A power of ten of `2 ^ 31` digits is refused, and so is the largest of the display scales
that are signed words. -/
theorem calculate_toText_uncounted :
    (∃ number : Decimal, number.value = 10 ^ (2 ^ 31 - 1) ∧
      (Value.scalar number).isFinal ({} : Context).displayScale = true ∧
      ({} : Calculator).calculate (String.ofList
        ((Value.scalar number).toText.toList.filter (· ≠ ' '))) = .error (.expression .overflow)) ∧
      ({} : Calculator).step (.setDisplayScale 2147483647) =
        ({}, .failed (.evaluation .overflow)) := by
  have power (places : Nat) : (Decimal.ofInt (10 ^ places : Nat)).value = 10 ^ places := by
    rw [Decimal.value_ofInt]
    exact_mod_cast rfl
  refine ⟨⟨_, power _, calculate_toText_power_of_ten {} (by decide) (by decide)⟩, ?_⟩
  exact step_setDisplayScale_of_overflow {} (by decide)

end Calculator
end DecimalCalculator
