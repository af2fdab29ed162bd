/-
The text of a result identifies it.

In the text of a list every item ends where a separator or the closing bracket begins,
and a number is told from a list by its first character.  So the text of an item with
anything behind it fixes both the item and what is behind it, as long as no list holds a
number alone: this one list is written without its brackets.
-/

import DecimalCalculator.Proofs.Decimal.Forms
import DecimalCalculator.Proofs.Decimal.Shortest
import DecimalCalculator.Proofs.Decimal.Text
import DecimalCalculator.Proofs.Expression.Division
import DecimalCalculator.Proofs.Value.Final
import DecimalCalculator.Proofs.Value.Results

namespace DecimalCalculator

/-! ### Numbers -/

namespace Decimal

variable {number other : Decimal} {rest rest' : List Char}

def Stops (rest : List Char) : Prop :=
  ∀ char ∈ rest.head?, isNumeric char = false

theorem toChars_append_injective (fractional : 0 ≤ number.scale)
    (otherFractional : 0 ≤ other.scale) (stops : Stops rest) (stops' : Stops rest')
    (same : number.toChars ++ rest = other.toChars ++ rest') : number = other ∧ rest = rest' := by
  have first := takeWhile_append_stop (isNumeric_of_mem_toChars fractional) stops
  have second := takeWhile_append_stop (isNumeric_of_mem_toChars otherFractional) stops'
  rw [same] at first
  have numbers : number.toChars = other.toChars := first.1.symm.trans second.1
  exact ⟨toChars_injective fractional otherFractional numbers, first.2.symm.trans second.2⟩

theorem exists_toChars_eq_cons (fractional : 0 ≤ number.scale) :
    ∃ first more, number.toChars = first :: more ∧ isNumeric first = true := by
  obtain ⟨first, more, begins⟩ := List.exists_cons_of_ne_nil (toChars_ne_nil fractional)
  refine ⟨first, more, begins, isNumeric_of_mem_toChars fractional first ?_⟩
  rw [begins]
  exact List.mem_cons_self

end Decimal

namespace Value

open Decimal

variable {value other : Value} {items others : List Value} {rest rest' : List Char}

/-! ### Written lists -/

def chars (value : Value) : List Char :=
  value.toText.toList

/-- The characters behind an item of a written list, with the items that follow it. -/
def afterItem : List Value → List Char
  | [] => [')']
  | item :: more => ';' :: ' ' :: (item.chars ++ afterItem more)

theorem chars_number (number : Decimal) : (Value.number number).chars = number.toChars :=
  String.toList_ofList

theorem chars_scalar (number : Decimal) : (scalar number).chars = number.toChars :=
  String.toList_ofList

theorem intercalate_append_eq_afterItem (item : Value) (more : List Value) :
    [';', ' '].intercalate ((item :: more).map chars) ++ [')'] = item.chars ++ afterItem more := by
  induction more generalizing item with
  | nil => simp [afterItem]
  | cons next more ih =>
      have later := ih next
      rw [List.map_cons] at later
      rw [List.map_cons, List.map_cons, List.intercalate_cons_cons, List.append_assoc,
        List.append_assoc, later]
      rfl

theorem chars_list (several : (Value.list items).isScalar = false) :
    (Value.list items).chars = '(' :: ([';', ' '].intercalate (items.map chars) ++ [')']) := by
  rw [chars, toText_list several, renderItems_eq_map]
  simp only [String.toList_append, String.toList_intercalate, List.map_map]
  rfl

theorem chars_list_nil : (Value.list []).chars = ['(', ')'] := by
  rw [chars_list rfl]
  rfl

theorem chars_list_cons {item : Value} {more : List Value}
    (several : (Value.list (item :: more)).isScalar = false) :
    (Value.list (item :: more)).chars = '(' :: (item.chars ++ afterItem more) := by
  rw [chars_list several, intercalate_append_eq_afterItem]

theorem stops_afterItem (items : List Value) (rest : List Char) :
    Stops (afterItem items ++ rest) := by
  cases items with
  | nil =>
      intro char member
      cases member
      rfl
  | cons item more =>
      intro char member
      cases member
      rfl

/-! ### Items -/

structure IsWritten (value : Value) : Prop where
  item : value.isItem = true
  fractional : ∀ number ∈ value.flatten, 0 ≤ number.scale

theorem isWritten_list_iff : (Value.list items).IsWritten ↔
    (Value.list items).isScalar = false ∧ ∀ item ∈ items, item.IsWritten := by
  constructor
  · intro written
    rcases written with ⟨item, fractional⟩
    obtain ⟨several, every⟩ := isItem_list_iff.mp item
    refine ⟨several, fun inner member => ⟨every inner member, fun number inside => ?_⟩⟩
    exact fractional number (mem_flatten_list.mpr ⟨inner, member, inside⟩)
  · intro written
    rcases written with ⟨several, every⟩
    constructor
    · exact isItem_list_iff.mpr ⟨several, fun inner member => (every inner member).item⟩
    · intro number inside
      obtain ⟨inner, member, among⟩ := mem_flatten_list.mp inside
      exact (every inner member).fractional number among

theorem IsWritten.number {number : Decimal} (written : (Value.number number).IsWritten) :
    0 ≤ number.scale :=
  written.fractional number List.mem_cons_self

theorem exists_chars_eq_cons (written : value.IsWritten) :
    ∃ first more, value.chars = first :: more ∧
      ((∃ number, value = .number number) ∧ isNumeric first = true ∨
        (∃ items, value = .list items) ∧ first = '(') := by
  cases value with
  | number number =>
      obtain ⟨first, more, begins, numeric⟩ := exists_toChars_eq_cons written.number
      refine ⟨first, more, ?_, .inl ⟨⟨number, rfl⟩, numeric⟩⟩
      rw [chars_number, begins]
  | list items => exact ⟨_, _, chars_list (isWritten_list_iff.mp written).1, .inr ⟨⟨items, rfl⟩, rfl⟩⟩

theorem chars_ne_closing (written : value.IsWritten) :
    ')' :: rest ≠ value.chars ++ rest' := by
  obtain ⟨first, more, begins, kind⟩ := exists_chars_eq_cons written
  rw [begins]
  intro same
  rw [← (List.cons.inj same).1] at kind
  cases kind with
  | inl number => exact absurd number.2 (by decide)
  | inr list => exact absurd list.2 (by decide)

theorem chars_number_ne_list {number : Decimal} (fractional : 0 ≤ number.scale)
    (several : (Value.list items).isScalar = false) :
    number.toChars ++ rest ≠ (Value.list items).chars ++ rest' := by
  obtain ⟨first, more, begins, numeric⟩ := exists_toChars_eq_cons fractional
  rw [begins, chars_list several]
  intro same
  rw [(List.cons.inj same).1] at numeric
  exact absurd numeric (by decide)

/-- The text of the value, with whatever is behind it, fixes the value and what is behind. -/
def IsRecognized (value : Value) : Prop :=
  ∀ other rest rest', other.IsWritten → Stops rest → Stops rest' →
    value.chars ++ rest = other.chars ++ rest' → value = other ∧ rest = rest'

theorem afterItem_append_injective (recognized : ∀ item ∈ items, item.IsRecognized)
    (written : ∀ item ∈ others, item.IsWritten)
    (same : afterItem items ++ rest = afterItem others ++ rest') :
    items = others ∧ rest = rest' := by
  induction items generalizing others with
  | nil =>
      cases others with
      | nil => exact ⟨rfl, (List.cons.inj same).2⟩
      | cons other more => exact absurd (List.cons.inj same).1 (by decide)
  | cons item more ih =>
      cases others with
      | nil => exact absurd (List.cons.inj same).1 (by decide)
      | cons other others =>
          rw [List.forall_mem_cons] at recognized written
          simp only [afterItem, List.cons_append, List.append_assoc, List.cons.injEq,
            true_and] at same
          obtain ⟨first, later⟩ := recognized.1 other _ _ written.1
            (stops_afterItem more rest) (stops_afterItem others rest') same
          obtain ⟨equal, behind⟩ := ih recognized.2 written.2 later
          exact ⟨congrArg₂ List.cons first equal, behind⟩

theorem chars_list_append_injective (recognized : ∀ item ∈ items, item.IsRecognized)
    (left : (Value.list items).IsWritten) (right : (Value.list others).IsWritten)
    (same : (Value.list items).chars ++ rest = (Value.list others).chars ++ rest') :
    items = others ∧ rest = rest' := by
  obtain ⟨several, every⟩ := isWritten_list_iff.mp left
  obtain ⟨several', every'⟩ := isWritten_list_iff.mp right
  cases items with
  | nil =>
      cases others with
      | nil =>
          rw [List.append_cancel_left_eq] at same
          exact ⟨rfl, same⟩
      | cons other more =>
          rw [chars_list_nil, chars_list_cons several'] at same
          simp only [List.cons_append, List.nil_append, List.append_assoc, List.cons.injEq,
            true_and] at same
          exact absurd same (chars_ne_closing (every' other List.mem_cons_self))
  | cons item more =>
      cases others with
      | nil =>
          rw [chars_list_nil, chars_list_cons several] at same
          simp only [List.cons_append, List.nil_append, List.append_assoc, List.cons.injEq,
            true_and] at same
          exact absurd same.symm (chars_ne_closing (every item List.mem_cons_self))
      | cons other others =>
          rw [chars_list_cons several, chars_list_cons several'] at same
          apply afterItem_append_injective recognized every'
          simp only [afterItem, List.cons_append, List.append_assoc, List.cons.injEq,
            true_and] at same ⊢
          exact same

theorem isRecognized (written : value.IsWritten) : value.IsRecognized := by
  induction value with
  | number number =>
      intro other rest rest' otherWritten stops stops' same
      cases other with
      | number form =>
          rw [chars_number, chars_number] at same
          obtain ⟨equal, behind⟩ := toChars_append_injective written.number otherWritten.number
            stops stops' same
          exact ⟨congrArg Value.number equal, behind⟩
      | list others =>
          rw [chars_number] at same
          exact absurd same
            (chars_number_ne_list written.number (isWritten_list_iff.mp otherWritten).1)
  | list items ih =>
      intro other rest rest' otherWritten stops stops' same
      have every := (isWritten_list_iff.mp written).2
      cases other with
      | number form =>
          rw [chars_number] at same
          exact absurd same.symm
            (chars_number_ne_list otherWritten.number (isWritten_list_iff.mp written).1)
      | list others =>
          obtain ⟨equal, behind⟩ := chars_list_append_injective
            (fun item member => ih item member (every item member)) written otherWritten same
          exact ⟨congrArg Value.list equal, behind⟩

/-! ### Results -/

theorem scalar_or_isItem (shaped : value.isResult = true) :
    (∃ number, value = scalar number) ∨ ∃ items, value = .list items ∧ value.isItem = true := by
  obtain ⟨items, rfl⟩ := exists_items_of_isResult shaped
  cases single : (Value.list items).isScalar with
  | true => exact Or.inl (isScalar_iff.mp single)
  | false => exact Or.inr ⟨items, rfl, isItem_list_iff.mpr ⟨single, isResult_list_iff.mp shaped⟩⟩

/-- Results whose numbers need no zeros behind their digits are written alike only if
they are the same. -/
theorem toText_injective (leftShaped : value.isResult = true) (rightShaped : other.isResult = true)
    (leftFractional : ∀ number ∈ value.flatten, 0 ≤ number.scale)
    (rightFractional : ∀ number ∈ other.flatten, 0 ≤ number.scale)
    (same : value.toText = other.toText) : value = other := by
  have characters : value.chars ++ [] = other.chars ++ [] := by rw [chars, chars, same]
  have stops : Stops [] := fun char absent => nomatch absent
  rcases scalar_or_isItem leftShaped with ⟨number, rfl⟩ | ⟨items, rfl, item⟩
  · have first := leftFractional number List.mem_cons_self
    rw [chars_scalar] at characters
    rcases scalar_or_isItem rightShaped with ⟨form, rfl⟩ | ⟨others, rfl, otherItem⟩
    · have second := rightFractional form List.mem_cons_self
      rw [chars_scalar] at characters
      rw [(toChars_append_injective first second stops stops characters).1]
    · exact absurd characters (chars_number_ne_list first (isItem_list_iff.mp otherItem).1)
  · rcases scalar_or_isItem rightShaped with ⟨form, rfl⟩ | ⟨others, rfl, otherItem⟩
    · have second := rightFractional form List.mem_cons_self
      rw [chars_scalar] at characters
      exact absurd characters.symm (chars_number_ne_list second (isItem_list_iff.mp item).1)
    · exact (isRecognized ⟨item, leftFractional⟩ _ _ _ ⟨otherItem, rightFractional⟩ stops stops
        characters).1

/-! ### Equality of the numbers -/

theorem sameItems_iff : sameItems items others = true ↔
    List.Forall₂ (fun item other => item.sameValue other = true) items others := by
  induction items generalizing others with
  | nil =>
      cases others with
      | nil => exact iff_of_true rfl .nil
      | cons other more => exact iff_of_false Bool.false_ne_true nofun
  | cons item rest ih =>
      cases others with
      | nil => exact iff_of_false Bool.false_ne_true nofun
      | cons other more => rw [sameItems, Bool.and_eq_true, ih, List.forall₂_cons]

theorem forall₂_iff_eq {related : Value → Value → Prop}
    (every : ∀ item ∈ items, ∀ other ∈ others, related item other ↔ item = other) :
    List.Forall₂ related items others ↔ items = others := by
  induction items generalizing others with
  | nil => rw [List.forall₂_nil_left_iff, eq_comm]
  | cons item rest ih =>
      cases others with
      | nil => exact iff_of_false nofun nofun
      | cons other more =>
          have later := ih fun inner member image among =>
            every inner (List.mem_cons_of_mem item member) image (List.mem_cons_of_mem other among)
          rw [List.forall₂_cons, List.cons.injEq, later,
            every item List.mem_cons_self other List.mem_cons_self]

theorem isReduced_of_strip_eq {number : Decimal} (shortest : number.strip = number) :
    number.IsReduced :=
  shortest ▸ isReduced_strip number

theorem sameValue_iff_eq_of_reduced {number form : Decimal} (first : number.IsReduced)
    (second : form.IsReduced) : number.sameValue form = true ↔ number = form := by
  have comparable : Comparable number form :=
    fun _ => ⟨.of_nonneg first.nonneg, .of_nonneg second.nonneg⟩
  rw [Decimal.sameValue_iff comparable]
  constructor
  · exact first.eq_of_value_eq second
  · intro same
    rw [same]

theorem sameValue_iff_eq (left : ∀ number ∈ value.flatten, number.IsReduced)
    (right : ∀ number ∈ other.flatten, number.IsReduced) :
    value.sameValue other = true ↔ value = other := by
  induction value generalizing other with
  | number number =>
      cases other with
      | number form =>
          rw [sameValue, Value.number.injEq]
          exact sameValue_iff_eq_of_reduced (left number List.mem_cons_self)
            (right form List.mem_cons_self)
      | list others => exact iff_of_false Bool.false_ne_true nofun
  | list items ih =>
      cases other with
      | number form => exact iff_of_false Bool.false_ne_true nofun
      | list others =>
          rw [sameValue, sameItems_iff, Value.list.injEq]
          apply forall₂_iff_eq
          intro item member image among
          apply ih item member
          · intro number inside
            exact left number (mem_flatten_list.mpr ⟨item, member, inside⟩)
          · intro form inside
            exact right form (mem_flatten_list.mpr ⟨image, among, inside⟩)

/-- Two results in shortest form are written alike exactly if they are equal, number by
number and then also in every form. -/
theorem toText_eq_iff_sameValue (left right : Value) (leftShaped : left.isResult = true)
    (rightShaped : right.isResult = true)
    (leftShortest : ∀ number ∈ left.flatten, number.strip = number)
    (rightShortest : ∀ number ∈ right.flatten, number.strip = number) :
    (left.toText = right.toText ↔ left.sameValue right = true) ∧
      (left.sameValue right = true ↔ left = right) := by
  have first : ∀ number ∈ left.flatten, number.IsReduced :=
    fun number member => isReduced_of_strip_eq (leftShortest number member)
  have second : ∀ number ∈ right.flatten, number.IsReduced :=
    fun number member => isReduced_of_strip_eq (rightShortest number member)
  have equal := sameValue_iff_eq first second
  refine ⟨?_, equal⟩
  rw [equal]
  constructor
  · exact toText_injective leftShaped rightShaped (fun number member => (first number member).nonneg)
      (fun number member => (second number member).nonneg)
  · intro same
    rw [same]

theorem toText_eq_iff_sameValue_list_in_list :
    ((Value.list [.list [.number ⟨-15, 1⟩, .list []]]).isResult = true ∧
      (Value.list [.number ⟨-15, 1⟩, .list []]).isResult = true ∧
      (∀ number ∈ (Value.list [.list [.number ⟨-15, 1⟩, .list []]]).flatten,
        number.strip = number) ∧
      ∀ number ∈ (Value.list [.number ⟨-15, 1⟩, .list []]).flatten, number.strip = number) ∧
    (Value.list [.list [.number ⟨-15, 1⟩, .list []]]).toText ≠
      (Value.list [.number ⟨-15, 1⟩, .list []]).toText := by
  have shapes : (Value.list [.list [.number ⟨-15, 1⟩, .list []]]).isResult = true ∧
      (Value.list [.number ⟨-15, 1⟩, .list []]).isResult = true := ⟨rfl, rfl⟩
  have shortest : ∀ number ∈ [(⟨-15, 1⟩ : Decimal)], number.strip = number := by decide
  have different : (Value.list [.list [.number ⟨-15, 1⟩, .list []]]).sameValue
      (Value.list [.number ⟨-15, 1⟩, .list []]) = false := rfl
  refine ⟨⟨shapes.1, shapes.2, shortest, shortest⟩, ?_⟩
  rw [Ne, (toText_eq_iff_sameValue _ _ shapes.1 shapes.2 shortest shortest).1, different]
  exact Bool.false_ne_true

end Value
end DecimalCalculator
