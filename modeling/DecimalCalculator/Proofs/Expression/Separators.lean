/-
Separators in a row.

A separator directly behind another one adds only an empty item, and lists hold no empty
items.  Texts that differ only in the lengths of their runs of separators expose the same
characters, are divided in the same way up to such lengths, and read as the same tree.
-/

import DecimalCalculator.Proofs.Expression.Conservation
import DecimalCalculator.Proofs.Expression.Replacement

namespace DecimalCalculator

variable {tables : SymbolTables} {text new old left right run : List Char}
  {tree : Option Expression}

/-! ### Squeezed texts -/

/-- A text without the separators that have another one directly behind them. -/
def squeezed : List Char → List Char
  | [] => []
  | char :: rest =>
      if char = listSeparator ∧ rest.head? = some listSeparator then squeezed rest
      else char :: squeezed rest

theorem squeezed_of_followed {char : Char} {rest : List Char} (separates : char = listSeparator)
    (followed : rest.head? = some listSeparator) : squeezed (char :: rest) = squeezed rest := by
  rw [squeezed, if_pos ⟨separates, followed⟩]

theorem squeezed_of_kept {char : Char} {rest : List Char}
    (kept : ¬(char = listSeparator ∧ rest.head? = some listSeparator)) :
    squeezed (char :: rest) = char :: squeezed rest := by
  rw [squeezed, if_neg kept]

theorem head?_squeezed (text : List Char) : (squeezed text).head? = text.head? := by
  induction text with
  | nil => rfl
  | cons char rest ih =>
      by_cases removed : char = listSeparator ∧ rest.head? = some listSeparator
      · rw [squeezed_of_followed removed.1 removed.2, ih, removed.2, removed.1, List.head?_cons]
      · rw [squeezed_of_kept removed, List.head?_cons, List.head?_cons]

theorem squeezed_eq_nil_iff : squeezed text = [] ↔ text = [] := by
  rw [← List.head?_eq_none_iff, head?_squeezed, List.head?_eq_none_iff]

theorem getLast?_squeezed (text : List Char) : (squeezed text).getLast? = text.getLast? := by
  induction text with
  | nil => rfl
  | cons char rest ih =>
      by_cases removed : char = listSeparator ∧ rest.head? = some listSeparator
      · have more : rest ≠ [] := by
          intro empty
          rw [empty] at removed
          cases removed.2
        rw [squeezed_of_followed removed.1 removed.2, ih, List.getLast?_cons_of_ne_nil more]
      · rw [squeezed_of_kept removed, List.getLast?_cons, List.getLast?_cons, ih]

theorem squeezed_append (front : List Char) (same : squeezed new = squeezed old) :
    squeezed (front ++ new) = squeezed (front ++ old) := by
  induction front with
  | nil => exact same
  | cons char rest ih =>
      have heads : (rest ++ new).head? = (rest ++ old).head? := by
        rw [← head?_squeezed, ih, head?_squeezed]
      rw [List.cons_append, List.cons_append, squeezed, squeezed, heads, ih]

/-! ### Characters that are no separators -/

theorem head?_append_cons_iff {char : Char} (different : char ≠ listSeparator)
    (left right : List Char) :
    (left ++ char :: right).head? = some listSeparator ↔ left.head? = some listSeparator := by
  cases left with
  | nil => simp [different]
  | cons first rest => exact Iff.rfl

theorem squeezed_append_cons {char : Char} (different : char ≠ listSeparator)
    (left right : List Char) :
    squeezed (left ++ char :: right) = squeezed left ++ char :: squeezed right := by
  induction left with
  | nil => exact squeezed_of_kept fun removed => different removed.1
  | cons first rest ih =>
      simp only [List.cons_append, squeezed, head?_append_cons_iff different, ih]
      split <;> rfl

theorem exists_of_squeezed_eq_append_cons {char : Char} (different : char ≠ listSeparator)
    (split : squeezed new = left ++ char :: right) :
    ∃ newLeft newRight, new = newLeft ++ char :: newRight ∧
      squeezed newLeft = left ∧ squeezed newRight = right := by
  induction new generalizing left with
  | nil => exact absurd split.symm (List.append_ne_nil_of_right_ne_nil _ (List.cons_ne_nil _ _))
  | cons first rest ih =>
      by_cases removed : first = listSeparator ∧ rest.head? = some listSeparator
      · rw [squeezed_of_followed removed.1 removed.2] at split
        obtain ⟨newLeft, newRight, rfl, sameLeft, sameRight⟩ := ih split
        have followed := (head?_append_cons_iff different _ _).mp removed.2
        exact ⟨first :: newLeft, newRight, rfl,
          (squeezed_of_followed removed.1 followed).trans sameLeft, sameRight⟩
      · rw [squeezed_of_kept removed] at split
        cases left with
        | nil =>
            obtain ⟨same, sameRight⟩ := List.cons.inj split
            exact ⟨[], rest, congrArg (· :: rest) same, rfl, sameRight⟩
        | cons other more =>
            obtain ⟨same, later⟩ := List.cons.inj split
            obtain ⟨newLeft, newRight, rfl, sameLeft, sameRight⟩ := ih later
            rw [head?_append_cons_iff different] at removed
            exact ⟨first :: newLeft, newRight, rfl,
              (squeezed_of_kept removed).trans (by rw [same, sameLeft]), sameRight⟩

theorem exists_of_squeezed_append_cons {char : Char} (different : char ≠ listSeparator)
    (same : squeezed new = squeezed (left ++ char :: right)) :
    ∃ newLeft newRight, new = newLeft ++ char :: newRight ∧
      squeezed newLeft = squeezed left ∧ squeezed newRight = squeezed right :=
  exists_of_squeezed_eq_append_cons different
    (same.trans (squeezed_append_cons different left right))

theorem exists_of_squeezed_cons {char : Char} (different : char ≠ listSeparator)
    (same : squeezed new = squeezed (char :: right)) :
    ∃ newRight, new = char :: newRight ∧ squeezed newRight = squeezed right := by
  rw [← List.nil_append (char :: right)] at same
  obtain ⟨newLeft, newRight, rfl, nothing, sameRight⟩ :=
    exists_of_squeezed_append_cons different same
  rw [squeezed_eq_nil_iff.mp nothing]
  exact ⟨newRight, rfl, sameRight⟩

theorem exists_of_squeezed_run_append (kept : ∀ char ∈ run, char ≠ listSeparator)
    (same : squeezed new = squeezed (run ++ right)) :
    ∃ newRight, new = run ++ newRight ∧ squeezed newRight = squeezed right := by
  induction run generalizing new with
  | nil => exact ⟨new, rfl, same⟩
  | cons char rest ih =>
      obtain ⟨behind, rfl, sameBehind⟩ :=
        exists_of_squeezed_cons (kept char List.mem_cons_self) same
      obtain ⟨newRight, rfl, sameRight⟩ :=
        ih (fun other member => kept other (List.mem_cons_of_mem char member)) sameBehind
      exact ⟨newRight, rfl, sameRight⟩

theorem eq_of_squeezed_eq (kept : ∀ char ∈ run, char ≠ listSeparator)
    (same : squeezed new = squeezed run) : new = run := by
  rw [← List.append_nil run] at same
  obtain ⟨newRight, rfl, nothing⟩ := exists_of_squeezed_run_append kept same
  rw [squeezed_eq_nil_iff.mp nothing, List.append_nil]

theorem exists_of_squeezed_append_run (kept : ∀ char ∈ run, char ≠ listSeparator)
    (same : squeezed new = squeezed (left ++ run)) :
    ∃ newLeft, new = newLeft ++ run ∧ squeezed newLeft = squeezed left := by
  cases run with
  | nil =>
      rw [List.append_nil] at same
      exact ⟨new, (List.append_nil new).symm, same⟩
  | cons char rest =>
      obtain ⟨newLeft, behind, rfl, sameLeft, sameBehind⟩ :=
        exists_of_squeezed_append_cons (kept char List.mem_cons_self) same
      rw [eq_of_squeezed_eq (fun other member => kept other (List.mem_cons_of_mem char member))
        sameBehind]
      exact ⟨newLeft, rfl, sameLeft⟩

/-! ### Nesting and exposed characters -/

theorem nestingThrough?_squeezed (plain : isBracket tables listSeparator = false)
    (opened : List Nat) (text : List Char) :
    nestingThrough? tables opened (squeezed text) = nestingThrough? tables opened text := by
  induction text generalizing opened with
  | nil => rfl
  | cons char rest ih =>
      by_cases removed : char = listSeparator ∧ rest.head? = some listSeparator
      · rw [squeezed_of_followed removed.1 removed.2, ih, removed.1, nestingThrough?,
          nestingAfter?_of_not_isBracket plain, Option.bind_some]
      · rw [squeezed_of_kept removed, nestingThrough?, nestingThrough?]
        congr 1
        funext nesting
        exact ih nesting

theorem mem_exposed_squeezed (plain : isBracket tables listSeparator = false) {char : Char}
    (depth : Nat) (text : List Char) :
    char ∈ exposed tables depth (squeezed text) ↔ char ∈ exposed tables depth text := by
  induction text generalizing depth with
  | nil => exact Iff.rfl
  | cons first rest ih =>
      by_cases removed : first = listSeparator ∧ rest.head? = some listSeparator
      · obtain ⟨rfl, followed⟩ := removed
        rw [squeezed_of_followed rfl followed, ih, exposed, depthAfter_of_not_isBracket plain]
        split
        · rename_i outside
          obtain ⟨more, rfl⟩ := List.head?_eq_some_iff.mp followed
          rw [List.mem_cons, or_iff_right_of_imp]
          rintro rfl
          exact mem_exposed_of_isExposed outside
        · exact Iff.rfl
      · rw [squeezed_of_kept removed]
        simp only [exposed]
        split
        · rw [List.mem_cons, List.mem_cons, ih]
        · exact ih _

theorem mem_exposed_of_squeezed_eq (usable : tables.Unambiguous)
    (same : squeezed new = squeezed old) {char : Char} (outside : char ∈ exposed tables 0 new) :
    char ∈ exposed tables 0 old := by
  rw [← mem_exposed_squeezed usable.isBracket_separator] at outside ⊢
  exact same ▸ outside

theorem Replaces.of_squeezed_eq (usable : tables.Unambiguous) (balanced : IsBalanced tables old)
    (same : squeezed new = squeezed old) : Replaces tables new old := by
  refine ⟨?_, fun char outside => mem_exposed_of_squeezed_eq usable same outside⟩
  rw [IsBalanced, ← nestingThrough?_squeezed usable.isBracket_separator, same,
    nestingThrough?_squeezed usable.isBracket_separator]
  exact balanced

/-! ### Readings of items -/

/-- The trees of the items of a text, which may be a single item. -/
inductive ReadsItems (tables : SymbolTables) : List Char → List Expression → Prop where
  | last {item : List Char} {tree : Option Expression} (single : IsItem tables item)
      (reads : Reads tables item tree) : ReadsItems tables item tree.toList
  | more {item rest : List Char} {tree : Option Expression} {trees : List Expression}
      (single : IsItem tables item) (reads : Reads tables item tree)
      (behind : ReadsItems tables rest trees) :
      ReadsItems tables (item ++ listSeparator :: rest) (tree.toList ++ trees)

/-! ### Items in a row -/

theorem Reads.eq_nothing (reads : Reads tables text tree) (empty : text = []) : tree = none := by
  cases tree with
  | none => rfl
  | some tree => exact absurd empty reads.ne_nil

theorem IsItem.nil : IsItem tables [] :=
  ⟨.nil, List.not_mem_nil⟩

theorem IsItem.head?_ne (usable : tables.Unambiguous) (single : IsItem tables text) :
    text.head? ≠ some listSeparator := by
  intro head
  obtain ⟨rest, rfl⟩ := List.head?_eq_some_iff.mp head
  refine single.undivided (mem_exposed_of_isExposed ?_)
  rw [isExposed, usable.isBracket_separator]
  rfl

theorem IsItem.getLast?_ne (usable : tables.Unambiguous) (single : IsItem tables text) :
    text.getLast? ≠ some listSeparator := by
  intro last
  rcases single.balanced.exposed_or_closes_last listSeparator last with outside | ⟨-, closes⟩
  · exact single.undivided outside
  · exact absurd rfl
      (usable.ne_separator_of_isBracket (SymbolTables.isBracket_of_closesBracket closes))

theorem IsItem.of_squeezed_eq (usable : tables.Unambiguous) (single : IsItem tables old)
    (same : squeezed new = squeezed old) : IsItem tables new :=
  single.of_replaces (.of_squeezed_eq usable single.balanced same)

namespace ReadsItems

variable {trees : List Expression}

theorem behind_separators (items : ReadsItems tables text trees) (count : Nat) :
    ReadsItems tables (List.replicate count listSeparator ++ text) trees := by
  induction count with
  | zero => exact items
  | succ count ih =>
      rw [List.replicate_succ, List.cons_append]
      exact .more .nil .nothing ih

theorem exists_readings (items : ReadsItems tables text trees) :
    ∃ (first : List Char × Option Expression) (others : List (List Char × Option Expression)),
      text = joinedItems first.1 (others.map Prod.fst) ∧
        trees = (first :: others).filterMap Prod.snd ∧
        (∀ item ∈ first :: others, IsItem tables item.1) ∧
        ∀ item ∈ first :: others, Reads tables item.1 item.2 := by
  induction items with
  | @last item tree single reads =>
      refine ⟨(item, tree), [], (List.append_nil item).symm, ?_, ?_, ?_⟩
      · cases tree <;> rfl
      · exact fun other member => List.mem_singleton.mp member ▸ single
      · exact fun other member => List.mem_singleton.mp member ▸ reads
  | @more item rest tree trees single reads _ ih =>
      obtain ⟨first, others, rfl, rfl, items, every⟩ := ih
      refine ⟨(item, tree), first :: others, (joinedItems_cons _ _ _).symm, ?_,
        List.forall_mem_cons.mpr ⟨single, items⟩, List.forall_mem_cons.mpr ⟨reads, every⟩⟩
      cases tree <;> rfl

theorem reads (items : ReadsItems tables text trees)
    (separates : listSeparator ∈ exposed tables 0 text) :
    Reads tables text (some (.list trees)) := by
  obtain ⟨first, others, rfl, rfl, items, every⟩ := items.exists_readings
  refine .list ?_ items every
  rintro rfl
  rw [List.map_nil, joinedItems, List.flatMap_nil, List.append_nil] at separates
  exact (items first List.mem_cons_self).undivided separates

end ReadsItems

theorem exists_of_squeezed_separator_cons (starts : old.head? ≠ some listSeparator)
    (same : squeezed (listSeparator :: new) = squeezed (listSeparator :: old)) :
    ∃ count rest, new = List.replicate count listSeparator ++ rest ∧
      squeezed rest = squeezed old := by
  induction new with
  | nil =>
      rw [squeezed_of_kept fun removed => starts removed.2] at same
      exact ⟨0, [], rfl, (List.cons.inj same).2⟩
  | cons char more ih =>
      by_cases separates : char = listSeparator
      · subst separates
        rw [squeezed_of_followed rfl rfl] at same
        obtain ⟨count, rest, rfl, sameRest⟩ := ih same
        exact ⟨count + 1, rest, rfl, sameRest⟩
      · have apart : ¬(listSeparator = listSeparator ∧
            (char :: more).head? = some listSeparator) :=
          fun removed => separates (Option.some.inj removed.2)
        rw [squeezed_of_kept fun removed => starts removed.2, squeezed_of_kept apart] at same
        exact ⟨0, char :: more, rfl, (List.cons.inj same).2⟩

/-- A text is split at a separator behind another character as a text from which it differs
only in runs of separators. -/
theorem exists_of_squeezed_append_separator (ends : left.getLast? ≠ some listSeparator)
    (same : squeezed new = squeezed (left ++ listSeparator :: right)) :
    ∃ newLeft newRight, new = newLeft ++ listSeparator :: newRight ∧
      squeezed newLeft = squeezed left ∧
      squeezed (listSeparator :: newRight) = squeezed (listSeparator :: right) := by
  have follows : ∀ behind : List Char,
      squeezed behind = squeezed (listSeparator :: right) →
        ∃ newRight, behind = listSeparator :: newRight := by
    intro behind sameBehind
    rw [← List.head?_eq_some_iff, ← head?_squeezed, sameBehind, head?_squeezed]
    rfl
  rcases List.eq_nil_or_concat' left with rfl | ⟨front, char, rfl⟩
  · obtain ⟨newRight, rfl⟩ := follows new same
    exact ⟨[], newRight, rfl, rfl, same⟩
  · rw [List.getLast?_concat] at ends
    have different : char ≠ listSeparator := fun separates => ends (congrArg some separates)
    rw [List.append_assoc, List.cons_append, List.nil_append] at same
    obtain ⟨newFront, behind, rfl, sameFront, sameBehind⟩ :=
      exists_of_squeezed_append_cons different same
    obtain ⟨newRight, rfl⟩ := follows behind sameBehind
    refine ⟨newFront ++ [char], newRight, by simp, ?_, sameBehind⟩
    rw [squeezed_append_cons different, squeezed_append_cons different, sameFront]

/-- If the items read as they did whatever the lengths of the runs of separators in them, so
do the items in a row. -/
theorem readsItems_of_squeezed_eq (usable : tables.Unambiguous)
    {first : List Char × Option Expression} {others : List (List Char × Option Expression)}
    (items : ∀ item ∈ first :: others, IsItem tables item.1)
    (every : ∀ item ∈ first :: others, ∀ new, squeezed new = squeezed item.1 →
      Reads tables new item.2)
    (same : squeezed (listSeparator :: new) =
      squeezed (listSeparator :: joinedItems first.1 (others.map Prod.fst))) :
    ReadsItems tables new ((first :: others).filterMap Prod.snd) := by
  induction others generalizing first new with
  | nil =>
      have single := items first List.mem_cons_self
      rw [List.map_nil, joinedItems, List.flatMap_nil, List.append_nil] at same
      obtain ⟨count, item, rfl, sameItem⟩ :=
        exists_of_squeezed_separator_cons (single.head?_ne usable) same
      have alone : [first].filterMap Prod.snd = first.2.toList := by
        cases found : first.2 <;> simp [found]
      rw [alone]
      exact (ReadsItems.last (single.of_squeezed_eq usable sameItem)
        (every first List.mem_cons_self item sameItem)).behind_separators count
  | cons other more ih =>
      have single := items first List.mem_cons_self
      have later := fun new => @ih new other
        (fun item member => items item (List.mem_cons_of_mem first member))
        (fun item member => every item (List.mem_cons_of_mem first member))
      have together : (first :: other :: more).filterMap Prod.snd =
          first.2.toList ++ (other :: more).filterMap Prod.snd := by
        cases found : first.2 <;> simp [found]
      rw [List.map_cons, joinedItems_cons] at same
      rw [together]
      by_cases empty : first.1 = []
      · have reads := every first List.mem_cons_self [] (by rw [empty])
        rw [reads.eq_nothing rfl]
        rw [empty, List.nil_append] at same
        exact later new (same.trans (squeezed_of_followed rfl rfl))
      · have starts : (first.1 ++ listSeparator ::
            joinedItems other.1 (more.map Prod.fst)).head? ≠ some listSeparator := by
          rw [List.head?_append_of_ne_nil _ empty]
          exact single.head?_ne usable
        obtain ⟨count, rest, rfl, sameRest⟩ := exists_of_squeezed_separator_cons starts same
        obtain ⟨item, newRest, rfl, sameItem, sameLater⟩ :=
          exists_of_squeezed_append_separator (single.getLast?_ne usable) sameRest
        exact (ReadsItems.more (single.of_squeezed_eq usable sameItem)
          (every first List.mem_cons_self item sameItem)
          (later newRest sameLater)).behind_separators count

/-! ### Readings -/

namespace Divides

theorem enclosed_of_squeezed_eq (usable : tables.Unambiguous) {kind : Nat} {content : Piece}
    (divides : Divides tables text (.enclosed kind content))
    (balanced : IsBalanced tables content.chars) (same : squeezed new = squeezed text) :
    ∃ inner, squeezed inner = squeezed content.chars ∧
      Divides tables new (.enclosed kind ⟨1, inner⟩) := by
  cases divides with
  | @enclosed opening closing kind content enclosing =>
      have opens := SymbolTables.isBracket_of_opensBracket enclosing.opens
      have closes := SymbolTables.isBracket_of_closesBracket enclosing.closes
      obtain ⟨behind, rfl, sameBehind⟩ :=
        exists_of_squeezed_cons (usable.ne_separator_of_isBracket opens) same
      obtain ⟨inner, nothing, rfl, sameInner, empty⟩ :=
        exists_of_squeezed_append_cons (usable.ne_separator_of_isBracket closes) sameBehind
      rw [squeezed_eq_nil_iff.mp empty]
      have replaces := Replaces.of_squeezed_eq usable balanced sameInner
      exact ⟨inner, sameInner, enclosing.divides balanced replaces.balanced⟩

theorem leading_of_squeezed_eq (usable : tables.Unambiguous) {symbol : Char} {operand : Piece}
    (divides : Divides tables text (.leading symbol operand))
    (same : squeezed new = squeezed text) :
    ∃ right, squeezed right = squeezed operand.chars ∧
      Divides tables new (.leading symbol ⟨1, right⟩) := by
  cases divides with
  | @leading _ priority right last undivided =>
      have operator : tables.priority? symbol = some priority := last.operator
      obtain ⟨newRight, rfl, sameRight⟩ :=
        exists_of_squeezed_cons (usable.ne_separator_of_priority? operator) same
      refine ⟨newRight, sameRight, .leading (last.of_replaces .nil
        (.of_squeezed_eq usable last.right sameRight)) ?_⟩
      exact mt (mem_exposed_of_squeezed_eq usable same) undivided

theorem binary_of_squeezed_eq (usable : tables.Unambiguous) {symbol : Char} {position : Nat}
    {left right : Piece} (divides : Divides tables text (.binary symbol position left right))
    (same : squeezed new = squeezed text) :
    ∃ newLeft newRight, squeezed newLeft = squeezed left.chars ∧
      squeezed newRight = squeezed right.chars ∧ Divides tables new
        (.binary symbol newLeft.length ⟨0, newLeft⟩ ⟨newLeft.length + 1, newRight⟩) := by
  cases divides with
  | @binary left right _ priority nonempty last undivided =>
      have operator : tables.priority? symbol = some priority := last.operator
      obtain ⟨newLeft, newRight, rfl, sameLeft, sameRight⟩ :=
        exists_of_squeezed_append_cons (usable.ne_separator_of_priority? operator) same
      refine ⟨newLeft, newRight, sameLeft, sameRight, .binary ?_ (last.of_replaces
        (.of_squeezed_eq usable last.left sameLeft)
        (.of_squeezed_eq usable last.right sameRight)) ?_⟩
      · intro empty
        rw [empty] at sameLeft
        exact nonempty (squeezed_eq_nil_iff.mp sameLeft.symm)
      · exact mt (mem_exposed_of_squeezed_eq usable same) undivided

theorem function_of_squeezed_eq (usable : tables.Unambiguous) {name : List Char}
    {nameSuffix operand : Piece}
    (divides : Divides tables text (.function name nameSuffix operand))
    (same : squeezed new = squeezed text) :
    ∃ newOperand, squeezed newOperand = squeezed operand.chars ∧
      Divides tables new (.function name ⟨name.length, nameSuffix.chars⟩
        ⟨name.length + nameSuffix.chars.length, newOperand⟩) := by
  have plain := divides.plain_suffix usable
  have balanced := (divides.isUndivided_of_piece usable rfl (divides.isUndivided rfl)
    (List.mem_cons_of_mem _ List.mem_cons_self)).balanced
  have replaced := fun (other : List Char) (replaces : Replaces tables other operand.chars) =>
    divides.function_of_replaces usable replaces
  cases divides with
  | function _ letters =>
      obtain ⟨behind, rfl, sameBehind⟩ := exists_of_squeezed_run_append
        (fun char member => SymbolTables.ne_separator_of_isLetter (letters char member)) same
      obtain ⟨newOperand, rfl, sameOperand⟩ := exists_of_squeezed_run_append
        (fun char member => (plain char member).2.2) sameBehind
      have heads := head?_squeezed newOperand
      rw [sameOperand, head?_squeezed] at heads
      exact ⟨newOperand, sameOperand,
        (replaced newOperand (.of_squeezed_eq usable balanced sameOperand) heads.symm).1⟩

theorem suffix_of_squeezed_eq (usable : tables.Unambiguous) {symbol : Char} {count : Nat}
    {operand : Piece} (divides : Divides tables text (.suffix symbol count operand))
    (same : squeezed new = squeezed text) :
    ∃ newOperand, squeezed newOperand = squeezed operand.chars ∧
      Divides tables new (.suffix symbol count ⟨0, newOperand⟩) := by
  have balanced := (divides.isUndivided_of_piece usable rfl (divides.isUndivided rfl)
    List.mem_cons_self).balanced
  have replaced := fun (other : List Char) (replaces : Replaces tables other operand.chars) =>
    divides.suffix_of_replaces usable replaces
  cases divides with
  | suffix _ isSuffix =>
      have belongs : Partition.belongsToSuffix tables symbol = true := by
        rw [Partition.belongsToSuffix, isSuffix, Bool.or_true]
      have different := (usable.plain_of_belongsToSuffix belongs).2.2
      obtain ⟨newOperand, rfl, sameOperand⟩ := exists_of_squeezed_append_run
        (fun char member => List.eq_of_mem_replicate member ▸ different) same
      have heads := head?_squeezed newOperand
      have lasts := getLast?_squeezed newOperand
      rw [sameOperand, head?_squeezed] at heads
      rw [sameOperand, getLast?_squeezed] at lasts
      exact ⟨newOperand, sameOperand, (replaced newOperand
        (.of_squeezed_eq usable balanced sameOperand) ⟨heads.symm, lasts.symm⟩).1⟩

end Divides

namespace Reads

theorem of_squeezed_eq (usable : tables.Unambiguous) (reads : Reads tables text tree) :
    ∀ new, squeezed new = squeezed text → Reads tables new tree := by
  induction reads with
  | nothing =>
      intro new same
      rw [squeezed_eq_nil_iff.mp same]
      exact .nothing
  | brackets divides reads inside =>
      intro new same
      obtain ⟨inner, sameInner, newDivides⟩ :=
        divides.enclosed_of_squeezed_eq usable (reads.isBalanced usable) same
      exact .brackets newDivides (inside inner sameInner)
  | @list first others several items every ih =>
      intro new same
      have separates := (Reads.list several items every).separator_mem_exposed usable _ rfl
      have trees := readsItems_of_squeezed_eq usable items ih (squeezed_append [listSeparator] same)
      exact trees.reads (mem_exposed_of_squeezed_eq usable same.symm separates)
  | positive divides _ behind =>
      intro new same
      obtain ⟨right, sameRight, newDivides⟩ := divides.leading_of_squeezed_eq usable same
      exact .positive newDivides (behind right sameRight)
  | negative divides _ behind =>
      intro new same
      obtain ⟨right, sameRight, newDivides⟩ := divides.leading_of_squeezed_eq usable same
      exact .negative newDivides (behind right sameRight)
  | operator divides _ _ first second =>
      intro new same
      obtain ⟨left, right, sameLeft, sameRight, newDivides⟩ :=
        divides.binary_of_squeezed_eq usable same
      exact .operator newDivides (first left sameLeft) (second right sameRight)
  | constant divides =>
      intro new same
      cases divides with
      | constant nonempty letters =>
          rw [eq_of_squeezed_eq
            (fun char member => SymbolTables.ne_separator_of_isLetter (letters char member)) same]
          exact .constant (.constant nonempty letters)
  | function divides suffixed _ _ applied =>
      intro new same
      obtain ⟨operand, sameOperand, newDivides⟩ := divides.function_of_squeezed_eq usable same
      exact .function newDivides suffixed (applied operand sameOperand)
  | suffix divides _ inFront =>
      intro new same
      obtain ⟨operand, sameOperand, newDivides⟩ := divides.suffix_of_squeezed_eq usable same
      exact .suffix newDivides (inFront operand sameOperand)
  | number divides literal countable =>
      intro new same
      cases divides with
      | literal exposes unnamed unsuffixed undivided =>
          rw [eq_of_squeezed_eq
            (fun char member => (kept_of_isLiteral literal char member).1) same]
          exact .number (.literal exposes unnamed unsuffixed undivided) literal countable

end Reads

namespace Expression

/-- Texts that differ only in the lengths of their runs of separators are built to the
same trees. -/
theorem build_eq_ok_iff_of_squeezed_eq (usable : tables.Unambiguous) {first second : String}
    (same : squeezed first.toList = squeezed second.toList) {tree : Expression} :
    build tables first = .ok tree ↔ build tables second = .ok tree := by
  rw [build_eq_ok_iff usable, build_eq_ok_iff usable]
  exact ⟨fun reads => reads.of_squeezed_eq usable _ same.symm,
    fun reads => reads.of_squeezed_eq usable _ same⟩

/-- A separator next to another one changes no tree, wherever they stand. -/
theorem build_doubled_separator_iff (valid : tables.validate = .ok ()) (front back : String)
    (tree : Expression) :
    build tables (front ++ ";;" ++ back) = .ok tree ↔
      build tables (front ++ ";" ++ back) = .ok tree := by
  refine build_eq_ok_iff_of_squeezed_eq (tables.validate_eq_ok_iff.mp valid) ?_
  rw [String.toList_append, String.toList_append, String.toList_append, String.toList_append,
    List.append_assoc, List.append_assoc]
  exact squeezed_append front.toList (squeezed_of_followed rfl rfl)

set_option maxRecDepth 4000 in
theorem build_doubled_separator_in_brackets :
    SymbolTables.standard.validate = .ok () ∧
      build SymbolTables.standard ("abs(1" ++ ";" ++ ")") =
        .ok (.function "abs" none (some (.brackets 1 (.list [.number "1"])))) ∧
      build SymbolTables.standard ("abs(1" ++ ";;" ++ ")") =
        .ok (.function "abs" none (some (.brackets 1 (.list [.number "1"])))) := by
  have built : build SymbolTables.standard ("abs(1" ++ ";" ++ ")") =
      .ok (.function "abs" none (some (.brackets 1 (.list [.number "1"])))) := by cbv
  exact ⟨rfl, built, (build_doubled_separator_iff rfl "abs(1" ")" _).mpr built⟩

end Expression
end DecimalCalculator
