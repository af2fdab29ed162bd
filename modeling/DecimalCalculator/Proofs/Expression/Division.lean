/-
The division of a text with its reasons.

A relation lists for every way to divide a text what the text is then like.  The
division that is computed is related to the text, and no other one is.  Pieces
that stand outside brackets expose nothing that the whole text does not expose.
-/

import DecimalCalculator.Proofs.Expression.Pieces

namespace DecimalCalculator

variable {tables : SymbolTables}

/-! ### Reasons -/

/-- A balanced text that neither a separator nor an operator divides. -/
structure IsUndivided (tables : SymbolTables) (text : List Char) : Prop where
  balanced : IsBalanced tables text
  separators : listSeparator ∉ exposed tables 0 text
  operators : ∀ char ∈ exposed tables 0 text, tables.priority? char = none

def IsUnnamed (tables : SymbolTables) (text : List Char) : Prop :=
  ∀ char ∈ text.head?, tables.isLetter char = false

/-- How a text that is not empty is divided, with the reason for each division. -/
inductive Divides (tables : SymbolTables) : List Char → Division → Prop where
  | enclosed {opening closing : Char} {kind : Nat} {content : List Char}
      (enclosing : IsEnclosing tables opening closing kind content)
      (balanced : IsBalanced tables (opening :: (content ++ [closing])))
      (hidden : exposed tables 0 (opening :: (content ++ [closing])) = []) :
      Divides tables (opening :: (content ++ [closing])) (.enclosed kind ⟨1, content⟩)
  | items {first : List Char} {others : List (List Char)} (several : others ≠ [])
      (items : ∀ item ∈ first :: others, IsItem tables item) :
      Divides tables (joinedItems first others) (.items (Piece.inSequence 0 (first :: others)))
  | leading {symbol : Char} {priority : Int} {right : List Char}
      (last : IsLastCut tables [] ⟨[], symbol, priority, right⟩)
      (undivided : listSeparator ∉ exposed tables 0 (symbol :: right)) :
      Divides tables (symbol :: right) (.leading symbol ⟨1, right⟩)
  | binary {left right : List Char} {symbol : Char} {priority : Int} (nonempty : left ≠ [])
      (last : IsLastCut tables [] ⟨left, symbol, priority, right⟩)
      (undivided : listSeparator ∉ exposed tables 0 (left ++ symbol :: right)) :
      Divides tables (left ++ symbol :: right)
        (.binary symbol left.length ⟨0, left⟩ ⟨left.length + 1, right⟩)
  | constant {name : List Char} (nonempty : name ≠ [])
      (letters : ∀ char ∈ name, tables.isLetter char = true) :
      Divides tables name (.constant name)
  | function {name nameSuffix operand : List Char} (nonempty : name ≠ [])
      (letters : ∀ char ∈ name, tables.isLetter char = true)
      (applied : nameSuffix ++ operand ≠ [])
      (unnamed : IsUnnamed tables (nameSuffix ++ operand))
      (suffixed : Partition.leadingSuffix tables (nameSuffix ++ operand) = nameSuffix)
      (undivided : IsUndivided tables (name ++ (nameSuffix ++ operand))) :
      Divides tables (name ++ (nameSuffix ++ operand))
        (.function name ⟨name.length, nameSuffix⟩ ⟨name.length + nameSuffix.length, operand⟩)
  | suffix {symbol : Char} {count : Nat} {operand : List Char} (positive : 0 < count)
      (suffix : tables.isSuffix symbol = true) (maximal : operand.getLast? ≠ some symbol)
      (unnamed : IsUnnamed tables (operand ++ List.replicate count symbol))
      (undivided : IsUndivided tables (operand ++ List.replicate count symbol)) :
      Divides tables (operand ++ List.replicate count symbol) (.suffix symbol count ⟨0, operand⟩)
  | literal {chars : List Char} (exposes : exposed tables 0 chars ≠ [])
      (unnamed : IsUnnamed tables chars)
      (unsuffixed : ∀ char ∈ chars.getLast?, tables.isSuffix char = false)
      (undivided : IsUndivided tables chars) : Divides tables chars (.literal chars)

theorem divides_ofName {text : List Char} (letter : text.head?.any tables.isLetter = true)
    (undivided : IsUndivided tables text) :
    Divides tables text (Division.ofName tables text) := by
  have whole := List.takeWhile_append_dropWhile (p := tables.isLetter) (l := text)
  have letters : ∀ char ∈ text.takeWhile tables.isLetter, tables.isLetter char = true :=
    fun char member => List.mem_takeWhile_imp member
  have named : text.takeWhile tables.isLetter ≠ [] := by
    cases text with
    | nil => cases letter
    | cons first rest =>
        have isLetter : tables.isLetter first = true := letter
        simp [isLetter]
  have unnamed : IsUnnamed tables (text.dropWhile tables.isLetter) := by
    intro char member
    have stop := List.head?_dropWhile_not tables.isLetter text
    rw [Option.mem_def.mp member] at stop
    simpa using stop
  simp only [Division.ofName]
  split
  · rename_i alone
    rw [List.isEmpty_iff] at alone
    rw [alone, List.append_nil] at whole
    have constant := Divides.constant named letters
    rw [whole] at constant ⊢
    exact constant
  · rename_i more
    rw [List.isEmpty_iff] at more
    have rest := append_leadingSuffix tables (text.dropWhile tables.isLetter)
    rw [← rest] at more unnamed whole
    rw [← whole] at undivided
    have function := Divides.function named letters more unnamed (by rw [rest]) undivided
    rw [whole] at function
    exact function

theorem divides_ofUnnamed {text : List Char} (exposes : exposed tables 0 text ≠ [])
    (unnamed : IsUnnamed tables text) (undivided : IsUndivided tables text) :
    Divides tables text (Division.ofUnnamed tables text) := by
  unfold Division.ofUnnamed
  split
  · rename_i symbol last
    split
    · rename_i isSuffix
      obtain ⟨front, count, split, maximal⟩ := exists_trailing_run symbol text
      subst split
      simp only [length_takeWhile_trailing_run maximal, take_before_trailing_run]
      refine .suffix (Nat.pos_of_ne_zero ?_) isSuffix maximal unnamed undivided
      intro none
      rw [none, List.replicate_zero, List.append_nil] at last
      exact maximal last
    · rename_i noSuffix
      refine .literal exposes unnamed ?_ undivided
      intro char member
      rw [last, Option.mem_def, Option.some.injEq] at member
      exact member ▸ Bool.not_eq_true _ ▸ noSuffix
  · rename_i empty
    refine .literal exposes unnamed ?_ undivided
    intro char member
    rw [empty] at member
    cases member

theorem divides_ofOperand {text : List Char} (exposes : exposed tables 0 text ≠ [])
    (undivided : IsUndivided tables text) :
    Divides tables text (Division.ofOperand tables text) := by
  unfold Division.ofOperand
  split
  · exact divides_ofName (by assumption) undivided
  · rename_i noLetter
    refine divides_ofUnnamed exposes ?_ undivided
    intro char member
    rw [Option.mem_def.mp member] at noLetter
    exact Bool.not_eq_true _ ▸ noLetter

theorem divides_ofExposed {text : List Char} (balanced : IsBalanced tables text)
    (exposes : exposed tables 0 text ≠ []) :
    Divides tables text (Division.ofExposed tables text) := by
  unfold Division.ofExposed
  split
  · rename_i separated
    have whole := joinedItems_splitItems tables text
    have items := Divides.items (splitItems_ne_nil separated) (isItem_of_mem_splitItems balanced)
    rw [whole] at items
    exact items
  · rename_i undivided
    split
    · rename_i cut found
      have last : IsLastCut tables [] cut := isLastCut_of_lastCut? balanced found
      have whole := append_of_lastCut? found
      rw [whole] at undivided ⊢
      obtain ⟨left, symbol, priority, right⟩ := cut
      simp only [Division.ofCut]
      split
      · rename_i empty
        rw [List.isEmpty_iff] at empty
        subst empty
        exact .leading last undivided
      · rename_i nonempty
        rw [List.isEmpty_iff] at nonempty
        exact .binary nonempty last undivided
    · rename_i missing
      exact divides_ofOperand exposes
        ⟨balanced, undivided, priority?_of_lastCut?_eq_none missing⟩

theorem divides_of_ofText {text : List Char} {division : Division} (nonempty : text ≠ [])
    (divided : Division.ofText tables text = .ok division) : Divides tables text division := by
  unfold Division.ofText at divided
  split at divided
  · cases divided
  · rename_i checked
    have balanced : IsBalanced tables text := checkNesting_eq_ok_iff.mp checked
    split at divided
    · rename_i hidden
      obtain ⟨opening, closing, kind, content, rfl, enclosing⟩ :=
        exists_enclosing balanced nonempty hidden
      simp only [List.head?_cons, Option.bind_some, enclosing.openingKind, List.tail_cons,
        List.dropLast_concat, Except.ok.injEq] at divided
      rw [← divided]
      exact .enclosed enclosing balanced hidden
    · rename_i exposes
      rw [← Except.ok.inj divided]
      exact divides_ofExposed balanced exposes

/-! ### The division is the only one -/

theorem takeWhile_append_stop {letters rest : List Char} {accepts : Char → Bool}
    (accepted : ∀ char ∈ letters, accepts char = true)
    (stop : ∀ char ∈ rest.head?, accepts char = false) :
    (letters ++ rest).takeWhile accepts = letters ∧ (letters ++ rest).dropWhile accepts = rest := by
  rw [List.takeWhile_append_of_pos accepted, List.dropWhile_append_of_pos accepted]
  cases rest with
  | nil => exact ⟨List.append_nil letters, rfl⟩
  | cons first others =>
      have refused : ¬accepts first = true := by
        rw [stop first rfl]
        exact Bool.false_ne_true
      rw [List.takeWhile_cons_of_neg refused, List.dropWhile_cons_of_neg refused, List.append_nil]
      exact ⟨rfl, rfl⟩

theorem exposed_of_letters {name : List Char}
    (letters : ∀ char ∈ name, tables.isLetter char = true) : exposed tables 0 name = name :=
  exposed_of_not_isBracket fun char member =>
    SymbolTables.isBracket_of_isLetter (letters char member)

theorem isUndivided_of_letters {name : List Char}
    (letters : ∀ char ∈ name, tables.isLetter char = true) : IsUndivided tables name := by
  refine ⟨.of_not_isBracket fun char member =>
    SymbolTables.isBracket_of_isLetter (letters char member), ?_, ?_⟩
  · rw [exposed_of_letters letters]
    exact fun member => SymbolTables.ne_separator_of_isLetter (letters listSeparator member) rfl
  · rw [exposed_of_letters letters]
    exact fun char member => SymbolTables.priority?_of_isLetter (letters char member)

theorem IsLastCut.not_isUndivided {cut : OperatorCut} (last : IsLastCut tables [] cut) :
    ¬IsUndivided tables (cut.left ++ cut.symbol :: cut.right) := by
  intro undivided
  have operator := last.operator
  rw [undivided.operators cut.symbol last.symbol_mem_exposed] at operator
  cases operator

theorem IsUndivided.lastCut?_eq_none {text : List Char} (undivided : IsUndivided tables text) :
    lastCut? tables 0 text = none := by
  cases found : lastCut? tables 0 text with
  | none => rfl
  | some cut =>
      have last : IsLastCut tables [] cut := isLastCut_of_lastCut? undivided.balanced found
      rw [append_of_lastCut? found] at undivided
      exact absurd undivided last.not_isUndivided

namespace Division

theorem ofText_eq_ofExposed {text : List Char} (balanced : IsBalanced tables text)
    (exposes : exposed tables 0 text ≠ []) :
    ofText tables text = .ok (ofExposed tables text) := by
  unfold ofText
  rw [checkNesting_eq_ok_iff.mpr balanced]
  exact if_neg exposes

theorem ofText_eq_ofOperand {text : List Char} (undivided : IsUndivided tables text)
    (exposes : exposed tables 0 text ≠ []) :
    ofText tables text = .ok (ofOperand tables text) := by
  rw [ofText_eq_ofExposed undivided.balanced exposes, ofExposed, if_neg undivided.separators,
    undivided.lastCut?_eq_none]

theorem ofText_of_isLastCut {cut : OperatorCut} (last : IsLastCut tables [] cut)
    (undivided : listSeparator ∉ exposed tables 0 (cut.left ++ cut.symbol :: cut.right)) :
    ofText tables (cut.left ++ cut.symbol :: cut.right) = .ok (ofCut cut) := by
  have balanced : IsBalanced tables (cut.left ++ cut.symbol :: cut.right) :=
    IsBalanced.append last.left ((IsBalanced.singleton last.plain).append last.right)
  have exposes : exposed tables 0 (cut.left ++ cut.symbol :: cut.right) ≠ [] :=
    List.ne_nil_of_mem last.symbol_mem_exposed
  have found := lastCut?_of_isLastCut last
  rw [List.length_nil] at found
  rw [ofText_eq_ofExposed balanced exposes, ofExposed, if_neg undivided, found]

theorem ofName_append {name rest : List Char} (nonempty : name ≠ [])
    (letters : ∀ char ∈ name, tables.isLetter char = true) (unnamed : IsUnnamed tables rest) :
    ofOperand tables (name ++ rest) =
      if rest.isEmpty then .constant name
      else .function name ⟨name.length, Partition.leadingSuffix tables rest⟩
        ⟨name.length + (Partition.leadingSuffix tables rest).length,
          rest.drop (Partition.leadingSuffix tables rest).length⟩ := by
  obtain ⟨first, others, rfl⟩ := List.exists_cons_of_ne_nil nonempty
  obtain ⟨taken, dropped⟩ := takeWhile_append_stop letters unnamed
  have letter : ((first :: others ++ rest).head?.any tables.isLetter) = true :=
    letters first List.mem_cons_self
  rw [ofOperand, if_pos letter]
  simp only [ofName, taken, dropped]

theorem ofOperand_of_isUnnamed {text : List Char} (unnamed : IsUnnamed tables text) :
    ofOperand tables text = ofUnnamed tables text := by
  have noLetter : ¬text.head?.any tables.isLetter = true := by
    intro letter
    rw [Option.any_eq_true] at letter
    obtain ⟨first, head, isLetter⟩ := letter
    rw [unnamed first (Option.mem_def.mpr head)] at isLetter
    cases isLetter
  rw [ofOperand, if_neg noLetter]

end Division

theorem ofText_of_divides (usable : tables.Unambiguous) {text : List Char} {division : Division}
    (divides : Divides tables text division) : Division.ofText tables text = .ok division := by
  have plain := usable.isBracket_separator
  cases divides with
  | @enclosed opening closing kind content enclosing balanced hidden =>
      unfold Division.ofText
      rw [checkNesting_eq_ok_iff.mpr balanced]
      simp only [if_pos hidden, List.head?_cons, Option.bind_some, enclosing.openingKind,
        List.tail_cons, List.dropLast_concat]
  | @items first others several items =>
      have balanced := IsBalanced.joinedItems plain fun item member => (items item member).balanced
      have separated := (mem_exposed_joinedItems plain fun item member =>
        (items item member).balanced).mpr (Or.inr ⟨rfl, several⟩)
      rw [Division.ofText_eq_ofExposed balanced (List.ne_nil_of_mem separated),
        Division.ofExposed, if_pos separated]
      simp only [splitItems_joinedItems plain items]
  | @leading symbol priority right last undivided =>
      exact Division.ofText_of_isLastCut last undivided
  | @binary left right symbol priority nonempty last undivided =>
      rw [Division.ofText_of_isLastCut last undivided, Division.ofCut, if_neg]
      rw [List.isEmpty_iff]
      exact nonempty
  | constant nonempty letters =>
      have exposes : exposed tables 0 text ≠ [] := by
        rw [exposed_of_letters letters]
        exact nonempty
      have named := Division.ofName_append nonempty letters
        (fun char first => absurd first (Option.not_mem_none char) : IsUnnamed tables [])
      rw [List.append_nil] at named
      rw [Division.ofText_eq_ofOperand (isUndivided_of_letters letters) exposes, named]
      rfl
  | @function name nameSuffix operand nonempty letters applied unnamed suffixed undivided =>
      have exposes : exposed tables 0 (name ++ (nameSuffix ++ operand)) ≠ [] := by
        rw [(isUndivided_of_letters letters).balanced.exposed_append, exposed_of_letters letters]
        exact List.append_ne_nil_of_left_ne_nil nonempty _
      rw [Division.ofText_eq_ofOperand undivided exposes,
        Division.ofName_append nonempty letters unnamed, if_neg (by rwa [List.isEmpty_iff]),
        suffixed, List.drop_left]
  | @suffix symbol count operand positive isSuffix maximal unnamed undivided =>
      have run := usable.isBracket_of_mem_replicate isSuffix count
      have last : (operand ++ List.replicate count symbol).getLast? = some symbol := by
        rw [List.getLast?_append, List.getLast?_replicate, if_neg (Nat.pos_iff_ne_zero.mp positive)]
        rfl
      have exposes : exposed tables 0 (operand ++ List.replicate count symbol) ≠ [] := by
        rw [(undivided.balanced.left_of_not_isBracket run).exposed_append,
          exposed_of_not_isBracket run]
        refine List.append_ne_nil_of_right_ne_nil _ ?_
        rw [Ne, List.replicate_eq_nil_iff]
        exact Nat.pos_iff_ne_zero.mp positive
      rw [Division.ofText_eq_ofOperand undivided exposes, Division.ofOperand_of_isUnnamed unnamed,
        Division.ofUnnamed, last]
      simp only [if_pos isSuffix, length_takeWhile_trailing_run maximal,
        take_before_trailing_run]
  | literal exposes unnamed unsuffixed undivided =>
      rw [Division.ofText_eq_ofOperand undivided exposes, Division.ofOperand_of_isUnnamed unnamed,
        Division.ofUnnamed]
      cases last : text.getLast? with
      | none => rfl
      | some symbol =>
          have noSuffix : ¬tables.isSuffix symbol = true := by
            rw [unsuffixed symbol (Option.mem_def.mpr last)]
            exact Bool.false_ne_true
          simp only [if_neg noSuffix]

/-! ### Where the pieces stand -/

def Division.hides : Division → Bool
  | .enclosed _ _ => true
  | _ => false

theorem exists_before_item (plain : isBracket tables listSeparator = false) {first : List Char}
    {others : List (List Char)} (items : ∀ item ∈ first :: others, IsItem tables item)
    {offset : Nat} {piece : Piece} (member : piece ∈ Piece.inSequence offset (first :: others)) :
    ∃ left right, joinedItems first others = left ++ (piece.chars ++ right) ∧
      piece.offset = offset + left.length ∧ IsBalanced tables left ∧
        IsBalanced tables piece.chars := by
  induction others generalizing first offset with
  | nil =>
      rw [Piece.inSequence, Piece.inSequence, List.mem_singleton] at member
      subst member
      exact ⟨[], [], rfl, rfl, .nil, (items first List.mem_cons_self).balanced⟩
  | cons other rest ih =>
      have balanced := (items first List.mem_cons_self).balanced
      rcases List.mem_cons.mp member with same | later
      · subst same
        exact ⟨[], listSeparator :: joinedItems other rest, joinedItems_cons first other rest,
          rfl, .nil, balanced⟩
      · obtain ⟨left, right, split, begins, inFront, inside⟩ :=
          ih (fun item present => items item (List.mem_cons_of_mem first present)) later
        refine ⟨first ++ listSeparator :: left, right, ?_, ?_,
          balanced.append ((IsBalanced.singleton plain).append inFront), inside⟩
        · rw [joinedItems_cons, split, List.append_assoc, List.cons_append]
        · rw [begins, List.length_append, List.length_cons]
          omega

theorem Divides.exists_around (usable : tables.Unambiguous) {text : List Char}
    {division : Division} (divides : Divides tables text division)
    (shown : division.hides = false) {piece : Piece} (member : piece ∈ division.pieces) :
    ∃ left right, text = left ++ (piece.chars ++ right) ∧ piece.offset = left.length ∧
      IsBalanced tables left ∧ IsBalanced tables piece.chars := by
  cases divides with
  | enclosed => cases shown
  | items several items =>
      obtain ⟨left, right, split, begins, inFront, inside⟩ :=
        exists_before_item usable.isBracket_separator items member
      exact ⟨left, right, split, by rw [begins, Nat.zero_add], inFront, inside⟩
  | @leading symbol priority right last undivided =>
      rw [List.mem_singleton.mp member]
      exact ⟨[symbol], [], by simp, rfl, .singleton last.plain, last.right⟩
  | @binary left right symbol priority nonempty last undivided =>
      rcases List.mem_cons.mp member with same | other
      · subst same
        exact ⟨[], symbol :: right, rfl, rfl, .nil, last.left⟩
      · rw [List.mem_singleton.mp other]
        exact ⟨left ++ [symbol], [], by simp, by simp,
          IsBalanced.append last.left (.singleton last.plain), last.right⟩
  | constant => cases member
  | @function name nameSuffix operand nonempty letters applied unnamed suffixed undivided =>
      have named := (isUndivided_of_letters letters).balanced
      have inFront := IsBalanced.of_not_isBracket fun char present =>
        (plain_of_leadingSuffix usable suffixed char present).1
      rcases List.mem_cons.mp member with same | other
      · subst same
        exact ⟨name, operand, rfl, rfl, named, inFront⟩
      · rw [List.mem_singleton.mp other]
        exact ⟨name ++ nameSuffix, [], by simp, by simp, named.append inFront,
          inFront.of_append (named.of_append undivided.balanced)⟩
  | @suffix symbol count operand positive isSuffix maximal unnamed undivided =>
      rw [List.mem_singleton.mp member]
      exact ⟨[], List.replicate count symbol, rfl, rfl, .nil,
        undivided.balanced.left_of_not_isBracket (usable.isBracket_of_mem_replicate isSuffix count)⟩
  | literal => cases member

/-- Whether neither brackets nor separators nor operators divide the text. -/
def Division.isOperand : Division → Bool
  | .constant _ | .function _ _ _ | .suffix _ _ _ | .literal _ => true
  | _ => false

theorem Divides.isUndivided {text : List Char} {division : Division}
    (divides : Divides tables text division) (operand : division.isOperand = true) :
    IsUndivided tables text := by
  cases divides with
  | constant _ letters => exact isUndivided_of_letters letters
  | function _ _ _ _ _ undivided => exact undivided
  | suffix _ _ _ _ undivided => exact undivided
  | literal _ _ _ undivided => exact undivided
  | _ => cases operand

theorem Divides.undivided {text : List Char} {division : Division}
    (divides : Divides tables text division) (single : ∀ pieces, division ≠ .items pieces) :
    listSeparator ∉ exposed tables 0 text := by
  by_cases operand : division.isOperand = true
  · exact (divides.isUndivided operand).separators
  · cases divides with
    | enclosed _ _ hidden =>
        rw [hidden]
        exact List.not_mem_nil
    | items => exact absurd rfl (single _)
    | leading _ undivided => exact undivided
    | binary _ _ undivided => exact undivided
    | _ => exact absurd rfl operand

theorem Divides.mem_exposed_of_piece (usable : tables.Unambiguous) {text : List Char}
    {division : Division} (divides : Divides tables text division)
    (shown : division.hides = false) {piece : Piece} (member : piece ∈ division.pieces) {char : Char}
    (outside : char ∈ exposed tables 0 piece.chars) : char ∈ exposed tables 0 text := by
  obtain ⟨left, right, split, _, inFront, inside⟩ := divides.exists_around usable shown member
  rw [split, inFront.exposed_append, inside.exposed_append]
  exact List.mem_append_right _ (List.mem_append_left _ outside)

end DecimalCalculator
