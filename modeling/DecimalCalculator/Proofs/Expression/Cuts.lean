/-
Where a text is cut.

Splitting at exposed separators and joining the items again undo each other, and
so do cutting at the operator that is applied last and writing the operator
between the two sides.  All parts of a balanced text are balanced.
-/

import DecimalCalculator.Proofs.Expression.Nesting

namespace DecimalCalculator

variable {tables : SymbolTables}

/-! ### Separators -/

def joinedItems (first : List Char) (others : List (List Char)) : List Char :=
  first ++ others.flatMap (listSeparator :: ·)

theorem joinedItems_cons (first other : List Char) (others : List (List Char)) :
    joinedItems first (other :: others) = first ++ listSeparator :: joinedItems other others := by
  simp [joinedItems]

theorem joinedItems_splitItems (tables : SymbolTables) (text : List Char) :
    joinedItems (splitItems tables 0 text).1 (splitItems tables 0 text).2 = text :=
  splitItems_joined tables 0 text

/-- An item of a list: balanced, without an exposed separator. -/
structure IsItem (tables : SymbolTables) (item : List Char) : Prop where
  balanced : IsBalanced tables item
  undivided : listSeparator ∉ exposed tables 0 item

private theorem splitItems_items {opened : List Nat} {text : List Char}
    (through : nestingThrough? tables opened text = some []) :
    nestingThrough? tables opened (splitItems tables opened.length text).1 = some [] ∧
      listSeparator ∉ exposed tables opened.length (splitItems tables opened.length text).1 ∧
      ∀ item ∈ (splitItems tables opened.length text).2, IsItem tables item := by
  induction text generalizing opened with
  | nil =>
      refine ⟨through, List.not_mem_nil, ?_⟩
      intro item member
      cases member
  | cons char rest ih =>
      obtain ⟨nesting, after, later⟩ := nestingThrough?_cons_eq_some.mp through
      obtain ⟨closed, undivided, items⟩ := ih later
      simp only [splitItems, depthAfter_of_nestingAfter? after]
      split
      · rename_i separates
        simp only [isExposed, Bool.and_eq_true, beq_iff_eq, List.length_eq_zero_iff,
          Bool.not_eq_true'] at separates
        obtain ⟨⟨outside, plain⟩, _⟩ := separates
        subst outside
        rw [nestingAfter?_of_not_isBracket plain, Option.some.injEq] at after
        subst after
        refine ⟨rfl, List.not_mem_nil, ?_⟩
        intro item member
        rcases List.mem_cons.mp member with same | other
        · exact same ▸ ⟨closed, undivided⟩
        · exact items item other
      · rename_i joins
        refine ⟨nestingThrough?_cons_eq_some.mpr ⟨nesting, after, closed⟩, ?_, items⟩
        simp only [exposed, depthAfter_of_nestingAfter? after]
        split
        · rename_i outside
          intro member
          rcases List.mem_cons.mp member with same | other
          · exact joins (by rw [outside, ← same]; rfl)
          · exact undivided other
        · exact undivided

theorem isItem_of_mem_splitItems {text : List Char} (balanced : IsBalanced tables text) :
    ∀ item ∈ (splitItems tables 0 text).1 :: (splitItems tables 0 text).2,
      IsItem tables item := by
  obtain ⟨closed, undivided, items⟩ := splitItems_items balanced
  intro item member
  rcases List.mem_cons.mp member with same | other
  · exact same ▸ ⟨closed, undivided⟩
  · exact items item other

private theorem undivided_cons {depth : Nat} {char : Char} {rest : List Char}
    (undivided : listSeparator ∉ exposed tables depth (char :: rest)) :
    (isExposed tables depth char && char == listSeparator) = false ∧
      listSeparator ∉ exposed tables (depthAfter tables depth char) rest := by
  constructor
  · rw [Bool.eq_false_iff]
    intro separates
    simp only [Bool.and_eq_true, beq_iff_eq] at separates
    exact undivided (separates.2 ▸ mem_exposed_of_isExposed separates.1)
  · intro member
    exact undivided (mem_exposed_cons member)

private theorem splitItems_append {opened : List Nat} {first : List Char}
    (closed : nestingThrough? tables opened first = some [])
    (undivided : listSeparator ∉ exposed tables opened.length first)
    (plain : isBracket tables listSeparator = false) (rest : List Char) :
    splitItems tables opened.length (first ++ listSeparator :: rest) =
      (first, (splitItems tables 0 rest).1 :: (splitItems tables 0 rest).2) := by
  induction first generalizing opened with
  | nil =>
      have outside : opened = [] := Option.some.inj closed
      subst outside
      simp [splitItems, isExposed, plain, depthAfter_of_not_isBracket plain]
  | cons char later ih =>
      obtain ⟨nesting, after, through⟩ := nestingThrough?_cons_eq_some.mp closed
      obtain ⟨joins, remaining⟩ := undivided_cons undivided
      rw [depthAfter_of_nestingAfter? after] at remaining
      simp only [List.cons_append, splitItems, joins, depthAfter_of_nestingAfter? after,
        ih through remaining]
      rfl

private theorem splitItems_of_undivided {depth : Nat} {text : List Char}
    (undivided : listSeparator ∉ exposed tables depth text) :
    splitItems tables depth text = (text, []) := by
  induction text generalizing depth with
  | nil => rfl
  | cons char rest ih =>
      obtain ⟨joins, remaining⟩ := undivided_cons undivided
      simp only [splitItems, joins, ih remaining]
      rfl

theorem splitItems_joinedItems (plain : isBracket tables listSeparator = false)
    {first : List Char} {others : List (List Char)}
    (items : ∀ item ∈ first :: others, IsItem tables item) :
    splitItems tables 0 (joinedItems first others) = (first, others) := by
  induction others generalizing first with
  | nil =>
      rw [joinedItems, List.flatMap_nil, List.append_nil]
      exact splitItems_of_undivided (items first List.mem_cons_self).undivided
  | cons other others ih =>
      have head := items first List.mem_cons_self
      have rest := ih fun item member => items item (List.mem_cons_of_mem first member)
      have split := splitItems_append head.balanced head.undivided plain (joinedItems other others)
      rw [joinedItems_cons]
      rw [rest] at split
      exact split

theorem IsBalanced.joinedItems (plain : isBracket tables listSeparator = false)
    {first : List Char} {others : List (List Char)}
    (items : ∀ item ∈ first :: others, IsBalanced tables item) :
    IsBalanced tables (joinedItems first others) := by
  induction others generalizing first with
  | nil =>
      rw [DecimalCalculator.joinedItems, List.flatMap_nil, List.append_nil]
      exact items first List.mem_cons_self
  | cons other others ih =>
      rw [joinedItems_cons]
      exact (items first List.mem_cons_self).append
        ((IsBalanced.singleton plain).append
          (ih fun item member => items item (List.mem_cons_of_mem first member)))

theorem mem_exposed_joinedItems (plain : isBracket tables listSeparator = false) {char : Char}
    {first : List Char} {others : List (List Char)}
    (balanced : ∀ item ∈ first :: others, IsBalanced tables item) :
    char ∈ exposed tables 0 (joinedItems first others) ↔
      (∃ item ∈ first :: others, char ∈ exposed tables 0 item) ∨
        (char = listSeparator ∧ others ≠ []) := by
  induction others generalizing first with
  | nil => simp [joinedItems]
  | cons other rest ih =>
      have later := ih fun item member => balanced item (List.mem_cons_of_mem first member)
      rw [joinedItems_cons, (balanced first List.mem_cons_self).exposed_append_cons plain,
        List.mem_append, List.mem_cons, later]
      simp only [List.mem_cons, exists_eq_or_imp, ne_eq, reduceCtorEq, not_false_eq_true, and_true]
      grind

/-! ### Operators -/

/-- Whether the priorities of all operators among the characters are as given. -/
def Priorities (tables : SymbolTables) (allowed : Int → Prop) (chars : List Char) : Prop :=
  ∀ char ∈ chars, ∀ priority, tables.priority? char = some priority → allowed priority

/-- What makes an operator the one that is applied last: no operator before it has a
lower priority, and every operator behind it has a higher one. -/
structure IsLastCut (tables : SymbolTables) (opened : List Nat) (cut : OperatorCut) : Prop where
  left : nestingThrough? tables opened cut.left = some []
  right : IsBalanced tables cut.right
  plain : isBracket tables cut.symbol = false
  operator : tables.priority? cut.symbol = some cut.priority
  before : Priorities tables (cut.priority ≤ ·) (exposed tables opened.length cut.left)
  behind : Priorities tables (cut.priority < ·) (exposed tables 0 cut.right)

theorem priority?_of_lastCut?_eq_none {depth : Nat} {text : List Char}
    (missing : lastCut? tables depth text = none) :
    ∀ char ∈ exposed tables depth text, tables.priority? char = none := by
  induction text generalizing depth with
  | nil =>
      intro char member
      cases member
  | cons char rest ih =>
      simp only [lastCut?] at missing
      split at missing
      · rename_i unranked
        have later := ih (Option.map_eq_none_iff.mp missing)
        intro other member
        simp only [exposed] at member
        split at member
        · rename_i outside
          rw [if_pos outside] at unranked
          rcases List.mem_cons.mp member with same | behind
          · exact same ▸ unranked
          · exact later other behind
        · exact later other member
      · split at missing
        · cases missing
        · cases missing

theorem IsLastCut.exposed_eq {opened : List Nat} {cut : OperatorCut}
    (spec : IsLastCut tables opened cut) :
    exposed tables opened.length (cut.left ++ cut.symbol :: cut.right) =
      exposed tables opened.length cut.left ++ cut.symbol :: exposed tables 0 cut.right := by
  rw [exposed_append spec.left]
  exact congrArg _ (IsBalanced.nil.exposed_append_cons spec.plain cut.right)

theorem IsLastCut.symbol_mem_exposed {opened : List Nat} {cut : OperatorCut}
    (spec : IsLastCut tables opened cut) :
    cut.symbol ∈ exposed tables opened.length (cut.left ++ cut.symbol :: cut.right) := by
  rw [spec.exposed_eq]
  exact List.mem_append_right _ List.mem_cons_self

theorem IsLastCut.priorities {opened : List Nat} {cut : OperatorCut}
    (spec : IsLastCut tables opened cut) :
    Priorities tables (cut.priority ≤ ·)
      (exposed tables opened.length (cut.left ++ cut.symbol :: cut.right)) := by
  intro other member priority known
  rw [spec.exposed_eq, List.mem_append, List.mem_cons] at member
  rcases member with before | same | behind
  · exact spec.before other before priority known
  · rw [same, spec.operator, Option.some.injEq] at known
    exact Int.le_of_eq known
  · exact Int.le_of_lt (spec.behind other behind priority known)

/-- An operator that is applied last stays so behind a character that is no exposed
operator of a lower priority. -/
theorem IsLastCut.cons {opened nesting : List Nat} {char : Char} {cut : OperatorCut}
    (spec : IsLastCut tables nesting cut)
    (after : nestingAfter? tables opened char = some nesting)
    (higher : ∀ priority, isExposed tables opened.length char = true →
      tables.priority? char = some priority → cut.priority ≤ priority) :
    IsLastCut tables opened { cut with left := char :: cut.left } := by
  refine ⟨nestingThrough?_cons_eq_some.mpr ⟨nesting, after, spec.left⟩, spec.right,
    spec.plain, spec.operator, ?_, spec.behind⟩
  intro other member priority known
  simp only [exposed, depthAfter_of_nestingAfter? after] at member
  split at member
  · rename_i outside
    rcases List.mem_cons.mp member with same | behind
    · exact higher priority outside (same ▸ known)
    · exact spec.before other behind priority known
  · exact spec.before other member priority known

private theorem isLastCut_first {char : Char} {priority : Int} {rest : List Char}
    (plain : isBracket tables char = false) (operator : tables.priority? char = some priority)
    (balanced : IsBalanced tables rest)
    (behind : Priorities tables (priority < ·) (exposed tables 0 rest)) :
    IsLastCut tables [] ⟨[], char, priority, rest⟩ :=
  ⟨rfl, balanced, plain, operator, fun _ member => absurd member List.not_mem_nil, behind⟩

theorem isLastCut_of_lastCut? {opened : List Nat} {text : List Char} {cut : OperatorCut}
    (through : nestingThrough? tables opened text = some [])
    (found : lastCut? tables opened.length text = some cut) : IsLastCut tables opened cut := by
  induction text generalizing opened cut with
  | nil => cases found
  | cons char rest ih =>
      obtain ⟨nesting, after, later⟩ := nestingThrough?_cons_eq_some.mp through
      simp only [lastCut?, depthAfter_of_nestingAfter? after] at found
      split at found
      · rename_i unranked
        obtain ⟨last, foundLast, rfl⟩ := Option.map_eq_some_iff.mp found
        refine (ih later foundLast).cons after ?_
        intro priority outside known
        rw [if_pos outside, known] at unranked
        cases unranked
      · rename_i priority ranked
        by_cases outside : isExposed tables opened.length char = true
        · rw [if_pos outside] at ranked
          simp only [isExposed, Bool.and_eq_true, beq_iff_eq, List.length_eq_zero_iff,
            Bool.not_eq_true'] at outside
          obtain ⟨closed, plain⟩ := outside
          subst closed
          rw [nestingAfter?_of_not_isBracket plain, Option.some.injEq] at after
          subst after
          cases behind : lastCut? tables 0 rest with
          | none =>
              rw [List.length_nil, behind, Option.map_none] at found
              rw [← Option.some.inj found]
              refine isLastCut_first plain ranked later ?_
              intro other member known operator
              rw [priority?_of_lastCut?_eq_none behind other member] at operator
              cases operator
          | some last =>
              have spec := ih later behind
              rw [List.length_nil, behind, Option.map_some] at found
              simp only [Option.some.injEq] at found
              split at found
              · rename_i lower
                rw [← found]
                refine isLastCut_first plain ranked later ?_
                intro other member known operator
                rw [append_of_lastCut? behind] at member
                exact Int.lt_of_lt_of_le lower (spec.priorities other member known operator)
              · rename_i notLower
                rw [← found]
                refine spec.cons (nestingAfter?_of_not_isBracket plain []) ?_
                intro known _ operator
                rw [ranked, Option.some.injEq] at operator
                rw [← operator]
                exact Int.not_lt.mp notLower
        · rw [if_neg outside] at ranked
          cases ranked

theorem lastCut?_of_isLastCut {opened : List Nat} {cut : OperatorCut}
    (spec : IsLastCut tables opened cut) :
    lastCut? tables opened.length (cut.left ++ cut.symbol :: cut.right) = some cut := by
  obtain ⟨left, symbol, priority, right⟩ := cut
  induction left generalizing opened with
  | nil =>
      have closed : opened = [] := Option.some.inj spec.left
      subst closed
      have outside : isExposed tables 0 symbol = true := by
        simp [isExposed, spec.plain]
      simp only [List.nil_append, List.length_nil, lastCut?, outside, if_true, spec.operator,
        depthAfter_of_not_isBracket spec.plain]
      cases behind : lastCut? tables 0 right with
      | none => rfl
      | some last =>
          have later : IsLastCut tables [] last := isLastCut_of_lastCut? spec.right behind
          have member : last.symbol ∈ exposed tables 0 right := by
            rw [append_of_lastCut? behind]
            exact later.symbol_mem_exposed
          have lower := spec.behind last.symbol member last.priority later.operator
          simp only [Option.map_some, if_pos lower]
  | cons char rest ih =>
      obtain ⟨nesting, after, through⟩ := nestingThrough?_cons_eq_some.mp spec.left
      have before : Priorities tables (priority ≤ ·) (exposed tables nesting.length rest) := by
        intro other member
        rw [← depthAfter_of_nestingAfter? after] at member
        exact spec.before other (mem_exposed_cons member)
      have later := ih ⟨through, spec.right, spec.plain, spec.operator, before, spec.behind⟩
      simp only [List.cons_append, lastCut?, depthAfter_of_nestingAfter? after, later,
        Option.map_some]
      split
      · rfl
      · rename_i rank ranked
        by_cases outside : isExposed tables opened.length char = true
        · rw [if_pos outside] at ranked
          have notLower := spec.before char (mem_exposed_of_isExposed outside) rank ranked
          rw [if_neg (Int.not_lt.mpr notLower)]
        · rw [if_neg outside] at ranked
          cases ranked

end DecimalCalculator
