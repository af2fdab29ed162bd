/-
Nesting of brackets over whole texts.

The brackets that a text leaves open determine which of its characters are
exposed.  A balanced text changes nothing for the text behind it, and a text
inside brackets exposes nothing.  A balanced text that exposes nothing begins
with an opening bracket and ends with a closing one.
-/

import DecimalCalculator.Expression.Piecewise
import DecimalCalculator.Proofs.Expression.Tables

namespace DecimalCalculator

variable {tables : SymbolTables} {char : Char}

/-! ### Single characters -/

theorem nestingAfter?_of_not_isBracket (plain : isBracket tables char = false)
    (opened : List Nat) : nestingAfter? tables opened char = some opened := by
  simp only [isBracket, Bool.or_eq_false_iff] at plain
  simp [nestingAfter?, plain.1, plain.2]

theorem depthAfter_of_not_isBracket (plain : isBracket tables char = false) (depth : Nat) :
    depthAfter tables depth char = depth := by
  simp only [isBracket, Bool.or_eq_false_iff] at plain
  simp [depthAfter, plain.1, plain.2]

theorem depthAfter_of_nestingAfter? {opened nesting : List Nat}
    (after : nestingAfter? tables opened char = some nesting) :
    depthAfter tables opened.length char = nesting.length := by
  unfold nestingAfter? at after
  unfold depthAfter
  split at after
  · rename_i opens
    obtain ⟨kind, known⟩ := SymbolTables.bracketKind?_of_opensBracket opens
    rw [if_pos opens, ← Option.some.inj after, known]
    simp
  · rename_i opens
    rw [if_neg opens]
    split at after
    · rename_i closes
      rw [if_pos closes]
      cases opened with
      | nil => cases after
      | cons kind outer =>
          simp only at after
          split at after
          · rw [← Option.some.inj after]
            rfl
          · cases after
    · rename_i closes
      rw [if_neg closes, ← Option.some.inj after]

theorem nestingAfter?_append {opened nesting : List Nat}
    (after : nestingAfter? tables opened char = some nesting) (outer : List Nat) :
    nestingAfter? tables (opened ++ outer) char = some (nesting ++ outer) := by
  unfold nestingAfter? at after ⊢
  split
  · rename_i opens
    rw [if_pos opens] at after
    rw [← Option.some.inj after, List.append_assoc]
  · rename_i opens
    rw [if_neg opens] at after
    split
    · rename_i closes
      rw [if_pos closes] at after
      cases opened with
      | nil => cases after
      | cons kind rest =>
          simp only [List.cons_append] at after ⊢
          split
          · rename_i same
            rw [if_pos same] at after
            rw [← Option.some.inj after]
          · rename_i different
            rw [if_neg different] at after
            cases after
    · rename_i closes
      rw [if_neg closes] at after
      rw [← Option.some.inj after]

/-! ### Texts -/

/-- The kinds of the open brackets after a text, the innermost one first. -/
def nestingThrough? (tables : SymbolTables) : (opened : List Nat) → List Char → Option (List Nat)
  | opened, [] => some opened
  | opened, char :: rest =>
      (nestingAfter? tables opened char).bind fun nesting => nestingThrough? tables nesting rest

def IsBalanced (tables : SymbolTables) (text : List Char) : Prop :=
  nestingThrough? tables [] text = some []

theorem nestingThrough?_cons_eq_some {opened final : List Nat} {rest : List Char} :
    nestingThrough? tables opened (char :: rest) = some final ↔
      ∃ nesting, nestingAfter? tables opened char = some nesting ∧
        nestingThrough? tables nesting rest = some final :=
  Option.bind_eq_some_iff

theorem nestingThrough?_append (opened : List Nat) (left right : List Char) :
    nestingThrough? tables opened (left ++ right) =
      (nestingThrough? tables opened left).bind fun nesting =>
        nestingThrough? tables nesting right := by
  induction left generalizing opened with
  | nil => rfl
  | cons char rest ih =>
      rw [List.cons_append, nestingThrough?, nestingThrough?, Option.bind_assoc]
      congr 1
      funext nesting
      exact ih nesting

theorem nestingThrough?_frame {opened final : List Nat} {text : List Char}
    (through : nestingThrough? tables opened text = some final) (outer : List Nat) :
    nestingThrough? tables (opened ++ outer) text = some (final ++ outer) := by
  induction text generalizing opened with
  | nil =>
      rw [← Option.some.inj through]
      rfl
  | cons char rest ih =>
      obtain ⟨nesting, after, later⟩ := nestingThrough?_cons_eq_some.mp through
      exact nestingThrough?_cons_eq_some.mpr
        ⟨nesting ++ outer, nestingAfter?_append after outer, ih later⟩

theorem nestingThrough?_of_not_isBracket {text : List Char}
    (plain : ∀ char ∈ text, isBracket tables char = false) (opened : List Nat) :
    nestingThrough? tables opened text = some opened := by
  induction text with
  | nil => rfl
  | cons char rest ih =>
      exact nestingThrough?_cons_eq_some.mpr
        ⟨opened, nestingAfter?_of_not_isBracket (plain char List.mem_cons_self) opened,
          ih fun other member => plain other (List.mem_cons_of_mem char member)⟩

namespace IsBalanced

theorem nil : IsBalanced tables [] :=
  rfl

theorem nestingThrough? {text : List Char} (balanced : IsBalanced tables text)
    (opened : List Nat) : nestingThrough? tables opened text = some opened :=
  nestingThrough?_frame balanced opened

theorem closed {text : List Char} (balanced : IsBalanced tables text) :
    ∀ final, DecimalCalculator.nestingThrough? tables [] text = some final → final = [] := by
  intro final through
  rw [balanced, Option.some.injEq] at through
  exact through.symm

theorem append {left right : List Char} (first : IsBalanced tables left)
    (second : IsBalanced tables right) : IsBalanced tables (left ++ right) := by
  rw [IsBalanced, nestingThrough?_append, first]
  exact second

theorem of_append {left right : List Char} (first : IsBalanced tables left)
    (whole : IsBalanced tables (left ++ right)) : IsBalanced tables right := by
  rw [IsBalanced, nestingThrough?_append, first] at whole
  exact whole

theorem left_of_not_isBracket {left right : List Char}
    (whole : IsBalanced tables (left ++ right))
    (plain : ∀ char ∈ right, isBracket tables char = false) : IsBalanced tables left := by
  rw [IsBalanced, nestingThrough?_append, Option.bind_eq_some_iff] at whole
  obtain ⟨nesting, through, rest⟩ := whole
  rw [nestingThrough?_of_not_isBracket plain, Option.some.injEq] at rest
  subst rest
  exact through

theorem of_not_isBracket {text : List Char}
    (plain : ∀ char ∈ text, isBracket tables char = false) : IsBalanced tables text :=
  nestingThrough?_of_not_isBracket plain []

theorem singleton (plain : isBracket tables char = false) : IsBalanced tables [char] :=
  of_not_isBracket fun _ member => List.mem_singleton.mp member ▸ plain

end IsBalanced

theorem nestingAfter?_of_opensBracket {kind : Nat} (opens : tables.opensBracket char = true)
    (known : tables.bracketKind? char = some kind) (opened : List Nat) :
    nestingAfter? tables opened char = some (kind :: opened) := by
  unfold nestingAfter?
  rw [if_pos opens, known]
  rfl

theorem IsBalanced.enclosed {opening closing : Char} {kind : Nat} {content : List Char}
    (opens : tables.opensBracket opening = true) (closes : tables.closesBracket closing = true)
    (notOpens : tables.opensBracket closing = false)
    (openingKind : tables.bracketKind? opening = some kind)
    (closingKind : tables.bracketKind? closing = some kind)
    (balanced : IsBalanced tables content) :
    IsBalanced tables (opening :: (content ++ [closing])) := by
  have last : nestingAfter? tables [kind] closing = some [] := by
    simp [nestingAfter?, notOpens, closes, closingKind]
  refine nestingThrough?_cons_eq_some.mpr
    ⟨[kind], nestingAfter?_of_opensBracket opens openingKind [], ?_⟩
  rw [nestingThrough?_append, balanced.nestingThrough? [kind]]
  exact nestingThrough?_cons_eq_some.mpr ⟨[], last, rfl⟩

/-! ### Exposed characters -/

theorem mem_exposed_of_isExposed {depth : Nat} {rest : List Char}
    (outside : isExposed tables depth char = true) :
    char ∈ exposed tables depth (char :: rest) := by
  simp [exposed, outside]

theorem isBracket_of_mem_exposed {depth : Nat} {text : List Char}
    (outside : char ∈ exposed tables depth text) : isBracket tables char = false := by
  induction text generalizing depth with
  | nil => cases outside
  | cons first rest ih =>
      simp only [exposed] at outside
      split at outside
      · rename_i shown
        rw [isExposed, Bool.and_eq_true, Bool.not_eq_true'] at shown
        rcases List.mem_cons.mp outside with same | later
        · exact same ▸ shown.2
        · exact ih later
      · exact ih outside

theorem mem_exposed_cons {other : Char} {depth : Nat} {rest : List Char}
    (member : other ∈ exposed tables (depthAfter tables depth char) rest) :
    other ∈ exposed tables depth (char :: rest) := by
  simp only [exposed]
  split
  · exact List.mem_cons_of_mem char member
  · exact member

theorem exposed_append {opened final : List Nat} {left : List Char}
    (through : nestingThrough? tables opened left = some final) (right : List Char) :
    exposed tables opened.length (left ++ right) =
      exposed tables opened.length left ++ exposed tables final.length right := by
  induction left generalizing opened with
  | nil =>
      rw [← Option.some.inj through]
      rfl
  | cons char rest ih =>
      obtain ⟨nesting, after, later⟩ := nestingThrough?_cons_eq_some.mp through
      simp only [List.cons_append, exposed, depthAfter_of_nestingAfter? after, ih later]
      split <;> rfl

theorem IsBalanced.exposed_append {left : List Char} (balanced : IsBalanced tables left)
    (right : List Char) :
    exposed tables 0 (left ++ right) = exposed tables 0 left ++ exposed tables 0 right :=
  DecimalCalculator.exposed_append balanced right

theorem exposed_of_not_isBracket {text : List Char}
    (plain : ∀ char ∈ text, isBracket tables char = false) : exposed tables 0 text = text := by
  induction text with
  | nil => rfl
  | cons char rest ih =>
      have outside := plain char List.mem_cons_self
      simp [exposed, isExposed, outside, depthAfter_of_not_isBracket outside,
        ih fun other member => plain other (List.mem_cons_of_mem char member)]

theorem IsBalanced.exposed_append_cons {left : List Char} (balanced : IsBalanced tables left)
    (plain : isBracket tables char = false) (right : List Char) :
    exposed tables 0 (left ++ char :: right) =
      exposed tables 0 left ++ char :: exposed tables 0 right := by
  rw [balanced.exposed_append]
  simp [exposed, isExposed, plain, depthAfter_of_not_isBracket plain]

theorem exposed_frame {opened final outer : List Nat} {text : List Char}
    (through : nestingThrough? tables opened text = some final) (inside : outer ≠ []) :
    exposed tables (opened ++ outer).length text = [] := by
  induction text generalizing opened with
  | nil => rfl
  | cons char rest ih =>
      obtain ⟨nesting, after, later⟩ := nestingThrough?_cons_eq_some.mp through
      have deep : isExposed tables (opened ++ outer).length char = false := by
        simp [isExposed, inside]
      simp only [exposed, deep, depthAfter_of_nestingAfter? (nestingAfter?_append after outer),
        ih later]
      rfl

theorem exposed_enclosed {opening closing : Char} {kind : Nat} {content : List Char}
    (opens : tables.opensBracket opening = true) (closes : tables.closesBracket closing = true)
    (openingKind : tables.bracketKind? opening = some kind)
    (balanced : IsBalanced tables content) :
    exposed tables 0 (opening :: (content ++ [closing])) = [] := by
  have after := depthAfter_of_nestingAfter? (nestingAfter?_of_opensBracket opens openingKind [])
  have inside : exposed tables 1 content = [] :=
    exposed_frame balanced (List.cons_ne_nil kind [])
  have whole := exposed_append (balanced.nestingThrough? [kind]) [closing]
  simp only [List.length_cons, List.length_nil, Nat.zero_add] at after whole
  simp [exposed, isExposed, isBracket, opens, closes, after, whole, inside]

end DecimalCalculator
