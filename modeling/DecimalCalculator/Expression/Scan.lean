/-
One pass over the characters of an expression.

The pass checks that brackets are well nested and notes every list separator
and every binary operator together with the number of brackets around it.
After the pass the expression is divided by positions and levels alone.
-/

import DecimalCalculator.Expression.SymbolTables

namespace DecimalCalculator

/-! ### Nesting of brackets -/

/-- The kinds of the open brackets after a character, the innermost one first,
or nothing if the character closes a bracket that is not the innermost one. -/
def nestingAfter? (tables : SymbolTables) (opened : List Nat) (char : Char) : Option (List Nat) :=
  if tables.opensBracket char then
    some ((tables.bracketKind? char).toList ++ opened)
  else if tables.closesBracket char then
    match opened with
    | kind :: outer => if tables.bracketKind? char = some kind then some outer else none
    | [] => none
  else
    some opened

def isBracket (tables : SymbolTables) (char : Char) : Bool :=
  tables.opensBracket char || tables.closesBracket char

/-- Whether every character that is not a bracket stands inside brackets.  The
characters begin at the given position with the given brackets open. -/
def isEnclosed (tables : SymbolTables) :
    (position : Nat) → (opened : List Nat) → List Char → Except ExpressionError Bool
  | _, _, [] => .ok true
  | position, opened, char :: rest =>
      match nestingAfter? tables opened char with
      | none => .error (.mismatchedBracket position)
      | some nesting =>
          (isEnclosed tables (position + 1) nesting rest).map
            ((isBracket tables char || !opened.isEmpty) && ·)

/-! ### Marks -/

/-- What divides an expression. -/
inductive Divider where
  | separator
  | operator (symbol : Char) (priority : Int)
  deriving DecidableEq, Repr

/-- A divider, its position, and the number of brackets around it. -/
structure Mark where
  divider : Divider
  position : Nat
  level : Nat
  deriving DecidableEq, Repr

/-- The divider that a character outside the bracket table is. -/
def dividerOf? (tables : SymbolTables) (char : Char) : Option Divider :=
  if char = listSeparator then some .separator
  else (tables.priority? char).map (.operator char ·)

def markOf? (tables : SymbolTables) (position : Nat) (opened : List Nat) (char : Char) :
    Option Mark :=
  if isBracket tables char then none
  else (dividerOf? tables char).map fun divider => ⟨divider, position, opened.length⟩

/-- The marks of characters that begin at the given position with the given
brackets open.  All brackets are closed at the end. -/
def marksFrom (tables : SymbolTables) :
    (position : Nat) → (opened : List Nat) → List Char → Except ExpressionError (List Mark)
  | _, opened, [] => if opened.isEmpty then .ok [] else .error .unclosedBracket
  | position, opened, char :: rest =>
      match nestingAfter? tables opened char with
      | none => .error (.mismatchedBracket position)
      | some nesting =>
          (marksFrom tables (position + 1) nesting rest).map
            ((markOf? tables position opened char).toList ++ ·)

/-- An expression with the marks of its dividers, in the order of their positions. -/
structure Scan where
  chars : List Char
  marks : List Mark

def Scan.ofChars (tables : SymbolTables) (chars : List Char) : Except ExpressionError Scan :=
  (marksFrom tables 0 [] chars).map fun marks => ⟨chars, marks⟩

end DecimalCalculator
