/-
The symbols of the expression language: pairs of brackets with the kind that
the evaluation receives, binary operators with their priorities, and suffix
operators.

Tables are usable if no character has two meanings.  Whoever changes a table
gets either usable tables or the first fault in the order of the table entries.
-/

import DecimalCalculator.Error
import DecimalCalculator.Unicode.Alphabetic
import DecimalCalculator.Unicode.WhiteSpace

namespace DecimalCalculator

/-! ### Symbols with a fixed meaning -/

def listSeparator : Char :=
  ';'

def percentSign : Char :=
  '%'

def factorialSign : Char :=
  '!'

def degreeSign : Char :=
  '°'

def gradianSign : Char :=
  'ᶢ'

def roundBrackets : Nat :=
  1

def squareBrackets : Nat :=
  2

def floorBrackets : Nat :=
  3

def ceilingBrackets : Nat :=
  4

/-- Characters that keep their meaning in every expression: the separator of
lists, the characters of decimal literals, and white space. -/
def isReserved (char : Char) : Bool :=
  char == listSeparator || char == '.' || char.isDigit || Unicode.isWhiteSpace char

/-! ### Tables -/

structure BracketPair where
  opening : Char
  closing : Char
  kind : Nat
  deriving DecidableEq, Repr

/-- A binary operator.  An operator of lower priority is applied later. -/
structure BinaryOperator where
  symbol : Char
  priority : Int
  deriving DecidableEq, Repr

structure SymbolTables where
  brackets : List BracketPair
  operators : List BinaryOperator
  suffixes : List Char
  deriving DecidableEq, Repr

namespace SymbolTables

/-- Round brackets, square brackets that round, floor and ceiling brackets; the
five arithmetic operators; factorial, percent, degrees and gradians. -/
def standard : SymbolTables where
  brackets := [⟨'(', ')', roundBrackets⟩, ⟨'[', ']', squareBrackets⟩,
    ⟨'⎣', '⎦', floorBrackets⟩, ⟨'⎡', '⎤', ceilingBrackets⟩]
  operators := [⟨'+', 0⟩, ⟨'-', 0⟩, ⟨'*', 1⟩, ⟨'/', 1⟩, ⟨'^', 2⟩]
  suffixes := [factorialSign, percentSign, degreeSign, gradianSign]

/-! ### Meaning of a character -/

def opensBracket (tables : SymbolTables) (char : Char) : Bool :=
  tables.brackets.any (·.opening == char)

def closesBracket (tables : SymbolTables) (char : Char) : Bool :=
  tables.brackets.any (·.closing == char)

def bracketKind? (tables : SymbolTables) (char : Char) : Option Nat :=
  (tables.brackets.find? fun pair => pair.opening == char || pair.closing == char).map (·.kind)

def priority? (tables : SymbolTables) (char : Char) : Option Int :=
  (tables.operators.find? (·.symbol == char)).map (·.priority)

def isSuffix (tables : SymbolTables) (char : Char) : Bool :=
  tables.suffixes.contains char

/-- Letters make up the names of functions and constants: alphabetic characters
that no table holds. -/
def isLetter (tables : SymbolTables) (char : Char) : Bool :=
  Unicode.isAlphabetic char && !tables.isSuffix char && (tables.priority? char).isNone &&
    (tables.bracketKind? char).isNone

/-! ### Validation -/

def bracketCharacters (tables : SymbolTables) : List Char :=
  tables.brackets.flatMap fun pair => [pair.opening, pair.closing]

def operatorSymbols (tables : SymbolTables) : List Char :=
  tables.operators.map (·.symbol)

/-- Checks one character of a bracket against the bracket characters before it. -/
def checkBracketCharacter (earlier : List Char) (char : Char) : Except TableError Unit :=
  if isReserved char then .error (.reservedSymbol char)
  else if earlier.contains char then .error (.repeatedBracket char)
  else .ok ()

/-- Checks bracket pairs against the kinds and characters of the pairs before them. -/
def checkBrackets (kinds : List Nat) (earlier : List Char) :
    List BracketPair → Except TableError Unit
  | [] => .ok ()
  | pair :: rest => do
      if pair.opening = pair.closing then
        throw (.sameOpeningAndClosing pair.opening)
      if kinds.contains pair.kind then
        throw (.repeatedBracketKind pair.kind)
      checkBracketCharacter earlier pair.opening
      checkBracketCharacter (pair.opening :: earlier) pair.closing
      checkBrackets (pair.kind :: kinds) (pair.closing :: pair.opening :: earlier) rest

/-- Checks the symbols of a table against each other and against the symbols of
the tables before it. -/
def checkSymbols (repeated : Char → TableError) (otherTables earlier : List Char) :
    List Char → Except TableError Unit
  | [] => .ok ()
  | symbol :: rest => do
      if isReserved symbol then
        throw (.reservedSymbol symbol)
      if earlier.contains symbol then
        throw (repeated symbol)
      if otherTables.contains symbol then
        throw (.ambiguousSymbol symbol)
      checkSymbols repeated otherTables (symbol :: earlier) rest

/-- Succeeds if no character has two meanings, otherwise reports the first fault:
of the brackets, then of the operators, then of the suffix operators. -/
def validate (tables : SymbolTables) : Except TableError Unit := do
  checkBrackets [] [] tables.brackets
  checkSymbols .repeatedOperator tables.bracketCharacters [] tables.operatorSymbols
  checkSymbols .repeatedSuffix (tables.bracketCharacters ++ tables.operatorSymbols) []
    tables.suffixes

def validated (tables : SymbolTables) : Except TableError SymbolTables := do
  tables.validate
  return tables

def ofParts (brackets : List BracketPair) (operators : List BinaryOperator)
    (suffixes : List Char) : Except TableError SymbolTables :=
  validated ⟨brackets, operators, suffixes⟩

def withBrackets (tables : SymbolTables) (brackets : List BracketPair) :
    Except TableError SymbolTables :=
  validated { tables with brackets := brackets }

def withOperators (tables : SymbolTables) (operators : List BinaryOperator) :
    Except TableError SymbolTables :=
  validated { tables with operators := operators }

def withSuffixes (tables : SymbolTables) (suffixes : List Char) :
    Except TableError SymbolTables :=
  validated { tables with suffixes := suffixes }

end SymbolTables
end DecimalCalculator
