/-
The grammar of written numbers.

A numeral is an optional sign, digits with at most one point among them, and an
optional exponent of ten.  The parts carry the proofs that they are well formed, so
that every numeral may be written down, and they say which number it stands for.
-/

import DecimalCalculator.Decimal.Text

namespace DecimalCalculator

attribute [local instance (high)] instPowNat

/-! ### Parts -/

inductive Signing where
  | unsigned
  | plus
  | minus
  deriving DecidableEq, Repr

namespace Signing

def chars : Signing → List Char
  | .unsigned => []
  | .plus => ['+']
  | .minus => ['-']

def isMinus : Signing → Bool
  | .unsigned => false
  | .plus => false
  | .minus => true

def apply (sign : Signing) (size : Nat) : Int :=
  if sign.isMinus then -(size : Int) else size

end Signing

structure DigitRun where
  chars : List Char
  digits : ∀ char ∈ chars, char.isDigit = true

/-- Digits before a point and behind it, or without a point; at least one of them. -/
structure Mantissa where
  whole : DigitRun
  /-- The digits behind the point, if there is a point. -/
  fraction : Option DigitRun
  nonempty : whole.chars ++ fraction.elim [] DigitRun.chars ≠ []

namespace Mantissa

def chars (mantissa : Mantissa) : List Char :=
  mantissa.whole.chars ++ mantissa.fraction.elim [] fun run => '.' :: run.chars

def places (mantissa : Mantissa) : List Char :=
  mantissa.fraction.elim [] DigitRun.chars

/-- The integer of all digits, without regard to the point. -/
def size (mantissa : Mantissa) : Nat :=
  Nat.ofDigitChars 10 (mantissa.whole.chars ++ mantissa.places) 0

end Mantissa

structure ExponentPart where
  mark : Char
  isMark : mark = 'e' ∨ mark = 'E'
  sign : Signing
  run : DigitRun
  nonempty : run.chars ≠ []

namespace ExponentPart

def chars (part : ExponentPart) : List Char :=
  part.mark :: (part.sign.chars ++ part.run.chars)

def value (part : ExponentPart) : Int :=
  part.sign.apply (Nat.ofDigitChars 10 part.run.chars 0)

end ExponentPart

/-! ### Numerals -/

/-- A number as it is written. -/
structure Numeral where
  sign : Signing
  mantissa : Mantissa
  exponentPart : Option ExponentPart

namespace Numeral

def chars (numeral : Numeral) : List Char :=
  numeral.sign.chars ++
    (numeral.mantissa.chars ++ numeral.exponentPart.elim [] ExponentPart.chars)

def exponent (numeral : Numeral) : Int :=
  numeral.exponentPart.elim 0 ExponentPart.value

def unscaled (numeral : Numeral) : Int :=
  numeral.sign.apply numeral.mantissa.size

/-- The number of digits behind the point less the exponent. -/
def scale (numeral : Numeral) : Int :=
  numeral.mantissa.places.length - numeral.exponent

def IsNarrow (numeral : Numeral) : Prop :=
  -2 ^ (31 : Nat) ≤ numeral.scale ∧ numeral.scale < 2 ^ (31 : Nat)

instance (numeral : Numeral) : Decidable numeral.IsNarrow :=
  inferInstanceAs (Decidable (_ ∧ _))

/-- The number that a numeral with a narrow scale stands for. -/
def number (numeral : Numeral) : Decimal :=
  ⟨numeral.unscaled, Int64.ofInt numeral.scale⟩

end Numeral
end DecimalCalculator
