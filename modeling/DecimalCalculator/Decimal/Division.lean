/-
Division of decimal numbers: quotients rounded to a scale or to a number of
significant digits, and the remainder of the truncated division.
-/

import DecimalCalculator.Decimal.Checked

namespace DecimalCalculator
namespace Decimal

attribute [local instance (high)] instPowNat

/-- A power of ten, or the exponent as an error if the power has too many digits. -/
def powerOfTen (exponent : Int64) : Outcome Nat :=
  match writableExponent? exponent with
  | some places => .ok (10 ^ places)
  | none => .error (.exponentTooLarge exponent.toInt)

/-- The exponent of the power of ten that a quotient at a scale takes. -/
def quotientExponent (dividend divisor : Decimal) (scale : Int64) : Int :=
  scale.toInt + divisor.scale.toInt - dividend.scale.toInt

/-- The exponent, the sum of scales on the way to it, and its opposite are words. -/
structure DividesAt (dividend divisor : Decimal) (scale : Int64) : Prop where
  sum : IsWord (scale.toInt + divisor.scale.toInt)
  exponent : IsWord (quotientExponent dividend divisor scale)
  opposite : IsWord (-quotientExponent dividend divisor scale)

instance (dividend divisor : Decimal) (scale : Int64) :
    Decidable (DividesAt dividend divisor scale) :=
  decidable_of_iff (IsWord _ ∧ IsWord _ ∧ IsWord _)
    ⟨fun all => ⟨all.1, all.2.1, all.2.2⟩, fun fits => ⟨fits.sum, fits.exponent, fits.opposite⟩⟩

/-- The quotient with exactly the given scale, rounded once. -/
def divideAtScale (dividend divisor : Decimal) (scale : Int64) (mode : RoundingMode) :
    Outcome Decimal := do
  if divisor.isZero then
    throw .divisionByZero
  requireWords (DividesAt dividend divisor scale)
  let exponent := scale + divisor.scale - dividend.scale
  if 0 ≤ exponent then
    let factor ← powerOfTen exponent
    return ⟨mode.quotient (dividend.unscaled * factor) divisor.unscaled, scale⟩
  else
    let factor ← powerOfTen (-exponent)
    return ⟨mode.quotient dividend.unscaled (divisor.unscaled * factor), scale⟩

/-- The quotient rounded half to even to so many significant digits.

The first rounding leaves at least two digits more than are asked for. -/
def divideToPrecision (dividend divisor : Decimal) (precision : UInt32) : Outcome Decimal := do
  if divisor.isZero then
    throw .divisionByZero
  if dividend.isZero then
    return 0
  let first ← Checked.leadingExponent dividend
  let second ← Checked.leadingExponent divisor
  let exponent ← Checked.word (first.toInt - second.toInt)
  let scale ← Checked.word (precision.toNat + 2 - exponent.toInt)
  let quotient ← dividend.divideAtScale divisor scale .halfEven
  Checked.roundToPrecision quotient precision

/-- What the truncated division by a nonzero number leaves of the dividend: exact, with the
sign of the dividend, at the finer of the two scales. -/
def rest (dividend divisor : Decimal) : Decimal :=
  let scale := dividend.commonScale divisor
  ⟨(dividend.alignedTo scale).tmod (divisor.alignedTo scale), scale⟩

def remainder (dividend divisor : Decimal) : Outcome Decimal :=
  if divisor.isZero then .error .divisionByZero
  else unlessOverflow (Aligned dividend divisor) (dividend.rest divisor)

end Decimal
end DecimalCalculator
