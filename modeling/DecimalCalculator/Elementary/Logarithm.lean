/-
Logarithms.  An argument is written as y * 2 ^ j * 10 ^ a with y close to one,
and the logarithm of y is twice the inverse hyperbolic tangent of
(y - 1) / (y + 1).
-/

import DecimalCalculator.Elementary.Series

namespace DecimalCalculator
namespace Elementary

open Decimal

/-- Twice the inverse hyperbolic tangent of a reciprocal integer. -/
def doubledArtanhOfReciprocal (integer : Decimal) (scale : Int64) : Outcome Decimal := do
  let reciprocal ← divideAtScale 1 integer scale .halfEven
  return 2 * (← Series.oddPowers .positive reciprocal scale)

/-- The natural logarithm of 2, where (2 - 1) / (2 + 1) is one third. -/
def lnOfTwo (scale : Int64) : Outcome Decimal :=
  doubledArtanhOfReciprocal 3 scale

/-- The natural logarithm of 10, which is 2 ^ 3 * 1.25, and
(1.25 - 1) / (1.25 + 1) is one ninth. -/
def lnOfTen (scale : Int64) : Outcome Decimal := do
  return 3 * (← lnOfTwo scale) + (← doubledArtanhOfReciprocal 9 scale)

/-- The largest factor that the logarithm does not halve, 1.5. -/
def nearOneLimit : Decimal :=
  ⟨15, 1⟩

/-- Natural logarithm.  Close to one the scale grows by the zeros in front of
the first digit of the distance from one, for the logarithm is as small. -/
def ln (argument : Decimal) (precision : Precision) : Outcome Decimal := do
  if argument.sign ≤ 0 then
    return ← Checked.refuse (.logarithmOfNonpositive argument) argument
  if ← Checked.sameValue argument 1 then
    return 0
  let decade ← Checked.leadingExponent argument
  let mantissa : Decimal := ⟨argument.unscaled, argument.scale + decade⟩
  let scale ← precision.scaleNear (argument - 1).abs
  let (factor, halvings) ← Series.Checked.halveTo nearOneLimit mantissa
  let ratio ← (factor - 1).divideAtScale (factor + 1) scale .halfEven
  let mut result := 2 * (← Series.oddPowers .positive ratio scale)
  if halvings ≠ 0 then
    result := result + ofInt halvings * (← lnOfTwo scale)
  if decade ≠ 0 then
    result := result + ofInt decade.toInt * (← lnOfTen scale)
  return result.roundToPrecision precision

/-- Logarithm to a base, as the quotient of two natural logarithms with guard
digits.  The base 1 makes the divisor zero. -/
def logToBase (argument base : Decimal) (precision : Precision) : Outcome Decimal := do
  if argument.sign ≤ 0 then
    return ← Checked.refuse (.logarithmOfNonpositive argument) argument
  requireWords precision.Guards
  let lnArgument ← ln argument precision.guarded
  let lnBase ← ln base precision.guarded
  lnArgument.divideToPrecision lnBase precision

def log10 (argument : Decimal) (precision : Precision) : Outcome Decimal :=
  logToBase argument 10 precision

end Elementary
end DecimalCalculator
