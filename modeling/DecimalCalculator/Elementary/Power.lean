/-
Powers.  An integer exponent gives the exact power.  Any other exponent is
rounded to three digits after the point and read as a fraction in lowest terms,
and the result is a root of an exact power.
-/

import DecimalCalculator.Elementary.Root

namespace DecimalCalculator
namespace Elementary

open Decimal

attribute [local instance (high)] instPowNat

/-- The exact power with a natural exponent.  Powers of 1 and -1 exist for every
exponent, other powers for exponents that fit an unsigned 64-bit word. -/
def powerOfNatural (base : Decimal) (exponent : Nat) : Outcome Decimal := do
  if exponent = 0 then
    return 1
  if ← Checked.sameValue base.abs 1 then
    return if base.isNegative ∧ exponent % 2 = 1 then -1 else 1
  if exponent < 2 ^ (64 : Nat) then
    Checked.power base exponent
  else
    throw (.exponentTooLarge exponent)

/-- The exponent in the form that powers use: an integer as it stands, any other
number rounded to thousandths, halves towards zero. -/
def roundedExponent (exponent : Decimal) : Decimal :=
  if exponent.isInteger then exponent else exponent.setScale 3 .halfDown

/-- The power of a nonzero base with an exponent that is not negative.  The
denominator of the reduced fraction divides 1000. -/
def powerOfNonnegative (base exponent : Decimal) (precision : Precision) : Outcome Decimal := do
  let exponent := roundedExponent exponent
  if exponent.isInteger then
    powerOfNatural base (← Checked.toInt exponent).natAbs
  else
    let thousandths := exponent.unscaled.natAbs
    let common := thousandths.gcd 1000
    let powered ← powerOfNatural base (thousandths / common)
    root powered (UInt32.ofNat (1000 / common)) precision

/-- The base raised to the exponent.  A power of zero is zero for positive
exponents only.  A negative exponent gives the reciprocal of the power with the
opposite exponent, without zeros at its end. -/
def pow (base exponent : Decimal) (precision : Precision) : Outcome Decimal := do
  if base.isZero then
    if exponent.isNegative then
      throw .notANumber
    if exponent.isZero then
      throw .undefinedPower
    return 0
  if exponent.isNegative then
    requireWords precision.Guards
    let opposite ← powerOfNonnegative base (-exponent) precision.guarded
    return ← Checked.strip (← divideToPrecision 1 opposite precision)
  powerOfNonnegative base exponent precision

end Elementary
end DecimalCalculator
