/-
Roots: of integer degree, exactly truncated and then rounded, and of any other
degree through the logarithm.
-/

import DecimalCalculator.Arithmetic.IntegerRoot
import DecimalCalculator.Elementary.Exponential
import DecimalCalculator.Elementary.Logarithm

namespace DecimalCalculator
namespace Elementary

open Decimal

/-- The exponent of the power of ten that a root at a scale takes, the product on the way to it,
and its opposite are words. -/
structure RootsAt (radicand : Decimal) (degree : Nat) (scale : Int64) : Prop where
  places : IsWord (degree * scale.toInt)
  exponent : IsWord (degree * scale.toInt - radicand.scale.toInt)
  opposite : IsWord (radicand.scale.toInt - degree * scale.toInt)

instance (radicand : Decimal) (degree : Nat) (scale : Int64) :
    Decidable (RootsAt radicand degree scale) :=
  decidable_of_iff (IsWord _ ∧ IsWord _ ∧ IsWord _)
    ⟨fun all => ⟨all.1, all.2.1, all.2.2⟩, fun fits => ⟨fits.places, fits.exponent, fits.opposite⟩⟩

/-- The root of a number that is not negative, truncated to a scale. -/
def rootAtScale (radicand : Decimal) (degree : Nat) (scale : Int64) : Outcome Decimal := do
  requireWords (RootsAt radicand degree scale)
  let exponent := Int64.ofNat degree * scale - radicand.scale
  let units := radicand.unscaled.natAbs
  if 0 ≤ exponent then
    let factor ← powerOfTen exponent
    return ⟨IntegerRoot.floorRoot degree (units * factor), scale⟩
  else
    let factor ← powerOfTen (-exponent)
    return ⟨IntegerRoot.floorRoot degree (units / factor), scale⟩

/-- The root of a positive number.  The scale leaves guard digits behind the
precision whatever the size of the root is. -/
def rootOfPositive (radicand : Decimal) (degree : UInt32) (precision : Precision) :
    Outcome Decimal := do
  requireWords precision.Guards
  let leading ← Checked.leadingExponent radicand
  let scale ← Checked.word (precision.seriesScale.toInt - leading.toInt / degree.toNat)
  let root ← rootAtScale radicand degree.toNat scale
  Checked.roundToPrecision root precision

/-- The root of an integer degree.  The odd root of a negative number is the
opposite of the root of the opposite number. -/
def root (radicand : Decimal) (degree : UInt32) (precision : Precision) : Outcome Decimal := do
  if degree = 0 then
    throw .divisionByZero
  if radicand.isZero then
    return 0
  if radicand.isNegative then
    if degree % 2 = 0 then
      return ← Checked.refuse (.evenRootOfNegative radicand) radicand
    return -(← rootOfPositive radicand.abs degree precision)
  rootOfPositive radicand degree precision

def sqrt (radicand : Decimal) (precision : Precision) : Outcome Decimal :=
  root radicand 2 precision

/-- The root of any degree.  A negative integer degree gives the reciprocal of
the root, a degree that is not an integer the exponential of `ln a / n`. -/
def rootOfDegree (radicand degree : Decimal) (precision : Precision) : Outcome Decimal := do
  if degree.isZero then
    throw .divisionByZero
  if radicand.isZero then
    return 0
  match ← Checked.toUInt32? degree.abs with
  | some integerDegree =>
      let result ← root radicand integerDegree precision
      if degree.isNegative then
        divideToPrecision 1 result precision
      else
        return result
  | none =>
      requireWords precision.Guards
      let logarithm ← ln radicand precision.guarded
      exp (← logarithm.divideToPrecision degree precision.guarded) precision

def goldenRatio (precision : Precision) : Outcome Decimal := do
  requireWords precision.Guards
  let rootOfFive ← sqrt 5 precision.guarded
  return ((1 + rootOfFive) * half).roundToPrecision precision

end Elementary
end DecimalCalculator
