/-
The number pi and the trigonometric functions of an angle in radians.

Angles are moved next to zero by whole turns, with as many digits of pi as the
angle has before the point.  Tangent, cotangent, secant and cosecant are
refused where the function in their denominator vanishes.
-/

import DecimalCalculator.Elementary.Series

namespace DecimalCalculator
namespace Elementary

open Decimal

/-! ### Pi -/

/-- Pi at a scale, as 16 arctan (1 / 5) - 4 arctan (1 / 239). -/
def piAtScale (scale : Int64) : Outcome Decimal := do
  requireWords (IsWord (scale.toInt + 5))
  let inner := scale + 5
  let fifth ← divideAtScale 1 5 inner .halfEven
  let small ← divideAtScale 1 239 inner .halfEven
  let sum := 16 * (← Series.oddPowers .alternating fifth inner) -
    4 * (← Series.oddPowers .alternating small inner)
  return sum.setScale scale .halfEven

def pi (precision : Precision) : Outcome Decimal := do
  requireWords precision.Guards
  return (← piAtScale precision.seriesScale).roundToPrecision precision

/-! ### Sine and cosine -/

/-- An angle that differs from the given one by whole turns and lies between
minus pi and pi.  Angles up to 3 are left alone. -/
def reducedAngle (angle : Decimal) (scale : Int64) : Outcome Decimal := do
  requireWords (Comparable angle.abs 3)
  if angle.abs ≤ 3 then
    return ← Checked.setScale angle scale .halfEven
  let leading ← Checked.leadingExponent angle
  let inner ← Checked.word (scale.toInt + max leading.toInt 0 + 2)
  let turn := 2 * (← piAtScale inner)
  let turns ← angle.divideAtScale turn 0 .halfEven
  Checked.setScale (← Checked.sub angle (turns * turn)) scale .halfEven

/-- Sum of the Taylor series whose term of index `k + 1` is the term of index `k`
times `-x ^ 2 / ((2 * k + offset) * (2 * k + offset + 1))`. -/
def circularSeries (angle first : Decimal) (offset : Nat) (scale : Int64) : Outcome Decimal :=
  let square := (angle * angle).setScale scale .halfEven
  Series.sumFrom
    (fun index term => do
      let denominator := (2 * index + offset) * (2 * index + offset + 1)
      return -(← (term * square).divideAtScale (ofInt denominator) scale .halfEven))
    first

def sinAtScale (angle : Decimal) (scale : Int64) : Outcome Decimal := do
  let reduced ← reducedAngle angle scale
  circularSeries reduced reduced 2 scale

def cosAtScale (angle : Decimal) (scale : Int64) : Outcome Decimal := do
  circularSeries (← reducedAngle angle scale) 1 1 scale

def sin (angle : Decimal) (precision : Precision) : Outcome Decimal := do
  requireWords precision.Guards
  return (← sinAtScale angle precision.seriesScale).roundToPrecision precision

def cos (angle : Decimal) (precision : Precision) : Outcome Decimal := do
  requireWords precision.Guards
  return (← cosAtScale angle precision.seriesScale).roundToPrecision precision

/-! ### Quotients of sine and cosine -/

/-- Whether a denominator is zero when it is rounded two digits short of the
precision; these two digits are noise from the rounding of the angle. -/
def vanishes (denominator : Decimal) (precision : Precision) : Bool :=
  (denominator.setScale (Int64.ofNat precision.toNat - 2) .halfUp).isZero

def tan (angle : Decimal) (precision : Precision) : Outcome Decimal := do
  requireWords precision.Guards
  let cosine ← cosAtScale angle precision.seriesScale
  if vanishes cosine precision then
    throw (.tangentPole angle)
  (← sinAtScale angle precision.seriesScale).divideToPrecision cosine precision

def cot (angle : Decimal) (precision : Precision) : Outcome Decimal := do
  requireWords precision.Guards
  let sine ← sinAtScale angle precision.seriesScale
  if vanishes sine precision then
    throw (.cotangentPole angle)
  (← cosAtScale angle precision.seriesScale).divideToPrecision sine precision

def sec (angle : Decimal) (precision : Precision) : Outcome Decimal := do
  requireWords precision.Guards
  let cosine ← cosAtScale angle precision.seriesScale
  if vanishes cosine precision then
    throw (.secantPole angle)
  divideToPrecision 1 cosine precision

def csc (angle : Decimal) (precision : Precision) : Outcome Decimal := do
  requireWords precision.Guards
  let sine ← sinAtScale angle precision.seriesScale
  if vanishes sine precision then
    throw (.cosecantPole angle)
  divideToPrecision 1 sine precision

end Elementary
end DecimalCalculator
