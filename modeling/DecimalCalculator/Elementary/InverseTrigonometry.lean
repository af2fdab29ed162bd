/-
The inverse trigonometric functions, with results in radians.

All of them come down to the inverse tangent of a number between 0 and 1.
-/

import DecimalCalculator.Elementary.Root
import DecimalCalculator.Elementary.Trigonometry

namespace DecimalCalculator
namespace Elementary

open Decimal

/-! ### Inverse tangent -/

/-- The tangent of half the angle whose tangent is given: `x / (1 + sqrt (1 + x ^ 2))`. -/
def halfAngleTangent (tangent : Decimal) (scale : Int64) : Outcome Decimal := do
  let square ← Checked.mul tangent tangent
  let hypotenuse ← rootAtScale (← Checked.add 1 square) 2 scale
  tangent.divideAtScale (1 + hypotenuse) scale .halfEven

/-- The inverse tangent of a number between 0 and 1, as four times the angle that
is left after halving it twice. -/
def atanOfUnit (tangent : Decimal) (scale : Int64) : Outcome Decimal := do
  let halved ← halfAngleTangent tangent scale
  let quartered ← halfAngleTangent halved scale
  return 4 * (← Series.oddPowers .alternating quartered scale)

def rightAngle (scale : Int64) : Outcome Decimal := do
  return (← piAtScale scale) * half

/-- A result for the absolute value of a number, carried over to the number by
the oddness of the function. -/
def withSignOf (argument result : Decimal) : Decimal :=
  if argument.isNegative then -result else result

/-- The inverse tangent at a scale.  Above 1 it is the complement of the inverse
tangent of the reciprocal. -/
def atanAtScale (tangent : Decimal) (scale : Int64) : Outcome Decimal := do
  if tangent.isZero then
    return 0
  let size := tangent.abs
  requireWords (Comparable 1 size)
  if size > 1 then
    let reciprocal ← divideAtScale 1 size scale .halfEven
    return withSignOf tangent ((← rightAngle scale) - (← atanOfUnit reciprocal scale))
  else
    return withSignOf tangent (← atanOfUnit size scale)

def atan (tangent : Decimal) (precision : Precision) : Outcome Decimal := do
  let scale ← precision.scaleNear tangent
  return (← atanAtScale tangent scale).roundToPrecision precision

def acot (cotangent : Decimal) (precision : Precision) : Outcome Decimal := do
  requireWords precision.Guards
  let scale := precision.seriesScale
  return ((← rightAngle scale) - (← atanAtScale cotangent scale)).roundToPrecision precision

/-! ### Inverse sine and cosine -/

/-- The inverse sine at a scale, as the inverse tangent of `x / sqrt (1 - x ^ 2)`. -/
def asinAtScale (sine : Decimal) (scale : Int64) : Outcome Decimal := do
  let size := sine.abs
  requireWords (Comparable 1 size)
  if size > 1 then
    throw (.sineOutOfRange sine)
  if size.sameValue 1 then
    return withSignOf sine (← rightAngle scale)
  let square ← Checked.mul size size
  let cosine ← rootAtScale (← Checked.sub 1 square) 2 scale
  let tangent ← size.divideAtScale cosine scale .halfEven
  return withSignOf sine (← atanAtScale tangent scale)

def asin (sine : Decimal) (precision : Precision) : Outcome Decimal := do
  let scale ← precision.scaleNear sine
  return (← asinAtScale sine scale).roundToPrecision precision

/-- The inverse cosine, the complement of the inverse sine. -/
def acos (cosine : Decimal) (precision : Precision) : Outcome Decimal := do
  requireWords precision.Guards
  let scale := precision.seriesScale
  return ((← rightAngle scale) - (← asinAtScale cosine scale)).roundToPrecision precision

/-! ### Inverse secant and cosecant -/

/-- The reciprocal of a secant or cosecant, which is never below 1 in size. -/
def reciprocalOfSecant (secant : Decimal) (precision : Precision) : Outcome Decimal := do
  requireWords (Comparable secant.abs 1)
  if secant.abs < 1 then
    throw (.secantOutOfRange secant)
  requireWords precision.Guards
  divideToPrecision 1 secant precision.guarded

def asec (secant : Decimal) (precision : Precision) : Outcome Decimal := do
  acos (← reciprocalOfSecant secant precision) precision

def acsc (cosecant : Decimal) (precision : Precision) : Outcome Decimal := do
  asin (← reciprocalOfSecant cosecant precision) precision

end Elementary
end DecimalCalculator
