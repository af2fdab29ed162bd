/-
The exponential function, by its Taylor series for an argument that has been
halved to at most one half and by squaring the sum as often again.
-/

import DecimalCalculator.Elementary.Series

namespace DecimalCalculator
namespace Elementary

open Decimal

/-- The Taylor sum of the exponential function at the scale of the argument. -/
def expSeries (argument : Decimal) (scale : Int64) : Outcome Decimal :=
  Series.sumFrom
    (fun index term => (term * argument).divideAtScale (ofInt (index + 1)) scale .halfEven) 1

def squareRepeatedly (scale : Int64) : (times : Nat) → (number : Decimal) → Decimal
  | 0, number => number
  | times + 1, number =>
      squareRepeatedly scale times ((number * number).setScale scale .halfEven)

/-- The exponential of a positive number.  Each squaring doubles the error of
the sum, so ten halvings cost three more digits. -/
def expOfPositive (argument : Decimal) (precision : Precision) : Outcome Decimal := do
  let (reduced, halvings) ← Series.Checked.halveTo half argument
  requireWords (precision.Guards ∧ IsWord (halvings * 3))
  let scale := precision.seriesScale + Int64.ofNat (halvings * 3 / 10) + 1
  let sum ← expSeries (← Checked.setScale reduced scale .halfEven) scale
  return (squareRepeatedly scale halvings sum).roundToPrecision precision

/-- The exponential function.  Of a negative number it is the reciprocal of the
exponential of the opposite number. -/
def exp (argument : Decimal) (precision : Precision) : Outcome Decimal := do
  if argument.isZero then
    return 1
  if argument.isNegative then
    requireWords precision.Guards
    let opposite ← expOfPositive (-argument) precision.guarded
    divideToPrecision 1 opposite precision
  else
    expOfPositive argument precision

def e (precision : Precision) : Outcome Decimal :=
  exp 1 precision

end Elementary
end DecimalCalculator
