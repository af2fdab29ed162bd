/-
Operations on decimals that end where the words do.

A scale or a distance of two scales that no signed 64-bit word holds breaks off the
computation.  Where the words suffice, the result is that of the operation of the same
name, whose sums of scales are taken modulo `2 ^ 64`.
-/

import DecimalCalculator.Decimal.Rounding
import DecimalCalculator.Error

namespace DecimalCalculator
namespace Decimal
namespace Checked

/-! ### Arithmetic -/

def add (left right : Decimal) : Outcome Decimal :=
  unlessOverflow (Aligned left right) (left + right)

def sub (left right : Decimal) : Outcome Decimal :=
  unlessOverflow (Aligned left right) (left - right)

def mul (left right : Decimal) : Outcome Decimal :=
  unlessOverflow (IsWord (left.scale.toInt + right.scale.toInt)) (left * right)

def power (base : Decimal) (exponent : Nat) : Outcome Decimal :=
  if exponent = 0 then
    .ok 1
  else do
    let root ← power base (exponent / 2)
    let square ← mul root root
    if exponent % 2 = 0 then return square else mul square base
termination_by exponent

/-! ### Order -/

def compare (left right : Decimal) : Outcome Ordering :=
  unlessOverflow (Comparable left right) (left.compare right)

def sameValue (left right : Decimal) : Outcome Bool :=
  return (← compare left right) == .eq

def isLess (left right : Decimal) : Outcome Bool :=
  return (← compare left right) == .lt

/-! ### Rounding -/

def word (size : Int) : Outcome Int64 :=
  unlessOverflow (IsWord size) (Int64.ofInt size)

def setScale (number : Decimal) (target : Int64) (mode : RoundingMode) : Outcome Decimal :=
  unlessOverflow (number.Meets target) (number.setScale target mode)

def leadingExponent (number : Decimal) : Outcome Int64 :=
  word (number.digitCount - 1 - number.scale.toInt)

def roundToPrecision (number : Decimal) (precision : UInt32) : Outcome Decimal := do
  let extra := number.digitCount - max precision.toNat 1
  if extra = 0 then
    return number
  let target ← word (number.scale.toInt - extra)
  setScale number target .halfEven

def strip (number : Decimal) : Outcome Decimal :=
  unlessOverflow (number.Reaches 0) number.strip

/-! ### Reports -/

/-- An error whose text shows a number, which is written out at the scale 0. -/
def refuse {α : Type} (error : EvaluationError) (number : Decimal) : Outcome α := do
  requireWords (number.Reaches 0)
  throw error

/-! ### Integers -/

def floor (number : Decimal) : Outcome Decimal :=
  setScale number 0 .floor

def ceiling (number : Decimal) : Outcome Decimal :=
  setScale number 0 .ceiling

def nearestInteger (number : Decimal) : Outcome Decimal :=
  setScale number 0 .halfUp

def toInt (number : Decimal) : Outcome Int :=
  return (← setScale number 0 .down).unscaled

def toInt64? (number : Decimal) : Outcome (Option Int64) :=
  unlessOverflow (number.isInteger = true → number.Meets 0) number.toInt64?

def toUInt32? (number : Decimal) : Outcome (Option UInt32) :=
  unlessOverflow (number.isInteger = true → number.Meets 0) number.toUInt32?

end Checked
end Decimal
end DecimalCalculator
