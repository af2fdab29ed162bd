/-
Rounding of decimal numbers to a scale or to a number of significant digits,
and the conversions to integers that depend on it.

There is one rounding rule, for a quotient of integers.  Dropping digits of a
number is that rule with a power of ten as the divisor.
-/

import DecimalCalculator.Decimal.Basic
import DecimalCalculator.Decimal.Digits

namespace DecimalCalculator

attribute [local instance (high)] instPowNat

/-! ### The rule -/

/-- Where a quotient that is not an integer goes. -/
inductive RoundingMode where
  /-- The nearest integer, of two the even one. -/
  | halfEven
  /-- The nearest integer, of two the one farther from zero. -/
  | halfUp
  /-- The nearest integer, of two the one closer to zero. -/
  | halfDown
  /-- The next integer towards zero. -/
  | down
  /-- The next integer below. -/
  | floor
  /-- The next integer above. -/
  | ceiling
  deriving DecidableEq, Repr

namespace RoundingMode

/-- Whether a quotient with a nonzero remainder leaves its truncation for the
next integer away from zero.  The remainder enters only by comparison of its
double with the divisor, the quotient by its sign and by the parity of its
truncation. -/
def leavesTruncation (mode : RoundingMode) (doubledRemainder : Ordering)
    (isPositive isOdd : Bool) : Bool :=
  match mode with
  | .halfEven => doubledRemainder == .gt || (doubledRemainder == .eq && isOdd)
  | .halfUp => doubledRemainder != .lt
  | .halfDown => doubledRemainder == .gt
  | .down => false
  | .floor => !isPositive
  | .ceiling => isPositive

/-- The quotient of two integers, the divisor not zero, rounded to an integer. -/
def quotient (mode : RoundingMode) (dividend divisor : Int) : Int :=
  let truncated := dividend.tdiv divisor
  let remainder := dividend - truncated * divisor
  if remainder = 0 then
    truncated
  else
    let isPositive := decide (dividend < 0) == decide (divisor < 0)
    let doubledRemainder := compare (2 * remainder.natAbs) divisor.natAbs
    let isOdd := truncated % 2 != 0
    if mode.leavesTruncation doubledRemainder isPositive isOdd then
      if isPositive then truncated + 1 else truncated - 1
    else
      truncated

end RoundingMode

namespace Decimal

/-! ### Powers of ten -/

/-- The largest exponent of a power of ten that may be written out, that of an
unsigned 32-bit word. -/
def largestExponent : Nat :=
  2 ^ (32 : Nat) - 1

/-- The exponent as a natural number, if such a power of ten may be written out. -/
def writableExponent? (exponent : Int64) : Option Nat :=
  if 0 ≤ exponent ∧ exponent.toNatClampNeg ≤ largestExponent then
    some exponent.toNatClampNeg
  else
    none

/-! ### Rounding to a scale -/

/-- The number with exactly the given scale.

A finer scale only appends zeros.  When more digits are dropped than a power of
ten may have, the number is closer to zero than any half of the last place, so
its sign, seen as a tenth of the last place, rounds in the same way. -/
def setScale (number : Decimal) (target : Int64) (mode : RoundingMode) : Decimal :=
  if number.scale ≤ target then
    ⟨number.alignedTo target, target⟩
  else
    match writableExponent? (number.scale - target) with
    | some dropped => ⟨mode.quotient number.unscaled (10 ^ dropped : Nat), target⟩
    | none => ⟨mode.quotient number.sign 10, target⟩

def ceiling (number : Decimal) : Decimal :=
  number.setScale 0 .ceiling

def floor (number : Decimal) : Decimal :=
  number.setScale 0 .floor

def nearestInteger (number : Decimal) : Decimal :=
  number.setScale 0 .halfUp

/-! ### Rounding to significant digits -/

/-- Number of digits of the unscaled integer; zero has one. -/
def digitCount (number : Decimal) : Nat :=
  Digits.count number.unscaled.natAbs

/-- Power of ten of the first digit: 2 for 123.4 and -2 for 0.05. -/
def leadingExponent (number : Decimal) : Int64 :=
  Int64.ofNat number.digitCount - 1 - number.scale

/-- The number rounded half to even to at most so many significant digits, but
not to fewer than one.  A number with few enough digits keeps its form. -/
def roundToPrecision (number : Decimal) (precision : UInt32) : Decimal :=
  let extra := number.digitCount - max precision.toNat 1
  if extra = 0 then number
  else number.setScale (number.scale - Int64.ofNat extra) .halfEven

/-! ### The shortest form -/

/-- How many zeros stand at the end of a nonzero integer, up to a limit. -/
def trailingZeros : (limit : Nat) → (number : Int) → Nat
  | 0, _ => 0
  | limit + 1, number =>
      if number.tmod 10 = 0 then trailingZeros limit (number.tdiv 10) + 1 else 0

/-- The form with the least scale that is not negative: no zero stands at the
end of the digits after the point, and an integer has no point. -/
def strip (number : Decimal) : Decimal :=
  if number.unscaled = 0 then
    0
  else if number.scale < 0 then
    ⟨number.alignedTo 0, 0⟩
  else
    let zeros := trailingZeros number.scale.toNatClampNeg number.unscaled
    ⟨number.unscaled.tdiv (10 ^ zeros : Nat), number.scale - Int64.ofNat zeros⟩

/-! ### Integers -/

/-- Whether the value is an integer.  A number with more digits after the point
than a power of ten may have is an integer only if it is zero. -/
def isInteger (number : Decimal) : Bool :=
  if number.scale ≤ 0 then
    true
  else
    match writableExponent? number.scale with
    | some places => number.unscaled.tmod (10 ^ places : Nat) == 0
    | none => number.unscaled == 0

/-- The integer part; the digits after the point are dropped. -/
def toInt (number : Decimal) : Int :=
  (number.setScale 0 .down).unscaled

/-- The value, if it is an integer that fits a signed 64-bit word. -/
def toInt64? (number : Decimal) : Option Int64 :=
  if number.isInteger then
    let value := number.toInt
    if -2 ^ (63 : Nat) ≤ value ∧ value < 2 ^ (63 : Nat) then some (Int64.ofInt value) else none
  else
    none

/-- The value, if it is an integer that fits an unsigned 32-bit word. -/
def toUInt32? (number : Decimal) : Option UInt32 :=
  if number.isInteger then
    let value := number.toInt
    if 0 ≤ value ∧ value < 2 ^ (32 : Nat) then some (UInt32.ofNat value.toNat) else none
  else
    none

end Decimal
end DecimalCalculator
