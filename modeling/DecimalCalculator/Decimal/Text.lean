/-
The written form of decimal numbers.

Writing shows every digit of the unscaled integer: the zeros at the end of
1.50 are kept, and a negative scale appears as zeros in front of the missing
point.  Reading accepts an optional sign, digits with at most one point, and an
optional exponent of ten; the result keeps exactly the digits that were written.
-/

import DecimalCalculator.Decimal.Basic
import DecimalCalculator.Decimal.Digits

namespace DecimalCalculator
namespace Decimal

attribute [local instance (high)] instPowNat

/-! ### Writing -/

/-- Characters of the number without exponent: an integer for scales up to zero,
otherwise exactly `scale` digits after the point and at least one before it. -/
def toChars (number : Decimal) : List Char :=
  if number.unscaled = 0 ∧ number.scale ≤ 0 then
    ['0']
  else
    let sign := if number.isNegative then ['-'] else []
    let digits := Digits.written number.unscaled.natAbs
    if number.scale ≤ 0 then
      sign ++ digits ++ List.replicate number.scale.toInt.natAbs '0'
    else
      let places := number.scale.toNatClampNeg
      let padded := List.replicate (places + 1 - digits.length) '0' ++ digits
      let whole := padded.length - places
      sign ++ padded.take whole ++ '.' :: padded.drop whole

def toText (number : Decimal) : String :=
  String.ofList number.toChars

instance : ToString Decimal :=
  ⟨toText⟩

def debugText (number : Decimal) : String :=
  s!"Decimal({number.toText})"

/-! ### Reading -/

def isExponentMark (char : Char) : Bool :=
  char == 'e' || char == 'E'

def splitSign : List Char → Bool × List Char
  | '-' :: rest => (true, rest)
  | '+' :: rest => (false, rest)
  | rest => (false, rest)

/-- The value of a run of ASCII digits, provided that it is one. -/
def digitsValue? (digits : List Char) : Option Nat :=
  if digits.all Char.isDigit then some (Nat.ofDigitChars 10 digits 0) else none

def word? (size : Int) : Option Int64 :=
  if -2 ^ (63 : Nat) ≤ size ∧ size < 2 ^ (63 : Nat) then some (Int64.ofInt size) else none

/-- Characters before the exponent mark, and the exponent: 0 without a mark,
otherwise an optionally signed run of at least one digit.  An exponent that is no
signed 64-bit word is refused. -/
def splitExponent? (chars : List Char) : Option (List Char × Int64) :=
  let mantissa := chars.takeWhile (!isExponentMark ·)
  match chars.dropWhile (!isExponentMark ·) with
  | [] => some (mantissa, 0)
  | _ :: written => do
      let (negative, digits) := splitSign written
      if digits.isEmpty then none
      let size ← digitsValue? digits
      let exponent ← word? (if negative then -(size : Int) else size)
      return (mantissa, exponent)

/-- Scales that a written number may have: those of a signed 32-bit word. -/
def isWritableScale (scale : Int64) : Bool :=
  -2 ^ (31 : Nat) ≤ scale.toInt && scale.toInt < 2 ^ (31 : Nat)

/-- Reads a number, such as 12, -12.50, .5, 12. and 25e-3.  The scale of the
result is the number of digits after the point less the exponent. -/
def ofChars? (chars : List Char) : Option Decimal := do
  let (negative, body) := splitSign chars
  let (mantissa, exponent) ← splitExponent? body
  let whole := mantissa.takeWhile (· != '.')
  let fraction := (mantissa.dropWhile (· != '.')).drop 1
  let digits := whole ++ fraction
  if digits.isEmpty then none
  let size ← digitsValue? digits
  let scale ← word? (fraction.length - exponent.toInt)
  if isWritableScale scale then
    return ⟨if negative then -(size : Int) else size, scale⟩
  else
    none

/-- Reads a number from its text, or nothing if the text is not a number. -/
def ofText? (text : String) : Option Decimal :=
  ofChars? text.toList

end Decimal
end DecimalCalculator
