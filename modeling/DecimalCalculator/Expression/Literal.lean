/-
Decimal literals inside expressions.  They carry no sign, neither in front nor
in the exponent, because a sign is an operator there.
-/

import DecimalCalculator.Decimal.Text

namespace DecimalCalculator
namespace Literal

attribute [local instance (high)] instPowNat

def isMantissaChar (char : Char) : Bool :=
  char.isDigit || char == '.'

/-- Whether signed 32-bit words count the digits and the points up to the first character
that is neither. -/
def isCountable (chars : List Char) : Bool :=
  let counted := chars.takeWhile isMantissaChar
  counted.countP Char.isDigit < 2 ^ (31 : Nat) && counted.count '.' < 2 ^ (31 : Nat)

def isMantissa (chars : List Char) : Bool :=
  chars.all isMantissaChar && chars.any Char.isDigit &&
    chars.count '.' ≤ 1

/-- What follows a mantissa: nothing, or an exponent mark and at least one digit. -/
def isExponent : List Char → Bool
  | [] => true
  | _ :: digits => !digits.isEmpty && digits.all Char.isDigit

/-- Whether the characters are a literal such as 12, .5, 3., 1.5e7 or 2E3. -/
def isLiteral (chars : List Char) : Bool :=
  isMantissa (chars.takeWhile (!Decimal.isExponentMark ·)) &&
    isExponent (chars.dropWhile (!Decimal.isExponentMark ·))

end Literal
end DecimalCalculator
