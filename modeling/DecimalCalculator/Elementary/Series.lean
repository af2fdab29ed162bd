/-
Sums of power series at a fixed number of digits after the point.

Every term is rounded half to even at the scale of the series, and the sum ends
with the first term that is rounded to zero.  Inside the disc of convergence
the rounded terms shrink, and a sum ends so after a number of steps that its
scale decides; a term that does not shrink is the other end of a sum, so that
every sum is finite.
-/

import DecimalCalculator.Decimal.Division

namespace DecimalCalculator

attribute [local instance (high)] instPowNat

/-! ### Precision -/

/-- A number of significant digits, an unsigned 32-bit word. -/
abbrev Precision :=
  UInt32

namespace Precision

/-- The precision with ten guard digits for intermediate results. -/
def guarded (precision : Precision) : Precision :=
  precision + 10

/-- A word holds the precision with its guard digits. -/
def Guards (precision : Precision) : Prop :=
  precision.toNat + 10 < 2 ^ (32 : Nat)

instance (precision : Precision) : Decidable precision.Guards :=
  inferInstanceAs (Decidable (_ < _))

def seriesScale (precision : Precision) : Int64 :=
  Int64.ofNat precision.guarded.toNat

/-- The scale of a series whose result is as small as a number: the zeros in front of its first
digit also stand in front of the result. -/
def scaleNear (precision : Precision) (number : Decimal) : Outcome Int64 := do
  requireWords precision.Guards
  let leading ← Decimal.Checked.leadingExponent number
  let zeros ← Decimal.Checked.word (-leading.toInt)
  Decimal.Checked.word (precision.seriesScale.toInt + max zeros.toInt 0)

end Precision

namespace Series

open Decimal

/-! ### Terms computed from their predecessors -/

/-- Adds to a sum the terms that follow a term; `next index term` is the term
after the one with this index. -/
def sumAfter (next : Nat → Decimal → Outcome Decimal) (index : Nat) (term sum : Decimal) :
    Outcome Decimal := do
  let following ← next index term
  if following.isZero then
    return sum
  let extended := sum + following
  if _shrinks : following.unscaled.natAbs < term.unscaled.natAbs then
    sumAfter next (index + 1) following extended
  else
    return extended
termination_by term.unscaled.natAbs

/-- Sum of a series from its first term on.  The second term may be larger than
the first one, which need not be written at the scale of the series. -/
def sumFrom (next : Nat → Decimal → Outcome Decimal) (first : Decimal) : Outcome Decimal := do
  let second ← next 0 first
  if second.isZero then
    return first
  sumAfter next 1 second (first + second)

/-! ### Odd powers over odd numbers -/

inductive Signs where
  | positive
  | alternating
  deriving DecidableEq, Repr

/-- The sum with the term of this index added, or subtracted at odd indices of
an alternating series. -/
def Signs.accumulate (signs : Signs) (index : Nat) (sum term : Decimal) : Decimal :=
  if signs = .alternating ∧ index % 2 = 1 then sum - term else sum + term

def productAt (left right : Decimal) (scale : Int64) : Outcome Decimal := do
  Checked.setScale (← Checked.mul left right) scale .halfEven

/-- Adds to a sum the terms from this index on; `power` is the odd power that
belongs to the term before. -/
def oddPowersAfter (signs : Signs) (scale : Int64) (square : Decimal)
    (index : Nat) (power sum : Decimal) : Outcome Decimal := do
  let higher ← productAt power square scale
  if higher.isZero then
    return sum
  let term ← higher.divideAtScale (ofInt (2 * index + 1)) scale .halfEven
  if term.isZero then
    return sum
  let extended := signs.accumulate index sum term
  if _shrinks : higher.unscaled.natAbs < power.unscaled.natAbs then
    oddPowersAfter signs scale square (index + 1) higher extended
  else
    return extended
termination_by power.unscaled.natAbs

/-- Sum of `x ^ (2 * k + 1) / (2 * k + 1)` over all `k`: the inverse tangent with
alternating signs, the inverse hyperbolic tangent without. -/
def oddPowers (signs : Signs) (argument : Decimal) (scale : Int64) : Outcome Decimal := do
  let square ← productAt argument argument scale
  let first ← Checked.setScale argument scale .halfEven
  oddPowersAfter signs scale square 1 first first

/-! ### Reduction of the argument -/

/-- Halves a number at most so many times until it does not exceed a limit; the
result comes with the number of halvings. -/
def halveWithin (limit : Decimal) : (most : Nat) → (number : Decimal) → Decimal × Nat
  | 0, number => (number, 0)
  | most + 1, number =>
      if number > limit then
        let (reduced, halvings) := halveWithin limit most (number * half)
        (reduced, halvings + 1)
      else
        (number, 0)

/-- Halvings that bring a number to one half or below.  An integer of `b` bits is
at most one half after `b + 1` of them, and a fraction is not larger than its
unscaled integer. -/
def mostHalvings (number : Decimal) : Nat :=
  (number.alignedTo 0).natAbs.log2 + 2

/-- Halves a positive number until it does not exceed a limit of at least one
half. -/
def halveTo (limit number : Decimal) : Decimal × Nat :=
  halveWithin limit (mostHalvings number) number

/-- Every comparison and every product of a number that is halved at most so many times
stays within the words. -/
def HalvesWithin (limit : Decimal) : (most : Nat) → (number : Decimal) → Prop
  | 0, _ => True
  | most + 1, number =>
      Comparable limit number ∧
        (limit < number → IsWord (number.scale.toInt + 1) ∧ HalvesWithin limit most (number * half))

instance decidableHalvesWithin (limit : Decimal) :
    (most : Nat) → (number : Decimal) → Decidable (HalvesWithin limit most number)
  | 0, _ => isTrue trivial
  | most + 1, number =>
      have := decidableHalvesWithin limit most (number * half)
      inferInstanceAs (Decidable (_ ∧ (_ → _ ∧ _)))

def Halves (limit number : Decimal) : Prop :=
  HalvesWithin limit (mostHalvings number) number

instance (limit number : Decimal) : Decidable (Halves limit number) :=
  decidableHalvesWithin limit _ number

def Checked.halveTo (limit number : Decimal) : Outcome (Decimal × Nat) :=
  unlessOverflow (Halves limit number) (Series.halveTo limit number)

end Series
end DecimalCalculator
