/-
Factorials with a step: the product of n, n - s, n - 2s and so on, as long as
the terms are positive.

Terms next to each other are the integers of a range, which is split at its
middle, so that long factors are multiplied with long factors.  Terms that are
farther apart are counted down from the first one.
-/

import DecimalCalculator.Decimal.Checked

namespace DecimalCalculator

attribute [local instance (high)] instPowNat

/-! ### Products of ranges -/

namespace WordRange

def middle (first last : UInt64) : UInt64 :=
  first + (last - first) / 2

variable {first last : UInt64}

theorem toNat_middle (ordered : first ≤ last) :
    (middle first last).toNat = first.toNat + (last.toNat - first.toNat) / 2 := by
  have order := UInt64.le_iff_toNat_le.mp ordered
  have word := last.toNat_lt
  rw [middle, UInt64.toNat_add, UInt64.toNat_div, UInt64.toNat_sub_of_le _ _ ordered]
  change (first.toNat + (last.toNat - first.toNat) / 2) % 2 ^ (64 : Nat) = _
  exact Nat.mod_eq_of_lt (by omega)

theorem toNat_middle_add_one (proper : first < last) :
    (middle first last + 1).toNat = (middle first last).toNat + 1 := by
  have order := UInt64.lt_iff_toNat_lt.mp proper
  have word := last.toNat_lt
  have half := toNat_middle (UInt64.le_of_lt proper)
  rw [UInt64.toNat_add]
  change ((middle first last).toNat + 1) % 2 ^ (64 : Nat) = _
  exact Nat.mod_eq_of_lt (by omega)

def product (first last : UInt64) : Nat :=
  if _none : last < first then
    1
  else if _one : first = last then
    first.toNat
  else if last - first = 1 then
    first.toNat * last.toNat
  else
    product first (middle first last) * product (middle first last + 1) last
termination_by last.toNat - first.toNat
decreasing_by
  · have ordered := UInt64.not_lt.mp _none
    have proper := UInt64.lt_iff_toNat_lt.mp (UInt64.lt_of_le_of_ne ordered _one)
    rw [toNat_middle ordered]
    omega
  · have ordered := UInt64.not_lt.mp _none
    have proper := UInt64.lt_of_le_of_ne ordered _one
    have order := UInt64.lt_iff_toNat_lt.mp proper
    rw [toNat_middle_add_one proper, toNat_middle ordered]
    omega

end WordRange

/-! ### Products of distant terms -/

structure Stride where
  size : UInt64
  positive : 0 < size

namespace Stride

/-- A step beyond the words leaves only the first term, and so does the greatest word. -/
def ofNat (step : Nat) (positive : 0 < step) : Stride where
  size := UInt64.ofNat (min step (2 ^ (64 : Nat) - 1))
  positive := by
    rw [UInt64.lt_iff_toNat_lt, UInt64.toNat_ofNat']
    change 0 < min step (2 ^ (64 : Nat) - 1) % 2 ^ (64 : Nat)
    omega

/-- The product so far times the term and the terms below it. -/
def countDown (stride : Stride) (term : UInt64) (product : Nat) : Nat :=
  let extended := product * term.toNat
  if _last : term ≤ stride.size then
    extended
  else
    stride.countDown (term - stride.size) extended
termination_by term.toNat
decreasing_by
  have positive := UInt64.lt_iff_toNat_lt.mp stride.positive
  have above := UInt64.lt_iff_toNat_lt.mp (UInt64.not_le.mp _last)
  rw [UInt64.toNat_sub_of_le _ _ (UInt64.le_of_lt (UInt64.not_le.mp _last))]
  change 0 < stride.size.toNat at positive
  omega

end Stride

/-- Product of the positive terms among `number`, `number - step`,
`number - 2 * step` and so on; a step of zero counts as one. -/
def steppedFactorial (number : UInt64) (step : Nat) : Nat :=
  if number = 0 then
    1
  else if distant : 1 < step then
    (Stride.ofNat step (Nat.lt_of_succ_lt distant)).countDown number 1
  else
    WordRange.product 1 number

namespace Decimal

def factorialLimit : Nat :=
  100000

/-- Factorial with a step, of an integer between zero and the limit.  A number
above the limit is too large whether or not it is an integer. -/
def factorial (number : Decimal) (step : Nat) : Outcome Decimal := do
  if ← Checked.isLess (ofInt factorialLimit) number then
    throw (.factorialTooLarge number)
  match ← Checked.toInt64? number with
  | some value =>
      if value < 0 then throw (.factorialOfNonNatural number)
      return ofInt (steppedFactorial value.toUInt64 step)
  | none => throw (.factorialOfNonNatural number)

end Decimal
end DecimalCalculator
