/-
The integer part of a root of a natural number, found bit by bit from the most
significant one down.
-/

namespace DecimalCalculator
namespace IntegerRoot

attribute [local instance (high)] instPowNat

/-- Adds to a root found so far every lower bit that keeps its power within the
radicand. -/
def refine (degree radicand : Nat) : (bits : Nat) → (found : Nat) → Nat
  | 0, found => found
  | bits + 1, found =>
      let candidate := found + 2 ^ bits
      if candidate ^ degree ≤ radicand then refine degree radicand bits candidate
      else refine degree radicand bits found

/-- The greatest natural number whose power does not exceed the radicand.  The
degree is not zero; a root of a number of `b` bits has at most
`(b - 1) / degree + 1` bits. -/
def floorRoot (degree radicand : Nat) : Nat :=
  refine degree radicand (radicand.log2 / degree + 1) 0

/-! ### The root and its successor enclose the radicand -/

theorem refine_pow_le {degree radicand bits found : Nat} (fits : found ^ degree ≤ radicand) :
    refine degree radicand bits found ^ degree ≤ radicand := by
  induction bits generalizing found with
  | zero => exact fits
  | succ bits ih =>
      simp only [refine]
      split
      · exact ih ‹_›
      · exact ih fits

theorem lt_succ_refine_pow {degree radicand bits found : Nat}
    (exceeds : radicand < (found + 2 ^ bits) ^ degree) :
    radicand < (refine degree radicand bits found + 1) ^ degree := by
  induction bits generalizing found with
  | zero => exact exceeds
  | succ bits ih =>
      simp only [refine]
      split
      · apply ih
        rwa [Nat.add_assoc, ← Nat.two_mul, ← Nat.pow_succ']
      · exact ih (Nat.lt_of_not_le ‹_›)

theorem floorRoot_pow_le {degree : Nat} (positive : degree ≠ 0) (radicand : Nat) :
    floorRoot degree radicand ^ degree ≤ radicand := by
  apply refine_pow_le
  rw [Nat.zero_pow (Nat.pos_of_ne_zero positive)]
  exact Nat.zero_le radicand

theorem lt_succ_floorRoot_pow {degree : Nat} (positive : degree ≠ 0) (radicand : Nat) :
    radicand < (floorRoot degree radicand + 1) ^ degree := by
  apply lt_succ_refine_pow
  rw [Nat.zero_add, ← Nat.pow_mul]
  have wide : radicand.log2 + 1 ≤ (radicand.log2 / degree + 1) * degree := by
    have below := Nat.lt_div_mul_add (a := radicand.log2) (Nat.pos_of_ne_zero positive)
    rw [Nat.add_mul, Nat.one_mul]
    exact below
  exact Nat.lt_of_lt_of_le Nat.lt_log2_self (Nat.pow_le_pow_right (by decide) wide)

theorem floorRoot_eq_zero_iff {degree : Nat} (positive : degree ≠ 0) (radicand : Nat) :
    floorRoot degree radicand = 0 ↔ radicand = 0 := by
  constructor
  · intro none
    have exceeds := lt_succ_floorRoot_pow positive radicand
    rw [none, Nat.zero_add, Nat.one_pow] at exceeds
    omega
  · intro none
    have within := floorRoot_pow_le positive radicand
    rw [none, Nat.le_zero, Nat.pow_eq_zero] at within
    rw [none]
    exact within.1

end IntegerRoot
end DecimalCalculator
