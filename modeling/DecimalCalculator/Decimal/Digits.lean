/-
Decimal digits of natural numbers, for numbers of any length.

Counting and writing digits split a number at the middle, at a power of ten
whose exponent is a power of two, so that both stay fast for numbers with
hundreds of thousands of digits.  The written digits are those of
`Nat.toDigits 10`, and the count is their number.
-/

namespace DecimalCalculator
namespace Digits

attribute [local instance (high)] instPowNat

/-! ### Size of a number -/

/-- An exponent `k` such that the number has at most `2 ^ k` digits.

Three bits never need more than one digit, so a number of `b` bits has at most
`b / 3 + 1` digits. -/
def depth (number : Nat) : Nat :=
  (number.log2 / 3 + 1).log2 + 1

/-- Number of digits of a number with at most `2 ^ depth` digits. -/
def countWithin : (depth : Nat) → (number : Nat) → Nat
  | 0, _ => 1
  | depth + 1, number =>
      let middle := 10 ^ (2 ^ depth : Nat)
      if number < middle then countWithin depth number
      else 2 ^ depth + countWithin depth (number / middle)

def count (number : Nat) : Nat :=
  countWithin (depth number) number

/-! ### Writing a number -/

/-- Exactly `2 ^ depth` digits, with zeros in front where the number is short. -/
def padded : (depth : Nat) → (number : Nat) → List Char
  | 0, number => [number.digitChar]
  | depth + 1, number =>
      let middle := 10 ^ (2 ^ depth : Nat)
      padded depth (number / middle) ++ padded depth (number % middle)

/-- Digits of a number with at most `2 ^ depth` digits, without zeros in front. -/
def writtenWithin : (depth : Nat) → (number : Nat) → List Char
  | 0, number => [number.digitChar]
  | depth + 1, number =>
      let middle := 10 ^ (2 ^ depth : Nat)
      if number < middle then writtenWithin depth number
      else writtenWithin depth (number / middle) ++ padded depth (number % middle)

/-- Decimal digits of a number, the most significant one first. -/
def written (number : Nat) : List Char :=
  writtenWithin (depth number) number

/-! ### The bound on the number of digits -/

theorem lt_pow_depth (number : Nat) : number < 10 ^ (2 ^ depth number : Nat) := by
  have bits : number < 2 ^ (number.log2 + 1) := Nat.lt_log2_self
  have triples : number.log2 + 1 ≤ 3 * (number.log2 / 3 + 1) := by omega
  have octal : 2 ^ (3 * (number.log2 / 3 + 1)) = 8 ^ (number.log2 / 3 + 1) := by
    rw [Nat.pow_mul]
  have decimal : 8 ^ (number.log2 / 3 + 1) ≤ 10 ^ (number.log2 / 3 + 1) :=
    Nat.pow_le_pow_left (by decide) _
  have wide : number.log2 / 3 + 1 < 2 ^ depth number := Nat.lt_log2_self
  calc
    number < 2 ^ (number.log2 + 1) := bits
    _ ≤ 2 ^ (3 * (number.log2 / 3 + 1)) := Nat.pow_le_pow_right (by decide) triples
    _ = 8 ^ (number.log2 / 3 + 1) := octal
    _ ≤ 10 ^ (number.log2 / 3 + 1) := decimal
    _ ≤ 10 ^ (2 ^ depth number : Nat) := Nat.pow_le_pow_right (by decide) (Nat.le_of_lt wide)

/-! ### The digits that are counted and written -/

theorem middle_pos (depth : Nat) : 0 < 10 ^ (2 ^ depth : Nat) :=
  Nat.pow_pos (by decide)

theorem middle_mul_middle (depth : Nat) :
    10 ^ (2 ^ depth : Nat) * 10 ^ (2 ^ depth : Nat) = 10 ^ (2 ^ (depth + 1) : Nat) := by
  rw [← Nat.pow_add, ← Nat.two_mul, ← Nat.pow_succ']

theorem div_middle_lt {depth number : Nat} (fits : number < 10 ^ (2 ^ (depth + 1) : Nat)) :
    number / 10 ^ (2 ^ depth : Nat) < 10 ^ (2 ^ depth : Nat) := by
  apply Nat.div_lt_of_lt_mul
  rwa [middle_mul_middle]

theorem countWithin_pos (depth number : Nat) : 0 < countWithin depth number := by
  induction depth generalizing number with
  | zero => exact Nat.one_pos
  | succ depth ih =>
      simp only [countWithin]
      split
      · exact ih number
      · exact Nat.add_pos_right _ (ih _)

theorem lt_pow_countWithin {depth number : Nat} (fits : number < 10 ^ (2 ^ depth : Nat)) :
    number < 10 ^ countWithin depth number := by
  induction depth generalizing number with
  | zero => exact fits
  | succ depth ih =>
      simp only [countWithin]
      split
      · exact ih ‹_›
      · rw [Nat.pow_add, Nat.mul_comm]
        exact (Nat.div_lt_iff_lt_mul (middle_pos depth)).mp (ih (div_middle_lt fits))

theorem pow_countWithin_le {depth number : Nat} (positive : 0 < number) :
    10 ^ (countWithin depth number - 1) ≤ number := by
  induction depth generalizing number with
  | zero => exact positive
  | succ depth ih =>
      simp only [countWithin]
      split
      · exact ih positive
      · rename_i long
        have middle : 10 ^ (2 ^ depth : Nat) ≤ number := Nat.le_of_not_lt long
        have front := ih (Nat.div_pos middle (middle_pos depth))
        rw [Nat.add_sub_assoc (countWithin_pos ..), Nat.pow_add]
        exact Nat.le_trans (Nat.mul_le_mul_left _ front) (Nat.mul_div_le number _)

/-- Digits in front of a padded run are written as digits of one number. -/
theorem toDigits_append_padded {front depth rest : Nat} (positive : 0 < front)
    (fits : rest < 10 ^ (2 ^ depth : Nat)) :
    Nat.toDigits 10 front ++ padded depth rest =
      Nat.toDigits 10 (10 ^ (2 ^ depth : Nat) * front + rest) := by
  induction depth generalizing front rest with
  | zero =>
      rw [padded, ← Nat.toDigits_of_lt_base fits]
      exact Nat.toDigits_append_toDigits (by decide) positive fits
  | succ depth ih =>
      have later : 0 < 10 ^ (2 ^ depth : Nat) * front + rest / 10 ^ (2 ^ depth : Nat) :=
        Nat.add_pos_left (Nat.mul_pos (middle_pos depth) positive) _
      simp only [padded]
      rw [← List.append_assoc, ih positive (div_middle_lt fits),
        ih later (Nat.mod_lt rest (middle_pos depth)), Nat.mul_add, Nat.add_assoc,
        Nat.div_add_mod, ← Nat.mul_assoc, middle_mul_middle]

theorem writtenWithin_eq_toDigits {depth number : Nat} (fits : number < 10 ^ (2 ^ depth : Nat)) :
    writtenWithin depth number = Nat.toDigits 10 number := by
  induction depth generalizing number with
  | zero => exact (Nat.toDigits_of_lt_base fits).symm
  | succ depth ih =>
      simp only [writtenWithin]
      split
      · exact ih ‹_›
      · rename_i long
        have front : 0 < number / 10 ^ (2 ^ depth : Nat) :=
          Nat.div_pos (Nat.le_of_not_lt long) (middle_pos depth)
        rw [ih (div_middle_lt fits),
          toDigits_append_padded front (Nat.mod_lt number (middle_pos depth)), Nat.div_add_mod]

theorem length_padded (depth number : Nat) : (padded depth number).length = 2 ^ depth := by
  induction depth generalizing number with
  | zero => rfl
  | succ depth ih => simp only [padded, List.length_append, ih, Nat.pow_succ, Nat.mul_two]

theorem length_writtenWithin (depth number : Nat) :
    (writtenWithin depth number).length = countWithin depth number := by
  induction depth generalizing number with
  | zero => rfl
  | succ depth ih =>
      simp only [writtenWithin, countWithin]
      split
      · exact ih number
      · rw [List.length_append, ih, length_padded, Nat.add_comm]

theorem written_eq_toDigits (number : Nat) : written number = Nat.toDigits 10 number :=
  writtenWithin_eq_toDigits (lt_pow_depth number)

theorem length_written (number : Nat) : (written number).length = count number :=
  length_writtenWithin (depth number) number

theorem count_pos (number : Nat) : 0 < count number :=
  countWithin_pos (depth number) number

theorem lt_pow_count (number : Nat) : number < 10 ^ count number :=
  lt_pow_countWithin (lt_pow_depth number)

theorem pow_count_le {number : Nat} (positive : 0 < number) : 10 ^ (count number - 1) ≤ number :=
  pow_countWithin_le positive

end Digits
end DecimalCalculator
