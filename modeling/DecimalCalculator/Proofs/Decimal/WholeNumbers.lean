/-
Numbers that are read as words.

A number is an integer whatever its form is, and a conversion to a word finds exactly the
integers that the word holds.  Two kinds of forms are excepted: one whose distance from the
integers is no word, and one with more places behind the point than a power of ten can have.
-/

import Mathlib
import DecimalCalculator.Arithmetic.Divisor
import DecimalCalculator.Proofs.Decimal.Forms
import DecimalCalculator.Proofs.Decimal.Opposite

namespace DecimalCalculator
namespace Decimal

variable {number : Decimal} {whole : Int}

/-! ### Integers in any form -/

/-- The number can be brought to the scale of the integers, and if it is an integer other than
zero, its places behind the point are counted. -/
structure ReadsAsInteger (number : Decimal) : Prop where
  reaches : number.Reaches 0
  written : ∀ whole : Int, number.value = whole → whole ≠ 0 →
    number.scale.toInt ≤ largestExponent

theorem ReadsAsInteger.of_scale (lower : -2 ^ 63 < number.scale.toInt)
    (upper : number.scale.toInt ≤ largestExponent) : number.ReadsAsInteger := by
  refine ⟨Or.inr ?_, fun _ _ _ => upper⟩
  rw [Int64.toInt_zero]
  omega

theorem ReadsAsInteger.abs (reads : number.ReadsAsInteger) : number.abs.ReadsAsInteger := by
  constructor
  · refine reads.reaches.imp_left fun zero => ?_
    change ((number.unscaled.natAbs : Nat) : Int) = 0
    rw [zero]
    rfl
  · intro whole same nonzero
    rw [value_abs] at same
    rcases abs_choice number.value with positive | negative
    · exact reads.written whole (positive.symm.trans same) nonzero
    · refine reads.written (-whole) ?_ (neg_ne_zero.mpr nonzero)
      rw [negative] at same
      rw [Int.cast_neg, ← same, neg_neg]

theorem isInteger_of_value (same : number.value = whole)
    (written : whole ≠ 0 → number.scale.toInt ≤ largestExponent) : number.isInteger = true := by
  unfold isInteger
  split
  · rfl
  · rename_i fractional
    have positive := Int64.le_of_lt (Int64.not_le.mp fractional)
    cases writable : writableExponent? number.scale with
    | some places =>
        have power : (10 : ℚ) ^ places ≠ 0 := pow_ne_zero _ (by norm_num)
        rw [value, writableExponent?_eq_some writable, zpow_natCast, div_eq_iff power,
          mul_comm] at same
        simp only [beq_iff_eq]
        rw [← Int.dvd_iff_tmod_eq_zero]
        exact ⟨whole, by exact_mod_cast same⟩
    | none =>
        have far := lt_toInt_of_writableExponent?_eq_none positive writable
        have zero : whole = 0 := by
          by_contra nonzero
          exact absurd (written nonzero) (not_le.mpr far)
        simp only [beq_iff_eq]
        rw [← value_eq_zero_iff, same, zero, Int.cast_zero]

theorem toInt_of_isInteger (fractional : 0 < number.scale) (integer : number.isInteger = true)
    (same : number.value = whole) : number.toInt = whole := by
  have coarser : ¬number.scale ≤ 0 := Int64.not_le.mpr fractional
  have distance : number.scale - 0 = number.scale := Int64.sub_zero _
  unfold isInteger at integer
  rw [if_neg coarser] at integer
  cases writable : writableExponent? number.scale with
  | some places =>
      have count := writableExponent?_eq_some writable
      unfold writableExponent? at writable
      have within : number.scale.toInt - (0 : Int64).toInt ≤ largestExponent := by
        split at writable
        · rename_i both
          have places := both.2
          change number.scale.toInt.toNat ≤ _ at places
          rw [Int64.toInt_zero]
          omega
        · cases writable
      rw [toInt, setScale_eq_of_written .down fractional within, Int64.toInt_zero, zpow_zero,
        mul_one, same, RoundingMode.round_intCast]
  | none =>
      simp only [writable, beq_iff_eq] at integer
      have zero : whole = 0 := by
        have nothing := value_eq_zero_iff.mpr integer
        rw [same] at nothing
        exact_mod_cast nothing
      rw [toInt, setScale, if_neg coarser, distance, writable]
      simp only
      rw [sign, integer, zero]
      rfl

theorem toInt_of_coarse (coarse : number.scale ≤ 0) : number.toInt = number.alignedTo 0 := by
  rw [toInt, setScale, if_pos coarse]

theorem ReadsAsInteger.toInt_eq (reads : number.ReadsAsInteger) (same : number.value = whole) :
    number.toInt = whole := by
  by_cases coarse : number.scale ≤ 0
  · have exact := alignedTo_eq coarse reads.reaches
    rw [Int64.toInt_zero, zpow_zero, mul_one, same] at exact
    rw [toInt_of_coarse coarse]
    exact_mod_cast exact
  · exact toInt_of_isInteger (Int64.not_le.mp coarse)
      (isInteger_of_value same (reads.written whole same)) same

theorem toInt_neg_of_isInteger (negative : number.value < 0) (integer : number.isInteger = true) :
    number.toInt < 0 := by
  by_cases coarse : number.scale ≤ 0
  · have opposite : 0 < (-number).alignedTo 0 := by
      refine alignedTo_pos ?_ 0
      have below := value_neg_iff.mp negative
      change 0 < -number.unscaled
      omega
    rw [alignedTo_neg] at opposite
    rw [toInt_of_coarse coarse]
    omega
  · obtain ⟨whole, same⟩ := exists_value_eq_of_isInteger integer
    rw [toInt_of_isInteger (Int64.not_le.mp coarse) integer same]
    rw [same] at negative
    exact_mod_cast negative

theorem toInt_ne_zero_of_isInteger (nonzero : number.value ≠ 0)
    (integer : number.isInteger = true) : number.toInt ≠ 0 := by
  by_cases coarse : number.scale ≤ 0
  · rw [toInt_of_coarse coarse]
    exact alignedTo_ne_zero (mt value_eq_zero_iff.mpr nonzero) 0
  · obtain ⟨whole, same⟩ := exists_value_eq_of_isInteger integer
    rw [toInt_of_isInteger (Int64.not_le.mp coarse) integer same]
    rw [same] at nonzero
    exact_mod_cast nonzero

/-! ### Words -/

theorem toInt64?_of_negative (negative : number.value < 0) {word : Int64}
    (found : number.toInt64? = some word) : word < 0 := by
  unfold toInt64? at found
  split at found
  · rename_i integer
    have below := toInt_neg_of_isInteger negative integer
    simp only at found
    split at found
    · rename_i fits
      rw [Option.some.injEq] at found
      rw [← found, Int64.lt_iff_toInt_lt, Int64.toInt_zero,
        Int64.toInt_ofInt_of_le fits.1 fits.2]
      exact below
    · cases found
  · cases found

theorem ReadsAsInteger.toInt64?_eq (reads : number.ReadsAsInteger) (same : number.value = whole)
    (word : IsWord whole) : number.toInt64? = some (Int64.ofInt whole) := by
  rw [toInt64?, isInteger_of_value same (reads.written whole same), reads.toInt_eq same]
  exact if_pos word

theorem toInt64?_of_not_integer (fraction : ¬∃ whole : Int, number.value = whole) :
    number.toInt64? = none := by
  have broken : number.isInteger = false :=
    Bool.eq_false_iff.mpr fun integer => fraction (exists_value_eq_of_isInteger integer)
  rw [toInt64?, broken]
  rfl

theorem toUInt32?_ne_zero (nonzero : number.value ≠ 0) {word : UInt32}
    (found : number.toUInt32? = some word) : word ≠ 0 := by
  unfold toUInt32? at found
  split at found
  · rename_i integer
    have some := toInt_ne_zero_of_isInteger nonzero integer
    simp only at found
    split at found
    · rename_i fits
      rw [Option.some.injEq] at found
      obtain ⟨natural, exact⟩ := Int.eq_ofNat_of_zero_le fits.1
      rw [exact] at fits some found
      have below : natural < 2 ^ 32 := by exact_mod_cast fits.2
      rw [Int.toNat_natCast] at found
      rintro rfl
      have zero := congrArg UInt32.toNat found
      rw [UInt32.toNat_ofNat_of_lt' below] at zero
      change natural = 0 at zero
      omega
    · cases found
  · cases found

theorem ReadsAsInteger.toUInt32?_eq_some_iff (reads : number.ReadsAsInteger) {word : UInt32} :
    number.toUInt32? = some word ↔ number.value = word.toNat := by
  constructor
  · intro found
    unfold toUInt32? at found
    split at found
    · rename_i integer
      obtain ⟨whole, same⟩ := exists_value_eq_of_isInteger integer
      rw [reads.toInt_eq same] at found
      simp only at found
      split at found
      · rename_i fits
        rw [Option.some.injEq] at found
        obtain ⟨natural, rfl⟩ := Int.eq_ofNat_of_zero_le fits.1
        have below : natural < 2 ^ 32 := by exact_mod_cast fits.2
        rw [same, ← found, Int.toNat_natCast, UInt32.toNat_ofNat_of_lt' below, Int.cast_natCast]
      · cases found
    · cases found
  · intro same
    have whole : number.value = (word.toNat : Int) := by rw [same, Int.cast_natCast]
    have below : (word.toNat : Int) < 2 ^ 32 := by exact_mod_cast word.toNat_lt
    rw [toUInt32?, isInteger_of_value whole (reads.written _ whole), reads.toInt_eq whole]
    simp only [↓reduceIte]
    split
    · rw [Int.toNat_natCast, UInt32.ofNat_toNat]
    · rename_i outside
      exact absurd ⟨Int.natCast_nonneg _, below⟩ outside

end Decimal
end DecimalCalculator
