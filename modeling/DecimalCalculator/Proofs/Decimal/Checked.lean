/-
Where the words suffice.

An operation on words has a result exactly where every scale and every distance of scales
that it forms is a word.
-/

import Mathlib
import DecimalCalculator.Decimal.Checked
import DecimalCalculator.Proofs.Decimal.Rounding
import DecimalCalculator.Proofs.Outcome

namespace DecimalCalculator
namespace Decimal

variable {left right number base : Decimal} {target : Int64} {few many : Nat}

/-! ### Distances within the words -/

theorem IsWord.mul_of_le {size : Int} (word : IsWord (size * many))
    (fewer : few ≤ many) : IsWord (size * few) := by
  have order : (few : Int) ≤ many := Int.ofNat_le.mpr fewer
  obtain ⟨lower, upper⟩ := word
  rcases Int.le_total 0 size with nonneg | nonpos
  · have least := Int.mul_nonneg nonneg (Int.natCast_nonneg few)
    have most := Int.mul_le_mul_of_nonneg_left order nonneg
    exact ⟨by omega, by omega⟩
  · have least := mul_le_mul_of_nonpos_left order nonpos
    have most := mul_nonpos_of_nonpos_of_nonneg nonpos (Int.natCast_nonneg few)
    exact ⟨by omega, by omega⟩

theorem isWord_toInt (word : Int64) : IsWord word.toInt :=
  ⟨word.le_toInt, word.toInt_lt⟩

theorem reaches_abs_iff : number.abs.Reaches target ↔ number.Reaches target :=
  or_congr (by rw [abs, Int.natCast_eq_zero, Int.natAbs_eq_zero]) Iff.rfl

theorem aligned_abs_iff : Aligned left.abs right.abs ↔ Aligned left right := by
  have common : left.abs.commonScale right.abs = left.commonScale right := rfl
  constructor
  · exact fun aligned => ⟨reaches_abs_iff.mp aligned.first, reaches_abs_iff.mp aligned.second⟩
  · exact fun aligned => ⟨reaches_abs_iff.mpr aligned.first, reaches_abs_iff.mpr aligned.second⟩

theorem Meets.of_scale_nonneg (nonneg : 0 ≤ number.scale.toInt) (behind : 0 ≤ target.toInt) :
    number.Meets target := by
  have upper := number.scale.toInt_lt
  have upper' := target.toInt_lt
  exact ⟨Or.inr (by omega), by omega⟩

theorem Meets.of_isWord (word : IsWord (target.toInt - number.scale.toInt))
    (inside : target.toInt - number.scale.toInt ≠ -2 ^ 63) : number.Meets target :=
  ⟨Or.inr word.2, by have := word.1; omega⟩

theorem Meets.of_reaches (reaches : number.Reaches 0) : number.Meets 0 := by
  have upper := number.scale.toInt_lt
  exact ⟨reaches, by rw [Int64.toInt_zero]; omega⟩

theorem toInt_ofInt_eq_iff {size : Int} : (Int64.ofInt size).toInt = size ↔ IsWord size := by
  constructor
  · intro kept
    rw [← kept]
    exact isWord_toInt _
  · intro word
    exact Int64.toInt_ofInt_of_le word.1 word.2

theorem toInt_scale_power_iff {exponent : Nat} :
    (base.power exponent).scale.toInt = base.scale.toInt * exponent ↔
      IsWord (base.scale.toInt * exponent) := by
  have places : (base.power exponent).scale = Int64.ofInt (base.scale.toInt * exponent) := by
    rw [power_eq, Int64.ofInt_mul, Int64.ofInt_toInt, Int64.ofInt_eq_ofNat]
  rw [places, toInt_ofInt_eq_iff]

alias ⟨_, toInt_scale_power⟩ := toInt_scale_power_iff

/-! ### Results -/

namespace Checked

theorem word_eq_ok_iff {size : Int} {result : Int64} :
    word size = .ok result ↔ IsWord size ∧ result.toInt = size := by
  rw [word, unlessOverflow_eq_ok_iff]
  refine and_congr_right fun holds => ?_
  have exact : (Int64.ofInt size).toInt = size := Int64.toInt_ofInt_of_le holds.1 holds.2
  rw [← Int64.toInt_inj, exact, eq_comm]

theorem exists_word {size : Int} (holds : IsWord size) :
    ∃ result, word size = .ok result ∧ result.toInt = size :=
  ⟨_, unlessOverflow_of holds, Int64.toInt_ofInt_of_le holds.1 holds.2⟩

theorem mul_power (word : IsWord (base.scale.toInt * few))
    (word' : IsWord (base.scale.toInt * many)) :
    mul (base.power few) (base.power many) =
      unlessOverflow (IsWord (base.scale.toInt * (few + many : Nat))) (base.power (few + many)) := by
  have scales : (base.power few).scale.toInt + (base.power many).scale.toInt =
      base.scale.toInt * (few + many : Nat) := by
    rw [toInt_scale_power word, toInt_scale_power word']
    push_cast
    ring
  have product : base.power few * base.power many = base.power (few + many) := by
    rw [Decimal.power_eq, Decimal.power_eq, Decimal.power_eq, pow_add, Int64.ofNat_add,
      Int64.mul_add]
    rfl
  rw [mul, scales, product]

theorem power_eq (base : Decimal) (exponent : Nat) :
    power base exponent =
      unlessOverflow (IsWord (base.scale.toInt * exponent)) (base.power exponent) := by
  have least : IsWord (base.scale.toInt * (1 : Nat)) := by
    rw [Nat.cast_one, mul_one]
    exact isWord_toInt base.scale
  have one : base.power 1 = base := by
    rw [Decimal.power_eq, pow_one]
    exact congrArg (Decimal.mk base.unscaled) (Int64.mul_one _)
  induction exponent using Nat.strong_induction_on with
  | _ exponent ih =>
      rw [power]
      split
      · rename_i none
        rw [none, unlessOverflow_of (by rw [Nat.cast_zero, mul_zero]; decide), Decimal.power]
        rfl
      · rename_i some
        rw [ih (exponent / 2) (by omega)]
        by_cases half : IsWord (base.scale.toInt * (exponent / 2 : Nat))
        · rw [unlessOverflow_of half]
          change (mul _ _ >>= fun square =>
            if exponent % 2 = 0 then Except.ok square else mul square base) = _
          rw [mul_power half half]
          split
          · have whole : exponent / 2 + exponent / 2 = exponent := by omega
            rw [whole]
            exact bind_pure _
          · have whole : exponent / 2 + exponent / 2 + 1 = exponent := by omega
            by_cases double : IsWord (base.scale.toInt * (exponent / 2 + exponent / 2 : Nat))
            · rw [unlessOverflow_of double]
              change mul (base.power _) base = _
              have last := mul_power double least
              rwa [one, whole] at last
            · have breaks : ¬IsWord (base.scale.toInt * exponent) :=
                fun holds => double (holds.mul_of_le (by omega))
              rw [unlessOverflow_of_not double, unlessOverflow_of_not breaks]
              rfl
        · have breaks : ¬IsWord (base.scale.toInt * exponent) :=
            fun holds => half (holds.mul_of_le (Nat.div_le_self exponent 2))
          rw [unlessOverflow_of_not half, unlessOverflow_of_not breaks]
          rfl

theorem leadingExponent_eq (number : Decimal) :
    leadingExponent number =
      unlessOverflow (IsWord (number.digitCount - 1 - number.scale.toInt))
        number.leadingExponent := by
  have same : Int64.ofInt (number.digitCount - 1 - number.scale.toInt) =
      number.leadingExponent := by
    rw [Int64.ofInt_sub, Int64.ofInt_sub, Int64.ofInt_toInt, Int64.ofInt_eq_ofNat]
    rfl
  rw [leadingExponent, word, same]

theorem roundToPrecision_eq {precision : UInt32} (counted : number.digitCount < 2 ^ 63) :
    roundToPrecision number precision =
      unlessOverflow (IsWord (number.scale.toInt - (number.digitCount - max precision.toNat 1 : Nat)))
        (number.roundToPrecision precision) := by
  rw [roundToPrecision, Decimal.roundToPrecision]
  generalize extras : number.digitCount - max precision.toNat 1 = extra
  split
  · rename_i none
    rw [none, unlessOverflow_of]
    · rfl
    · rw [Nat.cast_zero, sub_zero]
      exact isWord_toInt number.scale
  · by_cases holds : IsWord (number.scale.toInt - extra)
    · obtain ⟨target, reached, exact⟩ := exists_word holds
      have same : target = number.scale - Int64.ofNat extra := by
        rw [← Int64.toInt_inj, exact, ← Int64.ofInt_eq_ofNat, ← Int64.ofInt_toInt number.scale,
          ← Int64.ofInt_sub, Int64.ofInt_toInt]
        exact (Int64.toInt_ofInt_of_le holds.1 holds.2).symm
      have meets : number.Meets target := ⟨Or.inr (by omega), by omega⟩
      rw [reached, unlessOverflow_of holds, ← same]
      exact unlessOverflow_of meets
    · rw [word, unlessOverflow_of_not holds, unlessOverflow_of_not holds]
      rfl

/-! ### Reports -/

section Reports

variable {α β : Type} {error error' : EvaluationError}

theorem refuse_of_reaches (error : EvaluationError) (reaches : number.Reaches 0) :
    (refuse error number : Outcome α) = .error error :=
  requireWords_bind_of reaches

theorem refuse_of_not_reaches (error : EvaluationError) (apart : ¬number.Reaches 0) :
    (refuse error number : Outcome α) = .error .overflow :=
  requireWords_bind_of_not apart

theorem refuse_concur {related : α → β → Prop} (alike : error.ctorIdx = error'.ctorIdx) :
    Concur related (refuse error left) (refuse error' right) :=
  .requireWords fun _ _ => .error alike

end Reports

end Checked
end Decimal
end DecimalCalculator
