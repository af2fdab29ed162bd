/-
The exponential function and the logarithm of a value.

Both depend on the value of their argument alone: an argument is halved as often in
each of its forms, and what is left of it is brought to a scale that its value decides.
-/

import Mathlib
import DecimalCalculator.Elementary.Exponential
import DecimalCalculator.Elementary.Logarithm
import DecimalCalculator.Proofs.Decimal.Forms

namespace DecimalCalculator

open Decimal

variable {argument argument' : Decimal} {precision : Precision}

theorem Precision.guards_of_lt (few : precision.toNat + 10 < 2 ^ 32) : precision.Guards :=
  few

namespace Elementary

theorem toNat_guarded (few : precision.toNat + 10 < 2 ^ 32) :
    precision.guarded.toNat = precision.toNat + 10 := by
  rw [Precision.guarded, UInt32.toNat_add]
  exact Nat.mod_eq_of_lt few

theorem toInt_seriesScale (few : precision.toNat + 10 < 2 ^ 32) :
    precision.seriesScale.toInt = precision.toNat + 10 := by
  rw [Precision.seriesScale, toNat_guarded few, Int64.toInt_ofNat_of_lt (by omega)]
  rfl

end Elementary

theorem Precision.scaleNear_eq_ok_iff {scale : Int64} :
    precision.scaleNear argument = .ok scale ↔
      precision.Guards ∧ IsWord (argument.digitCount - 1 - argument.scale.toInt) ∧
        IsWord (-(argument.digitCount - 1 - argument.scale.toInt)) ∧
        scale.toInt =
          precision.toNat + 10 + max (-(argument.digitCount - 1 - argument.scale.toInt)) 0 := by
  rw [scaleNear, requireWords_bind_eq_ok_iff, and_congr_right_iff]
  intro guards
  rw [Elementary.toInt_seriesScale guards]
  constructor
  · intro reached
    obtain ⟨leading, found, reached⟩ := bind_eq_ok_iff.mp reached
    obtain ⟨zeros, counted, placed⟩ := bind_eq_ok_iff.mp reached
    obtain ⟨word, first⟩ := Checked.word_eq_ok_iff.mp found
    obtain ⟨opposite, second⟩ := Checked.word_eq_ok_iff.mp counted
    obtain ⟨-, last⟩ := Checked.word_eq_ok_iff.mp placed
    rw [first] at opposite second
    exact ⟨word, opposite, by rw [last, second]⟩
  · rintro ⟨word, opposite, last⟩
    obtain ⟨leading, found, first⟩ := Checked.exists_word word
    rw [← first] at opposite last
    obtain ⟨zeros, counted, second⟩ := Checked.exists_word opposite
    rw [← second] at last
    refine bind_eq_ok_iff.mpr ⟨leading, found, bind_eq_ok_iff.mpr ⟨zeros, counted, ?_⟩⟩
    exact Checked.word_eq_ok_iff.mpr ⟨last ▸ isWord_toInt scale, last⟩

theorem Precision.scaleNear_concur (nonzero : argument.value ≠ 0)
    (same : argument.value = argument'.value) :
    Concur Eq (precision.scaleNear argument) (precision.scaleNear argument') := by
  refine .requireWords fun _ _ => ?_
  exact (Checked.leadingExponent_concur nonzero same).bind_eq fun leading _ _ => .of_eq rfl

/-! ### Halving -/

namespace Series

variable {limit number number' : Decimal}

theorem value_half : half.value = 1 / 2 := by
  change ((5 : Int) : ℚ) / 10 ^ (1 : Int) = _
  norm_num

theorem toInt_scale_half (lower : -2 ^ 62 ≤ number.scale.toInt)
    (near : number.scale.toInt < 2 ^ 62) :
    IsWord (number.scale.toInt + 1) ∧ (number * half).scale.toInt = number.scale.toInt + 1 := by
  have word : IsWord (number.scale.toInt + 1) := ⟨by omega, by omega⟩
  exact ⟨word, toInt_add_of_isWord word⟩

theorem halvesWithin_of_near {most : Nat} (fractional : 0 ≤ limit.scale.toInt)
    (narrow : limit.scale.toInt < 2 ^ 62) (lower : -2 ^ 62 ≤ number.scale.toInt)
    (near : number.scale.toInt + most < 2 ^ 62) : HalvesWithin limit most number := by
  induction most generalizing number with
  | zero => trivial
  | succ most ih =>
      obtain ⟨word, scale⟩ := toInt_scale_half lower (by omega)
      have common := toInt_commonScale limit number
      refine ⟨fun _ => ⟨Or.inr (by omega), Or.inr (by omega)⟩, fun _ => ⟨word, ih ?_ ?_⟩⟩
      · omega
      · rw [scale]
        omega

theorem value_mul_half (word : IsWord (number.scale.toInt + 1)) :
    (number * half).value = number.value / 2 := by
  rw [value_mul word, value_half]
  ring

theorem HalvesWithin.of_le {few : Nat} (steps : HalvesWithin limit (few + 1) number)
    (enough : number.value ≤ limit.value * 2 ^ few) (most : Nat) :
    HalvesWithin limit most number := by
  induction few generalizing number most with
  | zero =>
      rw [pow_zero, mul_one] at enough
      cases most with
      | zero => trivial
      | succ most =>
          exact ⟨steps.1, fun above =>
            absurd ((lt_iff_value_lt steps.1).mp above) (not_lt.mpr enough)⟩
  | succ few ih =>
      cases most with
      | zero => trivial
      | succ most =>
          refine ⟨steps.1, fun above => ?_⟩
          obtain ⟨word, later⟩ := steps.2 above
          have halved := value_mul_half word
          rw [pow_succ] at enough
          exact ⟨word, ih later (by linarith) most⟩

theorem halves_of_near {few : Nat} (fractional : 0 ≤ limit.scale.toInt)
    (narrow : limit.scale.toInt < 2 ^ 62) (lower : -2 ^ 62 ≤ number.scale.toInt)
    (near : number.scale.toInt + (few + 1 : Nat) < 2 ^ 62)
    (enough : number.value ≤ limit.value * 2 ^ few) : Halves limit number :=
  (halvesWithin_of_near fractional narrow lower near).of_le enough _

theorem toInt_scale_halveWithin {most : Nat} (steps : HalvesWithin limit most number) :
    (halveWithin limit most number).1.scale.toInt =
      number.scale.toInt + (halveWithin limit most number).2 := by
  induction most generalizing number with
  | zero => exact (add_zero _).symm
  | succ most ih =>
      rw [halveWithin]
      by_cases exceeds : limit < number
      · obtain ⟨word, later⟩ := steps.2 exceeds
        have scale : (number * half).scale.toInt = number.scale.toInt + 1 :=
          toInt_add_of_isWord word
        rw [if_pos exceeds]
        change (halveWithin limit most (number * half)).1.scale.toInt =
          number.scale.toInt + ((halveWithin limit most (number * half)).2 + 1 : Nat)
        rw [ih later, scale]
        omega
      · rw [if_neg exceeds]
        exact (add_zero _).symm

/-- A number as a factor within a limit, times a power of two that is not larger than it has
to be. -/
structure IsHalved (limit number : ℚ) (halved : Decimal × Nat) : Prop where
  product : halved.1.value * 2 ^ halved.2 = number
  within : halved.1.value ≤ limit
  above : halved.2 = 0 ∨ limit / 2 < halved.1.value

theorem isHalved_halveWithin {most : Nat} (steps : HalvesWithin limit most number)
    (near : number.value ≤ limit.value * 2 ^ most) :
    IsHalved limit.value number.value (halveWithin limit most number) := by
  induction most generalizing number with
  | zero =>
      rw [pow_zero, mul_one] at near
      exact ⟨mul_one _, near, Or.inl rfl⟩
  | succ most ih =>
      rw [halveWithin]
      by_cases exceeds : limit < number
      · obtain ⟨word, later⟩ := steps.2 exceeds
        have halved := value_mul_half word
        have order := (lt_iff_value_lt steps.1).mp exceeds
        have half := ih later (by rw [halved]; rw [pow_succ] at near; linarith)
        rw [if_pos exceeds]
        refine ⟨?_, half.within, Or.inr ?_⟩
        · have product := half.product
          rw [halved] at product
          rw [pow_succ, ← mul_assoc, product]
          ring
        · rcases half.above with none | some
          · have product := half.product
            rw [halved, none, pow_zero, mul_one] at product
            rw [product]
            linarith
          · exact some
      · have order := not_lt.mp (mt (lt_iff_value_lt steps.1).mpr exceeds)
        rw [if_neg exceeds]
        exact ⟨by rw [pow_zero, mul_one], order, Or.inl rfl⟩

theorem IsHalved.halvings_le {limit number : ℚ} {halved : Decimal × Nat} {most : Nat}
    (isHalved : IsHalved limit number halved) (nonneg : 0 ≤ limit)
    (small : number ≤ limit * 2 ^ most) : halved.2 ≤ most := by
  by_contra many
  have above := isHalved.above.resolve_left (by omega)
  have power : (2 : ℚ) ^ (most + 1) ≤ 2 ^ halved.2 := pow_le_pow_right₀ one_le_two (by omega)
  have unit : (0 : ℚ) < 2 ^ most := by positivity
  rw [← isHalved.product] at small
  rw [pow_succ] at power
  nlinarith

theorem IsHalved.unique {limit number : ℚ} {halved halved' : Decimal × Nat} (nonneg : 0 ≤ limit)
    (first : IsHalved limit number halved) (second : IsHalved limit number halved') :
    halved.1.value = halved'.1.value ∧ halved.2 = halved'.2 := by
  wlog order : halved.2 ≤ halved'.2 generalizing halved halved'
  · have swapped := this second first (le_of_not_ge order)
    exact ⟨swapped.1.symm, swapped.2.symm⟩
  · obtain ⟨more, known⟩ := Nat.exists_eq_add_of_le order
    have factors : halved'.1.value * 2 ^ more = halved.1.value := by
      refine mul_right_cancel₀ (pow_ne_zero halved.2 (two_ne_zero : (2 : ℚ) ≠ 0)) ?_
      rw [first.product, ← second.product, known, pow_add]
      ring
    cases more with
    | zero =>
        rw [pow_zero, mul_one] at factors
        exact ⟨factors.symm, known.symm⟩
    | succ more =>
        have above := second.above.resolve_left (by omega)
        have power : (1 : ℚ) ≤ 2 ^ more := one_le_pow₀ one_le_two
        have within := first.within
        rw [← factors, pow_succ] at within
        nlinarith

theorem value_le_alignedTo (reaches : number.Reaches 0) :
    number.value ≤ (number.alignedTo 0).natAbs := by
  have size : (number.alignedTo 0 : ℚ) ≤ (number.alignedTo 0).natAbs := by
    rw [← Int.cast_natCast]
    exact Int.cast_le.mpr Int.le_natAbs
  by_cases whole : number.scale ≤ 0
  · rw [alignedTo_eq whole reaches, Int64.toInt_zero, zpow_zero, mul_one] at size
    exact size
  · have fractional : 0 ≤ number.scale.toInt := by
      rw [Int64.le_iff_toInt_le, Int64.toInt_zero] at whole
      omega
    have same : number.alignedTo 0 = number.unscaled :=
      if_pos (Or.inl (Int64.le_of_lt (Int64.not_le.mp whole)))
    have unit : (1 : ℚ) ≤ 10 ^ number.scale.toInt := one_le_zpow₀ (by norm_num) fractional
    rw [same] at size ⊢
    rw [value, div_le_iff₀ (by linarith)]
    exact size.trans (le_mul_of_one_le_right (Nat.cast_nonneg _) unit)

theorem value_le_mostHalvings (reaches : number.Reaches 0) :
    number.value ≤ 1 / 2 * 2 ^ mostHalvings number := by
  have bits : (number.alignedTo 0).natAbs < 2 ^ ((number.alignedTo 0).natAbs.log2 + 1) :=
    Nat.lt_log2_self
  have size : ((number.alignedTo 0).natAbs : ℚ) ≤
      2 ^ ((number.alignedTo 0).natAbs.log2 + 1) := by
    exact_mod_cast bits.le
  have value := value_le_alignedTo reaches
  rw [mostHalvings, pow_succ _ ((number.alignedTo 0).natAbs.log2 + 1)]
  linarith

section Halved

variable (positive : 0 < number.value) (fractional : 0 ≤ limit.scale)
  (atLeast : 1 / 2 ≤ limit.value)
include positive fractional atLeast

theorem Halves.reaches (halves : Halves limit number) : number.Reaches 0 := by
  have bound : 0 < limit.value := by linarith
  have signs : limit.sign = number.sign := by
    rw [sign, sign, Int.sign_eq_one_of_pos (value_pos_iff.mp bound),
      Int.sign_eq_one_of_pos (value_pos_iff.mp positive)]
  refine (halves.1 signs).second.imp_right fun near => ?_
  rw [Int64.le_iff_toInt_le, Int64.toInt_zero] at fractional
  rw [toInt_commonScale] at near
  rw [Int64.toInt_zero]
  omega

theorem isHalved_halveTo (halves : Halves limit number) :
    IsHalved limit.value number.value (halveTo limit number) := by
  have size := value_le_mostHalvings (halves.reaches positive fractional atLeast)
  refine isHalved_halveWithin halves (size.trans ?_)
  gcongr

theorem halveTo_eq (same : number.value = number'.value) (left : Halves limit number)
    (right : Halves limit number') :
    (halveTo limit number).1.value = (halveTo limit number').1.value ∧
      (halveTo limit number).2 = (halveTo limit number').2 := by
  have second := isHalved_halveTo (same ▸ positive) fractional atLeast right
  rw [← same] at second
  exact (isHalved_halveTo positive fractional atLeast left).unique (by linarith) second

end Halved

end Series

namespace Elementary

/-! ### The exponential function -/

def expScale (precision : Precision) (halvings : Nat) : Int64 :=
  precision.seriesScale + Int64.ofNat (halvings * 3 / 10) + 1

def expOfHalved (halved : Decimal × Nat) (scale : Int64) (precision : Precision) :
    Outcome Decimal := do
  let sum ← expSeries (← Checked.setScale halved.1 scale .halfEven) scale
  return (squareRepeatedly scale halved.2 sum).roundToPrecision precision

/-- What the exponential of a positive number counts with words. -/
structure ExpWords (argument : Decimal) (precision : Precision) : Prop where
  halves : Series.Halves half argument
  guards : precision.Guards
  halvings : IsWord ((Series.halveTo half argument).2 * 3)

theorem expOfPositive_eq_expOfHalved (words : ExpWords argument precision) :
    expOfPositive argument precision = expOfHalved (Series.halveTo half argument)
      (expScale precision (Series.halveTo half argument).2) precision := by
  rw [expOfPositive, Series.Checked.halveTo, unlessOverflow_of words.halves]
  exact requireWords_bind_of ⟨words.guards, words.halvings⟩

theorem expOfPositive_of_not_words (breaks : ¬ExpWords argument precision) :
    expOfPositive argument precision = .error .overflow := by
  rw [expOfPositive, Series.Checked.halveTo]
  by_cases halves : Series.Halves half argument
  · rw [unlessOverflow_of halves]
    exact requireWords_bind_of_not fun both => breaks ⟨halves, both.1, both.2⟩
  · rw [unlessOverflow_of_not halves]
    rfl

/-- What is left of a positive number when it has been halved has few enough digits. -/
def PositiveExpFits (argument : Decimal) : Prop :=
  (Series.halveTo half argument).1.IsShort

theorem expOfPositive_concur (positive : 0 < argument.value)
    (same : argument.value = argument'.value) (left : PositiveExpFits argument)
    (right : PositiveExpFits argument') :
    Concur Eq (expOfPositive argument precision) (expOfPositive argument' precision) := by
  by_cases words : ExpWords argument precision
  · by_cases words' : ExpWords argument' precision
    · obtain ⟨values, times⟩ := Series.halveTo_eq positive (by decide) Series.value_half.ge same
        words.halves words'.halves
      rw [expOfPositive_eq_expOfHalved words, expOfPositive_eq_expOfHalved words', expOfHalved,
        expOfHalved, ← times]
      exact (Checked.setScale_concur .halfEven values (fun _ => left) fun _ => right).bind_eq
        fun _ _ _ => .of_eq rfl
    · rw [expOfPositive_of_not_words words']
      exact .rightOverflow _
  · rw [expOfPositive_of_not_words words]
    exact .leftOverflow _

/-- What the exponential function asks of the form of its argument. -/
def ExpFits (argument : Decimal) : Prop :=
  argument.value ≠ 0 → PositiveExpFits argument.abs

theorem exp_concur (same : argument.value = argument'.value) (left : ExpFits argument)
    (right : ExpFits argument') :
    Concur Eq (exp argument precision) (exp argument' precision) := by
  rw [exp, exp, ← isZero_congr same, ← isNegative_congr same]
  cases zero : argument.isZero with
  | true => exact .ok rfl
  | false =>
      have nonzero := isZero_eq_false_iff.mp zero
      have first := left nonzero
      have second := right (same ▸ nonzero)
      cases negative : argument.isNegative with
      | true =>
          have positive : 0 < (-argument).value := by
            rw [value_neg]
            exact neg_pos.mpr (isNegative_iff.mp negative)
          have opposite : (-argument).value = (-argument').value := by
            rw [value_neg, value_neg, same]
          rw [← abs_opposite, abs_of_value_nonneg positive.le] at first
          rw [← abs_opposite, abs_of_value_nonneg (opposite ▸ positive).le] at second
          refine .requireWords fun _ _ => ?_
          exact (expOfPositive_concur positive opposite first second).bind_eq fun _ _ _ => .of_eq rfl
      | false =>
          have nonneg := isNegative_eq_false_iff.mp negative
          rw [abs_of_value_nonneg nonneg] at first
          rw [abs_of_value_nonneg (same ▸ nonneg)] at second
          exact expOfPositive_concur (lt_of_le_of_ne nonneg nonzero.symm) same first second

theorem exp_of_neg (negative : argument.value < 0) (precision : Precision) :
    exp argument precision = (requireWords precision.Guards >>= fun _ =>
      expOfPositive (-argument) precision.guarded >>= fun opposite =>
        divideToPrecision 1 opposite precision) := by
  rw [exp, isZero_eq_false_iff.mpr negative.ne, isNegative_iff.mpr negative]
  rfl

theorem exp_of_pos (positive : 0 < argument.value) (precision : Precision) :
    exp argument precision = expOfPositive argument precision := by
  rw [exp, isZero_eq_false_iff.mpr positive.ne', isNegative_eq_false_iff.mpr positive.le]
  rfl

theorem exp_of_zero (zero : argument.value = 0) (precision : Precision) :
    exp argument precision = .ok 1 := by
  rw [exp, isZero_iff.mpr zero]
  rfl

/-! ### The logarithm -/

def mantissa (argument : Decimal) : Decimal :=
  ⟨argument.unscaled, argument.scale + argument.leadingExponent⟩

theorem scale_mantissa (few : argument.digitCount < 2 ^ 61) :
    (mantissa argument).scale.toInt = argument.digitCount - 1 := by
  have positive := Digits.count_pos argument.unscaled.natAbs
  have places : (mantissa argument).scale = Int64.ofNat (argument.digitCount - 1) := by
    have whole : argument.digitCount = argument.digitCount - 1 + 1 := by
      rw [digitCount]
      omega
    change argument.scale + (Int64.ofNat argument.digitCount - 1 - argument.scale) = _
    rw [whole, Int64.ofNat_add]
    have : Int64.ofNat 1 = 1 := rfl
    grind
  rw [places, Int64.toInt_ofNat_of_lt (by omega), digitCount]
  omega

theorem value_mantissa (nonzero : argument.value ≠ 0) (same : argument.value = argument'.value)
    (left : argument.digitCount < 2 ^ 61) (right : argument'.digitCount < 2 ^ 61) :
    (mantissa argument).value = (mantissa argument').value := by
  wlog order : argument.scale.toInt ≤ argument'.scale.toInt generalizing argument argument'
  · exact (this (same ▸ nonzero) same.symm right left (Int.le_of_not_le order)).symm
  · obtain ⟨zeros, -, appended⟩ := exists_appended same order
    have digits := digitCount_append (mt value_eq_zero_iff.mpr nonzero) appended
    rw [value, value, scale_mantissa left, scale_mantissa right, digits]
    change (Int.cast argument.unscaled : ℚ) / _ = Int.cast argument'.unscaled / _
    rw [appended, Nat.cast_add, add_sub_right_comm, zpow_add₀ (by norm_num), zpow_natCast]
    push_cast
    rw [mul_div_mul_right _ _ (pow_ne_zero _ (by norm_num))]

theorem mantissa_lt_ten (few : argument.digitCount < 2 ^ 61) : (mantissa argument).value < 10 := by
  have upper := Digits.lt_pow_count argument.unscaled.natAbs
  have size : (argument.unscaled : ℚ) < 10 ^ argument.digitCount := by
    have first : argument.unscaled ≤ argument.unscaled.natAbs := Int.le_natAbs
    have second : (argument.unscaled : Int) < ((10 ^ argument.digitCount : Nat) : Int) :=
      first.trans_lt (by exact_mod_cast upper)
    exact_mod_cast second
  rw [value, scale_mantissa few, div_lt_iff₀ (zpow_pos (by norm_num) _),
    ← zpow_one_add₀ (by norm_num), add_sub_cancel, zpow_natCast]
  exact size

theorem mantissa_pos (positive : 0 < argument.value) : 0 < (mantissa argument).value :=
  value_pos_iff.mpr (value_pos_iff.mp positive : 0 < argument.unscaled)

theorem scale_mantissa_nonneg (few : argument.digitCount < 2 ^ 61) :
    0 ≤ (mantissa argument).scale.toInt := by
  have count := Digits.count_pos argument.unscaled.natAbs
  rw [scale_mantissa few, digitCount]
  omega

theorem value_nearOneLimit : nearOneLimit.value = 3 / 2 := by
  change ((15 : Int) : ℚ) / 10 ^ (1 : Int) = _
  norm_num

theorem mantissa_le_mul_pow (few : argument.digitCount < 2 ^ 61) :
    (mantissa argument).value ≤ nearOneLimit.value * 2 ^ 3 := by
  have size := mantissa_lt_ten few
  rw [value_nearOneLimit]
  linarith

theorem halves_mantissa (few : argument.digitCount < 2 ^ 61) :
    Series.Halves nearOneLimit (mantissa argument) := by
  have scale := scale_mantissa few
  have nonneg := scale_mantissa_nonneg few
  exact Series.halves_of_near (by decide) (by decide) (by omega) (by omega)
    (mantissa_le_mul_pow few)

section Positive

variable (few : argument.digitCount < 2 ^ 61) (positive : 0 < argument.value)
include few positive

theorem isHalved_mantissa : Series.IsHalved nearOneLimit.value (mantissa argument).value
    (Series.halveTo nearOneLimit (mantissa argument)) :=
  Series.isHalved_halveTo (mantissa_pos positive) (by decide)
    (by norm_num [value_nearOneLimit]) (halves_mantissa few)

theorem halvings_mantissa_le : (Series.halveTo nearOneLimit (mantissa argument)).2 ≤ 3 :=
  (isHalved_mantissa few positive).halvings_le (by norm_num [value_nearOneLimit])
    (mantissa_le_mul_pow few)

theorem scale_halved_mantissa :
    0 ≤ (Series.halveTo nearOneLimit (mantissa argument)).1.scale.toInt ∧
      (Series.halveTo nearOneLimit (mantissa argument)).1.scale.toInt < 2 ^ 62 := by
  have scale := scale_mantissa few
  have nonneg := scale_mantissa_nonneg few
  have halvings := halvings_mantissa_le few positive
  have halved : (Series.halveTo nearOneLimit (mantissa argument)).1.scale.toInt =
      (mantissa argument).scale.toInt + (Series.halveTo nearOneLimit (mantissa argument)).2 :=
    Series.toInt_scale_halveWithin (halves_mantissa few)
  omega

end Positive

def lnOfParts (factor : Decimal) (halvings : Nat) (decade scale : Int64) (precision : Precision) :
    Outcome Decimal := do
  let ratio ← (factor - 1).divideAtScale (factor + 1) scale .halfEven
  let mut result := 2 * (← Series.oddPowers .positive ratio scale)
  if halvings ≠ 0 then
    result := result + ofInt halvings * (← lnOfTwo scale)
  if decade ≠ 0 then
    result := result + ofInt decade.toInt * (← lnOfTen scale)
  return result.roundToPrecision precision

theorem aligned_one_of_pos (positive : 0 < argument.value) (comparable : Comparable argument 1) :
    Aligned argument 1 := by
  refine comparable ?_
  rw [sign, Int.sign_eq_one_of_pos (value_pos_iff.mp positive)]
  rfl

theorem ln_of_nonpos (nonpos : argument.value ≤ 0) :
    ln argument precision = Checked.refuse (.logarithmOfNonpositive argument) argument := by
  rw [ln, if_pos (sign_le_zero_iff.mpr nonpos)]

theorem ln_of_not_comparable (positive : 0 < argument.value) (apart : ¬Comparable argument 1) :
    ln argument precision = .error .overflow := by
  rw [ln, if_neg (mt sign_le_zero_iff.mp (not_le.mpr positive)), Checked.sameValue, Checked.compare,
    unlessOverflow_of_not apart]
  rfl

theorem ln_of_one (one : argument.value = 1) (comparable : Comparable argument 1) :
    ln argument precision = .ok 0 := by
  have positive : 0 < argument.value := by
    rw [one]
    exact one_pos
  rw [ln, if_neg (mt sign_le_zero_iff.mp (not_le.mpr positive)), Checked.sameValue_eq comparable,
    value_one, decide_eq_true one]
  rfl

theorem ln_eq_lnOfParts (positive : 0 < argument.value) (other : argument.value ≠ 1)
    (comparable : Comparable argument 1) :
    ln argument precision =
      (requireWords (IsWord (argument.digitCount - 1 - argument.scale.toInt)) >>= fun _ =>
        precision.scaleNear (argument - 1).abs >>= fun scale =>
          requireWords (Series.Halves nearOneLimit (mantissa argument)) >>= fun _ =>
            lnOfParts (Series.halveTo nearOneLimit (mantissa argument)).1
              (Series.halveTo nearOneLimit (mantissa argument)).2 argument.leadingExponent scale
              precision) := by
  rw [ln, if_neg (mt sign_le_zero_iff.mp (not_le.mpr positive)), Checked.sameValue_eq comparable,
    value_one, decide_eq_false other]
  change (Checked.leadingExponent argument >>= _) = _
  rw [Checked.leadingExponent_eq, unlessOverflow_bind_eq]
  refine bind_congr fun _ => bind_congr fun scale => ?_
  exact unlessOverflow_bind_eq

theorem lnOfParts_concur {factor factor' : Decimal} {halvings : Nat} {decade scale : Int64}
    (same : factor.value = factor'.value)
    (left : 0 ≤ factor.scale.toInt ∧ factor.scale.toInt < 2 ^ 62)
    (right : 0 ≤ factor'.scale.toInt ∧ factor'.scale.toInt < 2 ^ 62) :
    Concur Eq (lnOfParts factor halvings decade scale precision)
      (lnOfParts factor' halvings decade scale precision) := by
  have aligned (number : Decimal) (between : 0 ≤ number.scale.toInt ∧ number.scale.toInt < 2 ^ 62) :
      Aligned number 1 := by
    have common := toInt_commonScale number 1
    have one : (1 : Decimal).scale.toInt = 0 := rfl
    exact ⟨Or.inr (by omega), Or.inr (by omega)⟩
  have below : (factor - 1).value = (factor' - 1).value := by
    rw [value_sub (aligned factor left), value_sub (aligned factor' right), same]
  have above : (factor + 1).value = (factor' + 1).value := by
    rw [value_add (aligned factor left), value_add (aligned factor' right), same]
  unfold lnOfParts
  refine (divideAtScale_concur .halfEven scale below above).bind_eq ?_
  exact fun ratio _ _ => .of_eq rfl

theorem ln_concur (same : argument.value = argument'.value) (short : argument.IsShort)
    (short' : argument'.IsShort) : Concur Eq (ln argument precision) (ln argument' precision) := by
  by_cases nonpos : argument.value ≤ 0
  · rw [ln_of_nonpos nonpos, ln_of_nonpos (same ▸ nonpos)]
    exact Checked.refuse_concur rfl
  · have positive := not_le.mp nonpos
    have positive' := same ▸ positive
    by_cases comparable : Comparable argument 1
    · by_cases comparable' : Comparable argument' 1
      · by_cases one : argument.value = 1
        · rw [ln_of_one one comparable, ln_of_one (same ▸ one) comparable']
          exact .ok rfl
        · have aligned := aligned_one_of_pos positive comparable
          have aligned' := aligned_one_of_pos positive' comparable'
          have apart : (argument - 1).abs.value ≠ 0 := by
            rw [value_abs, value_sub aligned, value_one]
            exact abs_ne_zero.mpr (sub_ne_zero.mpr one)
          have distance : (argument - 1).abs.value = (argument' - 1).abs.value := by
            rw [value_abs, value_abs, value_sub aligned, value_sub aligned', same]
          have few := short.digitCount_lt
          have few' := short'.digitCount_lt
          obtain ⟨values, times⟩ := Series.halveTo_eq (mantissa_pos positive) (by decide)
            (by norm_num [value_nearOneLimit]) (value_mantissa positive.ne' same few few')
            (halves_mantissa few) (halves_mantissa few')
          rw [ln_eq_lnOfParts positive one comparable,
            ln_eq_lnOfParts positive' (same ▸ one) comparable', ← times,
            ← leadingExponent_eq positive.ne' same]
          refine .requireWords fun _ _ => ?_
          refine (Precision.scaleNear_concur apart distance).bind_eq fun scale _ _ => ?_
          refine .requireWords fun _ _ => ?_
          exact lnOfParts_concur values
            (scale_halved_mantissa few positive) (scale_halved_mantissa few' positive')
      · rw [ln_of_not_comparable positive' comparable']
        exact .rightOverflow _
    · rw [ln_of_not_comparable positive comparable]
      exact .leftOverflow _

/-- What the logarithm to a base asks of the forms of the argument and the base. -/
structure LogToBaseFits (argument base : Decimal) : Prop where
  argumentShort : argument.IsShort
  baseShort : 0 < argument.value → base.IsShort

theorem logToBase_of_nonpos {base : Decimal} (nonpos : argument.value ≤ 0) :
    logToBase argument base precision =
      Checked.refuse (.logarithmOfNonpositive argument) argument := by
  rw [logToBase, if_pos (sign_le_zero_iff.mpr nonpos)]

theorem logToBase_concur {base base' : Decimal} (arguments : argument.value = argument'.value)
    (bases : base.value = base'.value) (left : LogToBaseFits argument base)
    (right : LogToBaseFits argument' base') :
    Concur Eq (logToBase argument base precision) (logToBase argument' base' precision) := by
  by_cases nonpos : argument.value ≤ 0
  · rw [logToBase_of_nonpos nonpos, logToBase_of_nonpos (arguments ▸ nonpos)]
    exact Checked.refuse_concur rfl
  · have positive := not_le.mp nonpos
    rw [logToBase, logToBase, if_neg (mt sign_le_zero_iff.mp nonpos),
      if_neg (mt sign_le_zero_iff.mp (arguments ▸ nonpos))]
    refine .requireWords fun _ _ => ?_
    refine (ln_concur arguments left.argumentShort right.argumentShort).bind_eq
      fun lnArgument _ _ => ?_
    refine (ln_concur bases (left.baseShort positive)
      (right.baseShort (arguments ▸ positive))).bind_eq fun lnBase _ _ => ?_
    exact .of_eq rfl

end Elementary
end DecimalCalculator
