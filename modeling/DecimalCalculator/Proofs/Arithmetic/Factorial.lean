/-
Factorials with a step as products of their terms.

The halves of a range of words meet at its middle without a gap, and no word of the split is
taken modulo the size of the words.  Terms that are counted down are those that differ from
the first one by a multiple of the step.  So either algorithm multiplies all positive terms,
and a factorial does so for every integer up to its limit, in almost every form of it.
-/

import Mathlib
import DecimalCalculator.Arithmetic.Factorial
import DecimalCalculator.Proofs.Decimal.WholeNumbers

namespace DecimalCalculator

/-! ### Ranges -/

namespace WordRange

variable {first last lower upper : UInt64}

/-- The words that a range is split with are those of the natural numbers, and both halves are
ranges inside of it. -/
structure SplitsExactly (first last : UInt64) : Prop where
  distance : (last - first).toNat = last.toNat - first.toNat
  middle : (middle first last).toNat = first.toNat + (last.toNat - first.toNat) / 2
  next : (WordRange.middle first last + 1).toNat = (WordRange.middle first last).toNat + 1
  lower : first ≤ WordRange.middle first last
  upper : WordRange.middle first last + 1 ≤ last

theorem splitsExactly (proper : first < last) : SplitsExactly first last := by
  have ordered := UInt64.le_of_lt proper
  have order := UInt64.lt_iff_toNat_lt.mp proper
  have middle := toNat_middle ordered
  have next := toNat_middle_add_one proper
  refine ⟨UInt64.toNat_sub_of_le _ _ ordered, middle, next, ?_, ?_⟩
  · rw [UInt64.le_iff_toNat_le]
    omega
  · rw [UInt64.le_iff_toNat_le]
    omega

/-- The ranges whose products the product of a range is computed from, itself included. -/
inductive IsPart (first last : UInt64) : UInt64 → UInt64 → Prop where
  | whole : IsPart first last first last
  | lowerHalf {lower upper : UInt64} (part : IsPart first last lower upper)
      (long : 1 < upper - lower) : IsPart first last lower (middle lower upper)
  | upperHalf {lower upper : UInt64} (part : IsPart first last lower upper)
      (long : 1 < upper - lower) : IsPart first last (middle lower upper + 1) upper

theorem IsPart.inside (part : IsPart first last lower upper) (ordered : first ≤ last) :
    first ≤ lower ∧ lower ≤ upper ∧ upper ≤ last := by
  induction part with
  | whole => exact ⟨UInt64.le_refl _, ordered, UInt64.le_refl _⟩
  | @lowerHalf lower upper _ long ih =>
      obtain ⟨start, order, stop⟩ := ih
      have split := splitsExactly (UInt64.lt_of_le_of_ne order ?_)
      · have halves := UInt64.le_iff_toNat_le.mp split.upper
        have next := split.next
        refine ⟨start, split.lower, UInt64.le_trans ?_ stop⟩
        rw [UInt64.le_iff_toNat_le]
        omega
      · rintro rfl
        rw [UInt64.sub_self] at long
        cases long
  | @upperHalf lower upper _ long ih =>
      obtain ⟨start, order, stop⟩ := ih
      have split := splitsExactly (UInt64.lt_of_le_of_ne order ?_)
      · have halves := UInt64.le_iff_toNat_le.mp split.lower
        have next := split.next
        refine ⟨UInt64.le_trans start ?_, split.upper, stop⟩
        rw [UInt64.le_iff_toNat_le]
        omega
      · rintro rfl
        rw [UInt64.sub_self] at long
        cases long

theorem prod_halves {lower middle upper : Nat} (start : lower ≤ middle) (stop : middle < upper) :
    (∏ term ∈ Finset.Icc lower middle, term) * ∏ term ∈ Finset.Icc (middle + 1) upper, term =
      ∏ term ∈ Finset.Icc lower upper, term := by
  rw [← Finset.prod_union]
  · congr 1
    ext term
    simp only [Finset.mem_union, Finset.mem_Icc]
    omega
  · rw [Finset.disjoint_left]
    intro term first second
    simp only [Finset.mem_Icc] at first second
    omega

theorem product_eq (ordered : first ≤ last) :
    product first last = ∏ term ∈ Finset.Icc first.toNat last.toNat, term := by
  induction first, last using product.induct with
  | case1 first last none => exact absurd ordered (UInt64.not_le.mpr none)
  | case2 first none => rw [product, dif_neg none, dif_pos rfl, Finset.Icc_self, Finset.prod_singleton]
  | case3 first last none one next =>
      have proper := UInt64.lt_of_le_of_ne ordered one
      have order := UInt64.lt_iff_toNat_lt.mp proper
      have distance := (splitsExactly proper).distance
      have neighbour : last.toNat = first.toNat + 1 := by
        rw [next] at distance
        change 1 = _ at distance
        omega
      rw [product, dif_neg none, dif_neg one, if_pos next, neighbour,
        ← prod_halves (le_refl first.toNat) (Nat.lt_succ_self _), Finset.Icc_self, Finset.Icc_self,
        Finset.prod_singleton, Finset.prod_singleton]
  | case4 first last none one long ih ih' =>
      have split := splitsExactly (UInt64.lt_of_le_of_ne ordered one)
      have start := UInt64.le_iff_toNat_le.mp split.lower
      have stop := UInt64.le_iff_toNat_le.mp split.upper
      rw [split.next] at stop
      rw [product, dif_neg none, dif_neg one, if_neg long, ih split.lower, ih' split.upper,
        split.next, prod_halves start stop]

end WordRange

/-! ### Terms of a step -/

/-- The positive terms among `number`, `number - step`, `number - 2 * step` and so on. -/
def positiveTerms (number step : Nat) : Finset Nat :=
  (Finset.Icc 1 number).filter fun term => step ∣ number - term

section Terms

variable {number step term : Nat}

theorem mem_positiveTerms :
    term ∈ positiveTerms number step ↔ 0 < term ∧ ∃ index, number = term + index * step := by
  rw [positiveTerms, Finset.mem_filter, Finset.mem_Icc, and_assoc]
  refine and_congr Iff.rfl ?_
  constructor
  · rintro ⟨within, index, distance⟩
    exact ⟨index, by rw [mul_comm index]; omega⟩
  · rintro ⟨index, rfl⟩
    exact ⟨Nat.le_add_right _ _, index, by rw [Nat.add_sub_cancel_left, mul_comm]⟩

theorem positiveTerms_one (number : Nat) : positiveTerms number 1 = Finset.Icc 1 number := by
  rw [positiveTerms, Finset.filter_true_of_mem]
  exact fun _ _ => one_dvd _

theorem positiveTerms_of_le (positive : 0 < number) (last : number ≤ step) :
    positiveTerms number step = {number} := by
  ext term
  rw [mem_positiveTerms, Finset.mem_singleton]
  constructor
  · rintro ⟨above, index, exact⟩
    rcases Nat.eq_zero_or_pos index with rfl | more
    · omega
    · have product := Nat.le_mul_of_pos_left step more
      omega
  · rintro rfl
    exact ⟨positive, 0, by omega⟩

theorem positiveTerms_of_lt (above : step < number) :
    positiveTerms number step = insert number (positiveTerms (number - step) step) := by
  ext term
  rw [Finset.mem_insert, mem_positiveTerms, mem_positiveTerms]
  constructor
  · rintro ⟨positive, index, exact⟩
    rcases Nat.eq_zero_or_pos index with rfl | more
    · exact Or.inl (by omega)
    · obtain ⟨before, rfl⟩ := Nat.exists_eq_succ_of_ne_zero more.ne'
      rw [Nat.succ_mul] at exact
      exact Or.inr ⟨positive, before, by omega⟩
  · rintro (rfl | ⟨positive, index, exact⟩)
    · exact ⟨by omega, 0, by omega⟩
    · exact ⟨positive, index + 1, by rw [Nat.succ_mul]; omega⟩

theorem prod_positiveTerms_of_lt (above : step < number) (positive : 0 < step) :
    ∏ term ∈ positiveTerms number step, term =
      number * ∏ term ∈ positiveTerms (number - step) step, term := by
  rw [positiveTerms_of_lt above, Finset.prod_insert]
  intro present
  obtain ⟨-, index, exact⟩ := mem_positiveTerms.mp present
  omega

end Terms

namespace Stride

theorem toNat_size_ofNat {step : Nat} (positive : 0 < step) :
    (ofNat step positive).size.toNat = min step (2 ^ 64 - 1) := by
  rw [ofNat, UInt64.toNat_ofNat']
  exact Nat.mod_eq_of_lt (by omega)

/-- No term that is counted down is below zero, so the words are those of the natural numbers. -/
theorem countDown_eq (stride : Stride) (term : UInt64) (product : Nat) (positive : 0 < term) :
    stride.countDown term product =
      product * ∏ term ∈ positiveTerms term.toNat stride.size.toNat, term := by
  induction term, product using countDown.induct stride with
  | case1 term product last =>
      have within := UInt64.le_iff_toNat_le.mp last
      have above := UInt64.lt_iff_toNat_lt.mp positive
      rw [countDown, dif_pos last, positiveTerms_of_le above within, Finset.prod_singleton]
  | case2 term product extended more ih =>
      have above := UInt64.not_le.mp more
      have order := UInt64.lt_iff_toNat_lt.mp above
      have distance := UInt64.toNat_sub_of_le _ _ (UInt64.le_of_lt above)
      rw [countDown, dif_neg more, ih, distance, prod_positiveTerms_of_lt order
        (UInt64.lt_iff_toNat_lt.mp stride.positive), mul_assoc]
      rw [UInt64.lt_iff_toNat_lt, distance]
      change 0 < _
      omega

end Stride

/-- Either algorithm multiplies the positive terms; a step beyond the words leaves one of them. -/
theorem steppedFactorial_eq (number : UInt64) (step : Nat) :
    steppedFactorial number step =
      ∏ term ∈ positiveTerms number.toNat (max step 1), term := by
  have word := number.toNat_lt
  unfold steppedFactorial
  split
  · rename_i zero
    rw [zero]
    rfl
  · rename_i nonzero
    have positive : 0 < number := UInt64.lt_of_le_of_ne (UInt64.le_iff_toNat_le.mpr (Nat.zero_le _))
      (Ne.symm nonzero)
    have above := UInt64.lt_iff_toNat_lt.mp positive
    split
    · rename_i distant
      rw [Stride.countDown_eq _ _ _ positive, Stride.toNat_size_ofNat, one_mul,
        max_eq_left distant.le]
      rcases lt_or_ge step (2 ^ 64) with small | large
      · rw [min_eq_left (by omega)]
      · rw [min_eq_right (by omega), positiveTerms_of_le above (by omega),
          positiveTerms_of_le above (by omega)]
    · rename_i near
      rw [max_eq_right (not_lt.mp near), positiveTerms_one, WordRange.product_eq]
      · rfl
      · rw [UInt64.le_iff_toNat_le]
        exact above

namespace Decimal

variable {number : Decimal} {natural : Nat}

/-! ### The limit -/

theorem value_factorialLimit : (ofInt factorialLimit).value = 100000 := by
  rw [value_ofInt]
  norm_num [factorialLimit]

theorem comparable_ofInt {integer : Int} (positive : 0 < integer)
    (reaches : 0 < number.value → number.Reaches 0) : Comparable (ofInt integer) number := by
  intro same
  have above : 0 < number.value := by
    rw [value_pos_iff]
    refine Int.sign_pos_iff.mp ?_
    change 0 < number.sign
    rw [← same]
    exact Int.sign_pos_iff.mpr positive
  refine ⟨.of_nonneg (Int64.le_refl 0), (reaches above).imp_right fun distance => ?_⟩
  have scale := number.scale.toInt_lt
  rw [toInt_commonScale]
  change max (0 : Int64).toInt number.scale.toInt - number.scale.toInt < 2 ^ 63
  rw [Int64.toInt_zero] at distance ⊢
  omega

theorem isLess_factorialLimit (reaches : number.Reaches 0) :
    Checked.isLess (ofInt factorialLimit) number = .ok (decide (100000 < number.value)) := by
  rw [Checked.isLess_eq (comparable_ofInt (by decide) fun _ => reaches), value_factorialLimit]

/-! ### Refusals and products -/

theorem factorial_of_large (step : Nat) (reaches : number.Reaches 0)
    (large : 100000 < number.value) :
    number.factorial step = .error (.factorialTooLarge number) := by
  rw [factorial, isLess_factorialLimit reaches, decide_eq_true large]
  rfl

theorem factorial_of_atMost (step : Nat) (reaches : number.Reaches 0)
    (atMost : number.value ≤ 100000) :
    number.factorial step =
      match number.toInt64? with
      | some value =>
          if value < 0 then .error (.factorialOfNonNatural number)
          else .ok (ofInt (steppedFactorial value.toUInt64 step))
      | none => .error (.factorialOfNonNatural number) := by
  have converts : Checked.toInt64? number = .ok number.toInt64? :=
    unlessOverflow_of fun _ => .of_reaches reaches
  rw [factorial, isLess_factorialLimit reaches, decide_eq_false (not_lt.mpr atMost)]
  change (Checked.toInt64? number >>= _) = _
  rw [converts]
  change (match number.toInt64? with | some value => _ | none => _) = _
  cases number.toInt64? with
  | none => rfl
  | some value =>
      simp only
      split
      · rfl
      · rfl

theorem factorial_of_nonNatural (step : Nat) (reaches : number.Reaches 0)
    (atMost : number.value ≤ 100000)
    (improper : number.value < 0 ∨ ¬∃ whole : Int, number.value = whole) :
    number.factorial step = .error (.factorialOfNonNatural number) := by
  rw [factorial_of_atMost step reaches atMost]
  cases found : number.toInt64? with
  | none => rfl
  | some word =>
      rcases improper with negative | fraction
      · exact if_pos (toInt64?_of_negative negative found)
      · rw [toInt64?_of_not_integer fraction] at found
        cases found

theorem toNat_toUInt64_ofInt (small : natural < 2 ^ 63) :
    (Int64.ofInt natural).toUInt64.toNat = natural := by
  have word : (Int64.ofInt natural).toInt = natural :=
    Int64.toInt_ofInt_of_le (by omega) (by omega)
  rw [Int64.toNat_toUInt64_of_le, Int64.toNatClampNeg, word, Int.toNat_natCast]
  rw [Int64.le_iff_toInt_le, word, Int64.toInt_zero]
  exact Int.natCast_nonneg _

theorem factorial_of_natural (step : Nat) (reads : number.ReadsAsInteger)
    (same : number.value = natural) (within : natural ≤ 100000) :
    number.factorial step =
      .ok (ofInt ((∏ term ∈ positiveTerms natural (max step 1), term : Nat))) := by
  have whole : number.value = (natural : Int) := by rw [same, Int.cast_natCast]
  have atMost : number.value ≤ 100000 := by
    rw [same]
    exact_mod_cast within
  have word : (Int64.ofInt natural).toInt = natural :=
    Int64.toInt_ofInt_of_le (by omega) (by omega)
  have nonneg : ¬Int64.ofInt natural < 0 := by
    rw [Int64.lt_iff_toInt_lt, word, Int64.toInt_zero]
    omega
  rw [factorial_of_atMost step reads.reaches atMost,
    reads.toInt64?_eq whole ⟨by omega, by omega⟩]
  simp only [nonneg, if_false]
  rw [steppedFactorial_eq, toNat_toUInt64_ofInt (by omega)]

/-- A number that cannot be brought to the scale of the integers is beyond the words: a
positive one when it is compared with the limit, a negative one when it is converted. -/
theorem factorial_eq_overflow_of_not_reaches (step : Nat) (far : ¬number.Reaches 0) :
    number.factorial step = .error .overflow := by
  by_cases comparable : Comparable (ofInt factorialLimit) number
  · have integer : number.isInteger = true := by
      rw [isInteger, if_pos]
      rw [Int64.le_iff_toInt_le, Int64.toInt_zero]
      rw [Reaches, Int64.toInt_zero] at far
      omega
    have stays : ¬100000 < number.value := by
      intro above
      have positive := value_pos_iff.mp (lt_trans (by norm_num) above)
      have aligned := comparable (Int.sign_eq_one_of_pos positive).symm
      have second := aligned.second
      rw [Reaches, toInt_commonScale] at second
      rw [Reaches, Int64.toInt_zero] at far
      change _ ∨ max (0 : Int64).toInt _ - _ < _ at second
      rw [Int64.toInt_zero] at second
      omega
    rw [factorial, Checked.isLess_eq comparable, value_factorialLimit, decide_eq_false stays]
    change (Checked.toInt64? number >>= _) = _
    rw [Checked.toInt64?, unlessOverflow_of_not fun meets => far (meets integer).1]
    rfl
  · rw [factorial, Checked.isLess_of_not_comparable comparable]
    rfl

/-! ### All numbers and steps -/

theorem large_or_improper_or_natural (value : ℚ) :
    100000 < value ∨ (value ≤ 100000 ∧ (value < 0 ∨ ¬∃ whole : Int, value = whole)) ∨
      ∃ natural : Nat, value = natural ∧ natural ≤ 100000 := by
  rcases lt_or_ge 100000 value with above | atMost
  · exact Or.inl above
  rcases lt_or_ge value 0 with negative | nonneg
  · exact Or.inr (Or.inl ⟨atMost, Or.inl negative⟩)
  by_cases integer : ∃ whole : Int, value = whole
  · obtain ⟨whole, rfl⟩ := integer
    obtain ⟨natural, rfl⟩ := Int.eq_ofNat_of_zero_le (Int.cast_nonneg_iff.mp nonneg)
    exact Or.inr (Or.inr ⟨natural, Int.cast_natCast natural, by exact_mod_cast atMost⟩)
  · exact Or.inr (Or.inl ⟨atMost, Or.inr integer⟩)

/-- A positive integer has no more places behind the point than a power of ten can have. -/
def HasCountedPlaces (number : Decimal) : Prop :=
  ∀ whole : Int, number.value = whole → 0 < whole → number.scale.toInt ≤ largestExponent

theorem HasCountedPlaces.readsAsInteger (counted : number.HasCountedPlaces)
    (reaches : number.Reaches 0) (same : number.value = natural) : number.ReadsAsInteger := by
  refine ⟨reaches, fun whole other nonzero => counted whole other ?_⟩
  have nonneg : 0 ≤ whole := by
    rw [← Int.cast_nonneg_iff (R := ℚ), ← other, same]
    exact Nat.cast_nonneg natural
  omega

/-- The computation is beyond the words exactly for a number that cannot be brought to the scale
of the integers.  Any other number is refused above the limit and, up to it, if it is negative
or no integer; otherwise its factorial is the product of the positive terms.  The product of a
range is computed from ranges inside of it, whose ends are those of natural numbers. -/
theorem factorial_eq_prod_positiveTerms (number : Decimal) (step : Nat)
    (counted : number.HasCountedPlaces) :
    (number.factorial step = .error .overflow ↔ ¬number.Reaches 0) ∧
    (number.Reaches 0 →
      (number.factorial step = .error (.factorialTooLarge number) ↔ 100000 < number.value) ∧
      (number.factorial step = .error (.factorialOfNonNatural number) ↔
        number.value ≤ 100000 ∧
          (number.value < 0 ∨ ¬∃ whole : Int, number.value = whole)) ∧
      ∀ natural : Nat, number.value = natural → natural ≤ 100000 →
        number.factorial step =
          .ok (ofInt ((∏ term ∈ positiveTerms natural (max step 1), term : Nat)))) ∧
    ∀ first last : UInt64, first ≤ last →
      WordRange.product first last = ∏ term ∈ Finset.Icc first.toNat last.toNat, term ∧
      ∀ lower upper : UInt64, WordRange.IsPart first last lower upper →
        lower ≤ upper ∧ (lower < upper → WordRange.SplitsExactly lower upper) := by
  have large (reaches : number.Reaches 0) (above : 100000 < number.value) :=
    factorial_of_large step reaches above
  have improper (reaches : number.Reaches 0) (atMost : number.value ≤ 100000)
      (unnatural : number.value < 0 ∨ ¬∃ whole : Int, number.value = whole) :=
    factorial_of_nonNatural step reaches atMost unnatural
  have proper (reaches : number.Reaches 0) (natural : Nat) (same : number.value = natural) :=
    factorial_of_natural step (counted.readsAsInteger reaches same) same
  have kinds := large_or_improper_or_natural number.value
  refine ⟨⟨fun overflows reaches => ?_, factorial_eq_overflow_of_not_reaches step⟩,
    fun reaches => ⟨⟨fun refused => ?_, large reaches⟩,
      ⟨fun refused => ?_, fun both => improper reaches both.1 both.2⟩, proper reaches⟩, ?_⟩
  · rcases kinds with above | both | ⟨natural, same, within⟩
    · rw [large reaches above] at overflows
      cases overflows
    · rw [improper reaches both.1 both.2] at overflows
      cases overflows
    · rw [proper reaches natural same within] at overflows
      cases overflows
  · rcases kinds with above | both | ⟨natural, same, within⟩
    · exact above
    · rw [improper reaches both.1 both.2] at refused
      cases refused
    · rw [proper reaches natural same within] at refused
      cases refused
  · rcases kinds with above | both | ⟨natural, same, within⟩
    · rw [large reaches above] at refused
      cases refused
    · exact both
    · rw [proper reaches natural same within] at refused
      cases refused
  · intro first last ordered
    refine ⟨WordRange.product_eq ordered, fun lower upper part => ?_⟩
    exact ⟨(part.inside ordered).2.1, WordRange.splitsExactly⟩

theorem factorial_seven_by_threes :
    (⟨70, 1⟩ : Decimal).HasCountedPlaces ∧ (⟨70, 1⟩ : Decimal).Reaches 0 ∧
      (⟨70, 1⟩ : Decimal).factorial 3 = .ok 28 := by
  have counted : (⟨70, 1⟩ : Decimal).HasCountedPlaces := fun _ _ _ => by decide
  have reaches : (⟨70, 1⟩ : Decimal).Reaches 0 := by decide
  have same : (⟨70, 1⟩ : Decimal).value = (7 : Nat) := by
    rw [value, (by decide : (1 : Int64).toInt = 1)]
    norm_num
  exact ⟨counted, reaches,
    ((factorial_eq_prod_positiveTerms ⟨70, 1⟩ 3 counted).2.1 reaches).2.2 7 same (by decide)⟩

/-- No word holds the distance of the least scale from the integers, so a power of ten far above
the limit is not refused as one. -/
theorem factorial_of_least_scale :
    100000 < (⟨1, -9223372036854775808⟩ : Decimal).value ∧
      (⟨1, -9223372036854775808⟩ : Decimal).factorial 1 = .error .overflow := by
  constructor
  · obtain ⟨places, opposite, many⟩ :
        ∃ places : Nat, (-9223372036854775808 : Int64).toInt = -places ∧ 6 ≤ places :=
      ⟨9223372036854775808, by decide, by decide⟩
    rw [value, opposite, zpow_neg, zpow_natCast, div_inv_eq_mul, Int.cast_one, one_mul]
    calc (100000 : ℚ) < 10 ^ 6 := by norm_num
      _ ≤ 10 ^ places := pow_le_pow_right₀ (by norm_num) many
  · exact factorial_eq_overflow_of_not_reaches 1 (by decide)

end Decimal
end DecimalCalculator
