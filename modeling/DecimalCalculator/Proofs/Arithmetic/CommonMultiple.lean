/-
The least common multiple of rational numbers.

The multiple of two decimals is the integer quotient of the first one by their divisor times
the second one.  The divisor is exact for fractions too, so that nothing is lost by the
quotient, and at scales that are written with 32 bits no power of ten is refused.  The only
error is the division of zero by zero, which the second zero of a list meets wherever the
two zeros stand.
-/

import Mathlib
import DecimalCalculator.Proofs.Arithmetic.CommonMeasure
import DecimalCalculator.Proofs.Decimal.Quotient

namespace DecimalCalculator

/-! ### Multiples -/

/-- The common multiple of some values that measures all their common multiples. -/
structure IsLeastMultiple (values : List ℚ) (multiple : ℚ) : Prop where
  nonneg : 0 ≤ multiple
  measured : ∀ value ∈ values, Measures value multiple
  least : ∀ other, (∀ value ∈ values, Measures value other) → Measures multiple other

namespace IsLeastMultiple

variable {values values' : List ℚ} {multiple multiple' : ℚ}

theorem congr (same : ∀ value, value ∈ values ↔ value ∈ values')
    (first : IsLeastMultiple values multiple) : IsLeastMultiple values' multiple := by
  refine ⟨first.nonneg, fun value present => first.measured value ((same value).mpr present), ?_⟩
  intro other common
  exact first.least other fun value present => common value ((same value).mp present)

theorem unique (first : IsLeastMultiple values multiple)
    (second : IsLeastMultiple values multiple') : multiple = multiple' :=
  Measures.antisymm first.nonneg second.nonneg (first.least multiple' second.measured)
    (second.least multiple first.measured)

theorem eq_zero (least : IsLeastMultiple values multiple) (zero : 0 ∈ values) : multiple = 0 :=
  (least.measured 0 zero).eq_zero

theorem extend {value : ℚ} (first : IsLeastMultiple values multiple)
    (second : IsLeastMultiple [multiple, value] multiple') :
    IsLeastMultiple (values ++ [value]) multiple' := by
  refine ⟨second.nonneg, ?_, ?_⟩
  · intro other present
    rcases List.mem_append.mp present with earlier | last
    · exact (first.measured other earlier).trans (second.measured multiple List.mem_cons_self)
    · rw [List.mem_singleton.mp last]
      exact second.measured value (List.mem_cons_of_mem _ List.mem_cons_self)
  · intro other common
    apply second.least
    intro number present
    rcases List.mem_cons.mp present with rfl | last
    · exact first.least other fun value earlier => common value (List.mem_append_left _ earlier)
    · exact common number (List.mem_append_right _ last)

theorem single (value : ℚ) : IsLeastMultiple [value] |value| := by
  refine ⟨abs_nonneg value, ?_, ?_⟩
  · intro other present
    rw [List.mem_singleton.mp present]
    exact Measures.abs_iff.mpr (.refl value)
  · intro other common
    exact (Measures.abs_iff.mp (.refl |value|)).trans (common value List.mem_cons_self)

theorem exists_multiple (nonzero : ∀ value ∈ values, value ≠ 0) :
    ∃ multiple, multiple ≠ 0 ∧ ∀ value ∈ values, Measures value multiple := by
  induction values with
  | nil => exact ⟨1, one_ne_zero, fun value absent => nomatch absent⟩
  | cons value rest ih =>
      obtain ⟨earlier, kept, common⟩ := ih fun other later => nonzero other (List.mem_cons_of_mem _ later)
      have front := nonzero value List.mem_cons_self
      have ratio : (earlier / value).den * earlier = (earlier / value).num * value := by
        have fraction := Rat.num_div_den (earlier / value)
        have parts : ((earlier / value).den : ℚ) ≠ 0 := Nat.cast_ne_zero.mpr (Rat.den_ne_zero _)
        field_simp at fraction
        linarith
      refine ⟨(earlier / value).den * earlier, ?_, ?_⟩
      · exact mul_ne_zero (Nat.cast_ne_zero.mpr (Rat.den_ne_zero _)) kept
      · intro other present
        rcases List.mem_cons.mp present with rfl | later
        · exact ⟨_, ratio⟩
        · exact (common other later).mul (earlier / value).den

theorem pos (least : IsLeastMultiple values multiple) (nonzero : ∀ value ∈ values, value ≠ 0) :
    0 < multiple := by
  obtain ⟨other, kept, common⟩ := exists_multiple nonzero
  refine lt_of_le_of_ne least.nonneg fun zero => kept ?_
  have measured := least.least other common
  rw [← zero] at measured
  exact measured.eq_zero

end IsLeastMultiple

theorem IsGreatestMeasure.isCoprime {measure : ℚ} {times again : Int} (nonzero : measure ≠ 0)
    (greatest : IsGreatestMeasure [times * measure, again * measure] measure) :
    IsCoprime times again := by
  rw [Int.isCoprime_iff_gcd_eq_one]
  have divides {factor : Int} (divisor : (Int.gcd times again : Int) ∣ factor) :
      Measures ((Int.gcd times again : Int) * measure) (factor * measure) := by
    obtain ⟨rest, rfl⟩ := divisor
    exact ⟨rest, by push_cast; ring⟩
  obtain ⟨rest, product⟩ := greatest.greatest ((Int.gcd times again : Int) * measure)
    fun value present => by
      rcases List.mem_pair.mp present with rfl | rfl
      · exact divides (Int.gcd_dvd_left _ _)
      · exact divides (Int.gcd_dvd_right _ _)
  have unit : rest * (Int.gcd times again : Int) = 1 := by
    have cancelled : ((rest * (Int.gcd times again : Int) : Int) : ℚ) * measure = 1 * measure := by
      rw [Int.cast_mul, mul_assoc, ← product, one_mul]
    exact_mod_cast mul_right_cancel₀ nonzero cancelled
  have size := Int.isUnit_iff_natAbs_eq.mp (IsUnit.of_mul_eq_one_right rest unit)
  exact size

/-- The product of two values is that of their greatest common measure and their least
common multiple. -/
theorem IsGreatestMeasure.isLeastMultiple {left right measure multiple : ℚ}
    (greatest : IsGreatestMeasure [left, right] measure) (nonzero : measure ≠ 0)
    (nonneg : 0 ≤ multiple) (product : multiple * measure = |left * right|) :
    IsLeastMultiple [left, right] multiple := by
  obtain ⟨times, rfl⟩ := greatest.measures left List.mem_cons_self
  obtain ⟨again, rfl⟩ := greatest.measures right (List.mem_cons_of_mem _ List.mem_cons_self)
  have coprime := greatest.isCoprime nonzero
  have size : multiple = |(times * again : ℚ) * measure| := by
    have positive : 0 < measure := lt_of_le_of_ne greatest.nonneg nonzero.symm
    have square : times * measure * (again * measure) = times * again * measure * measure := by ring
    rw [square, abs_mul, abs_of_pos positive] at product
    exact mul_right_cancel₀ nonzero product
  refine ⟨nonneg, ?_, ?_⟩
  · intro value present
    rw [size, Measures.abs_iff]
    rcases List.mem_pair.mp present with rfl | rfl
    · exact ⟨again, by ring⟩
    · exact ⟨times, by ring⟩
  · intro other common
    obtain ⟨first, known⟩ := common _ List.mem_cons_self
    obtain ⟨second, known'⟩ := common _ (List.mem_cons_of_mem _ List.mem_cons_self)
    have equal : first * times = second * again := by
      have cancelled : ((first * times : Int) : ℚ) * measure =
          ((second * again : Int) : ℚ) * measure := by
        push_cast
        rw [mul_assoc, ← known, mul_assoc, ← known']
      exact_mod_cast mul_right_cancel₀ nonzero cancelled
    obtain ⟨rest, factor⟩ := coprime.symm.dvd_of_dvd_mul_right (Dvd.intro_left second equal.symm)
    rw [size]
    refine Measures.trans (Measures.abs_iff.mp (.refl _)) ⟨rest, ?_⟩
    rw [known, factor]
    push_cast
    ring

namespace Decimal

variable {left right number result : Decimal} {numbers rest : List Decimal}

/-! ### Multiples of two numbers -/

theorem ScalesMeet.of_narrow (narrow : ∀ number ∈ numbers, number.HasNarrowScale) :
    ScalesMeet numbers := by
  refine .of_small fun number present => ?_
  obtain ⟨lower, upper⟩ := narrow number present
  rw [abs_lt]
  omega

theorem lcm_of_zeros (first : left.value = 0) (second : right.value = 0) :
    left.lcm right = .error .divisionByZero := by
  have nothing : (left.gcd right).value = 0 := by
    rw [gcd_of_zero_left first, value_abs, second, abs_zero]
  rw [lcm, Checked.gcd_of_fits fun nonzero => absurd first nonzero]
  change (left.abs.divideAtScale _ 0 .down >>= _) = _
  rw [divideAtScale_of_zero .down nothing]
  rfl

theorem ScalesMeet.of_narrow_pair (narrow : left.HasNarrowScale) (narrow' : right.HasNarrowScale) :
    ScalesMeet [left, right] := by
  refine .of_narrow fun number present => ?_
  rcases List.mem_pair.mp present with rfl | rfl
  · exact narrow
  · exact narrow'

theorem value_gcd_ne_zero (narrow : left.HasNarrowScale) (narrow' : right.HasNarrowScale)
    (some : left.value ≠ 0 ∨ right.value ≠ 0) : (left.gcd right).value ≠ 0 := by
  intro zero
  have greatest := isGreatestMeasure_gcd (ScalesMeet.of_narrow_pair narrow narrow').gcdFits
  rw [zero] at greatest
  have first := (greatest.measures left.value List.mem_cons_self).eq_zero
  have second := (greatest.measures right.value (List.mem_cons_of_mem _ List.mem_cons_self)).eq_zero
  exact some.elim (fun other => other first) fun other => other second

theorem abs_quotientExponent_gcd_le (narrow : left.HasNarrowScale)
    (narrow' : right.HasNarrowScale) :
    |quotientExponent left.abs (left.gcd right) 0| ≤ largestExponent := by
  have room : (largestExponent : Int) = 2 ^ 32 - 1 := by decide
  obtain ⟨lower, upper⟩ := narrow
  obtain ⟨lower', upper'⟩ := narrow'
  have common : (left.gcd right).scale.toInt = left.scale.toInt ∨
      (left.gcd right).scale.toInt = right.scale.toInt :=
    (scale_gcd left right).imp (congrArg Int64.toInt) (congrArg Int64.toInt)
  rw [quotientExponent, Int64.toInt_zero, room, abs_le]
  change _ ≤ 0 + (left.gcd right).scale.toInt - left.scale.toInt ∧
    0 + (left.gcd right).scale.toInt - left.scale.toInt ≤ _
  omega

theorem exists_divideAtScale_gcd (narrow : left.HasNarrowScale) (narrow' : right.HasNarrowScale)
    (some : left.value ≠ 0 ∨ right.value ≠ 0) :
    ∃ times : Int, left.abs.divideAtScale (left.gcd right) 0 .down = .ok ⟨times, 0⟩ ∧
      |left.value| = times * (left.gcd right).value := by
  have greatest := isGreatestMeasure_gcd (ScalesMeet.of_narrow_pair narrow narrow').gcdFits
  have nonzero := value_gcd_ne_zero narrow narrow' some
  obtain ⟨times, exact⟩ := Measures.abs_iff.mpr (greatest.measures left.value List.mem_cons_self)
  refine ⟨times, ?_, exact⟩
  have sum : IsWord ((0 : Int64).toInt + (left.gcd right).scale.toInt) := by
    rw [Int64.toInt_zero, zero_add]
    exact isWord_toInt (left.gcd right).scale
  rw [divideAtScale_eq_ok .down nonzero sum (abs_quotientExponent_gcd_le narrow narrow'), value_abs,
    exact, mul_div_cancel_right₀ _ nonzero, Int64.toInt_zero, zpow_zero, mul_one,
    RoundingMode.round_intCast]

theorem isWord_scale_times (times : Int) (right : Decimal) :
    IsWord ((⟨times, 0⟩ : Decimal).scale.toInt + right.abs.scale.toInt) := by
  rw [Int64.toInt_zero, zero_add]
  exact isWord_toInt right.abs.scale

theorem value_times_mul_abs (times : Int) (right : Decimal) :
    ((⟨times, 0⟩ : Decimal) * right.abs).value = times * |right.value| := by
  rw [value_mul (isWord_scale_times times right), value_abs, ← value_ofInt times]
  rfl

theorem exists_lcm (narrow : left.HasNarrowScale) (narrow' : right.HasNarrowScale)
    (some : left.value ≠ 0 ∨ right.value ≠ 0) :
    ∃ multiple, left.lcm right = .ok multiple ∧ multiple.scale = right.scale ∧
      IsLeastMultiple [left.value, right.value] multiple.value ∧
      multiple.value * (left.gcd right).value = |left.value * right.value| := by
  have greatest := isGreatestMeasure_gcd (ScalesMeet.of_narrow_pair narrow narrow').gcdFits
  have nonzero := value_gcd_ne_zero narrow narrow' some
  obtain ⟨times, quotient, exact⟩ := exists_divideAtScale_gcd narrow narrow' some
  have product : ((⟨times, 0⟩ : Decimal) * right.abs).value * (left.gcd right).value =
      |left.value * right.value| := by
    rw [value_times_mul_abs, abs_mul, exact]
    ring
  have positive : 0 < (left.gcd right).value := lt_of_le_of_ne greatest.nonneg nonzero.symm
  have nonneg : 0 ≤ ((⟨times, 0⟩ : Decimal) * right.abs).value := by
    rw [← mul_nonneg_iff_of_pos_right positive, product]
    exact abs_nonneg _
  refine ⟨_, ?_, ?_, greatest.isLeastMultiple nonzero nonneg product, product⟩
  · rw [lcm, Checked.gcd_of_fits (ScalesMeet.of_narrow_pair narrow narrow').gcdFits]
    change (left.abs.divideAtScale _ 0 .down >>= _) = _
    rw [quotient]
    exact unlessOverflow_of (isWord_scale_times times right)
  · exact Int64.zero_add right.scale

/-! ### Multiples of a list -/

theorem hasNarrowScale_lcm {multiple : Decimal} (narrow : left.HasNarrowScale)
    (narrow' : right.HasNarrowScale) (some : left.value ≠ 0 ∨ right.value ≠ 0)
    (found : left.lcm right = .ok multiple) : multiple.HasNarrowScale := by
  obtain ⟨other, reached, same, -⟩ := exists_lcm narrow narrow' some
  rw [found, Except.ok.injEq] at reached
  subst reached
  constructor
  · rw [same]
    exact narrow'.lower
  · rw [same]
    exact narrow'.upper

theorem countP_isZero_of_isLeastMultiple {multiple : Decimal}
    (least : IsLeastMultiple [left.value, right.value] multiple.value)
    (some : left.value ≠ 0 ∨ right.value ≠ 0) :
    (multiple :: rest).countP isZero = (left :: right :: rest).countP isZero := by
  have zero : multiple.isZero = (left.isZero || right.isZero) := by
    rw [Bool.eq_iff_iff, Bool.or_eq_true, isZero_iff, isZero_iff, isZero_iff]
    constructor
    · intro nothing
      by_contra neither
      have positive := least.pos fun value present => by
        rcases List.mem_pair.mp present with rfl | rfl
        · exact fun first => neither (Or.inl first)
        · exact fun second => neither (Or.inr second)
      exact positive.ne' nothing
    · intro either
      refine least.eq_zero (List.mem_pair.mpr ?_)
      exact either.imp Eq.symm Eq.symm
  rw [← isZero_eq_false_iff, ← isZero_eq_false_iff] at some
  rw [List.countP_cons, List.countP_cons, List.countP_cons, zero]
  cases first : left.isZero with
  | false =>
      cases second : right.isZero with
      | false => rfl
      | true => rfl
  | true =>
      cases second : right.isZero with
      | false => rfl
      | true => exact absurd some (by rw [first, second]; decide)

theorem two_le_countP_of_zeros (first : left.value = 0) (second : right.value = 0)
    (rest : List Decimal) : 2 ≤ (left :: right :: rest).countP isZero := by
  rw [List.countP_cons, List.countP_cons, isZero_iff.mpr first, isZero_iff.mpr second]
  exact Nat.le_add_left _ _

/-- The run over a list ends with the multiple of all numbers, or with an error at the
second zero. -/
theorem foldlM_lcm {values : List ℚ} (rest : List Decimal) (held : IsLeastMultiple values result.value)
    (narrow : ∀ number ∈ result :: rest, number.HasNarrowScale) :
    if (result :: rest).countP isZero < 2 then
      ∃ multiple, rest.foldlM lcm result = .ok multiple ∧
        IsLeastMultiple (values ++ rest.map value) multiple.value
    else rest.foldlM lcm result = .error .divisionByZero := by
  induction rest generalizing result values with
  | nil =>
      have few : [result].countP isZero < 2 := Nat.lt_succ_of_le List.countP_le_length
      rw [if_pos few, List.map_nil, List.append_nil]
      exact ⟨result, rfl, held⟩
  | cons number rest ih =>
      have front := narrow result List.mem_cons_self
      have next := narrow number (List.mem_cons_of_mem _ List.mem_cons_self)
      rw [List.foldlM_cons]
      by_cases zeros : result.value = 0 ∧ number.value = 0
      · obtain ⟨first, second⟩ := zeros
        rw [if_neg (not_lt.mpr (two_le_countP_of_zeros first second rest)),
          lcm_of_zeros first second]
        rfl
      · have some := not_and_or.mp zeros
        obtain ⟨multiple, found, -, least, -⟩ := exists_lcm front next some
        have kept := hasNarrowScale_lcm front next some found
        rw [found, ← countP_isZero_of_isLeastMultiple least some]
        have later := ih (held.extend least) fun other present => by
          rcases List.mem_cons.mp present with rfl | behind
          · exact kept
          · exact narrow other (List.mem_cons_of_mem _ (List.mem_cons_of_mem _ behind))
        rwa [List.append_assoc] at later

theorem lcm_abs_left (left right : Decimal) : left.abs.lcm right = left.lcm right := by
  have idle : left.abs.abs = left.abs :=
    abs_of_value_nonneg (by rw [value_abs]; exact abs_nonneg _)
  have size : left.abs.magnitude = left.magnitude := (Magnitude.mk.injEq ..).mpr idle
  rw [lcm, lcm, Checked.gcd, Checked.gcd, size, idle]

theorem lcmOfList_eq_foldlM (first second : Decimal) (rest : List Decimal) :
    lcmOfList (first :: second :: rest) = (second :: rest).foldlM lcm first.abs := by
  rw [List.foldlM_cons, lcm_abs_left]
  rfl

theorem lcmOfList_of_short (short : numbers.length < 2) :
    lcmOfList numbers = .error (.tooFewArguments "lcm" 2) := by
  cases numbers with
  | nil => rfl
  | cons first rest =>
      cases rest with
      | nil => rfl
      | cons second rest => exact absurd short (by rw [List.length_cons, List.length_cons]; omega)

/-- The multiple of at least two numbers is their least common multiple, and there is none
exactly if two of them are zero. -/
theorem lcmOfList_spec (two : 2 ≤ numbers.length)
    (narrow : ∀ number ∈ numbers, number.HasNarrowScale) :
    if numbers.countP isZero < 2 then
      ∃ multiple, lcmOfList numbers = .ok multiple ∧
        IsLeastMultiple (numbers.map value) multiple.value
    else lcmOfList numbers = .error .divisionByZero := by
  cases numbers with
  | nil => exact absurd two (by decide)
  | cons first rest =>
      cases rest with
      | nil => exact absurd two (Nat.not_succ_le_self 1)
      | cons second rest =>
          have held : IsLeastMultiple [first.value] first.abs.value := by
            rw [value_abs]
            exact .single first.value
          have run := foldlM_lcm (second :: rest) held fun number present => by
            rcases List.mem_cons.mp present with rfl | later
            · obtain ⟨lower, upper⟩ := narrow first List.mem_cons_self
              exact ⟨lower, upper⟩
            · exact narrow number (List.mem_cons_of_mem _ later)
          rwa [List.countP_cons, isZero_abs, ← List.countP_cons, ← lcmOfList_eq_foldlM] at run

theorem value_ne_zero_of_countP (none : numbers.countP isZero = 0) :
    ∀ number ∈ numbers, number.value ≠ 0 := by
  intro number present
  rw [← isZero_eq_false_iff]
  exact Bool.eq_false_iff.mpr (List.countP_eq_zero.mp none number present)

/-- Of at least two numbers with scales as they are written, two zeros are a division by
zero.  Others have a least common multiple, and two of them that are not zero have the
product of it and their divisor for their own product. -/
theorem lcmOfList_isLeastMultiple (two : 2 ≤ numbers.length)
    (narrow : ∀ number ∈ numbers, number.HasNarrowScale) :
    (lcmOfList numbers = .error .divisionByZero ↔ 2 ≤ numbers.countP isZero) ∧
      (numbers.countP isZero < 2 → ∃ multiple, lcmOfList numbers = .ok multiple ∧
        0 ≤ multiple.value ∧
        ((∃ number ∈ numbers, number.value = 0) → multiple.value = 0) ∧
        ((∀ number ∈ numbers, number.value ≠ 0) →
          0 < multiple.value ∧ IsLeastMultiple (numbers.map value) multiple.value)) ∧
      (∀ left right, numbers = [left, right] → left.value ≠ 0 → right.value ≠ 0 →
        ∃ divisor multiple, gcdOfList numbers = .ok divisor ∧ lcmOfList numbers = .ok multiple ∧
          divisor.value * multiple.value = |left.value * right.value|) := by
  have spec := lcmOfList_spec two narrow
  refine ⟨?_, ?_, ?_⟩
  · constructor
    · intro refused
      by_contra few
      rw [if_pos (not_le.mp few), refused] at spec
      obtain ⟨multiple, impossible, -⟩ := spec
      cases impossible
    · intro many
      rwa [if_neg (not_lt.mpr many)] at spec
  · intro few
    rw [if_pos few] at spec
    obtain ⟨multiple, found, least⟩ := spec
    refine ⟨multiple, found, least.nonneg, ?_, ?_⟩
    · intro zero
      obtain ⟨number, present, zero⟩ := zero
      exact least.eq_zero (List.mem_map.mpr ⟨number, present, zero⟩)
    · intro nonzero
      refine ⟨least.pos fun value present => ?_, least⟩
      obtain ⟨number, member, rfl⟩ := List.mem_map.mp present
      exact nonzero number member
  · rintro left right rfl first second
    obtain ⟨multiple, found, -, -, product⟩ := exists_lcm (narrow left List.mem_cons_self)
      (narrow right (List.mem_cons_of_mem _ List.mem_cons_self)) (Or.inl first)
    refine ⟨left.gcd right, multiple, ?_, ?_, ?_⟩
    · rw [gcdOfList, Checked.gcd_of_fits (ScalesMeet.gcdFits (.of_narrow narrow))]
      rfl
    · rw [lcmOfList, found]
      rfl
    · rw [mul_comm, product]

theorem lcmOfList_isLeastMultiple_fractions :
    2 ≤ [⟨15, 1⟩, ⟨-50, 2⟩, (⟨2, -1⟩ : Decimal)].length ∧
      (∀ number ∈ [⟨15, 1⟩, ⟨-50, 2⟩, (⟨2, -1⟩ : Decimal)], number.HasNarrowScale) ∧
      lcmOfList [⟨15, 1⟩, ⟨-50, 2⟩, ⟨2, -1⟩] = .ok ⟨6, -1⟩ ∧
      IsLeastMultiple ([⟨15, 1⟩, ⟨-50, 2⟩, ⟨2, -1⟩].map value) (⟨6, -1⟩ : Decimal).value := by
  have two : 2 ≤ [⟨15, 1⟩, ⟨-50, 2⟩, (⟨2, -1⟩ : Decimal)].length := by decide
  have narrow : ∀ number ∈ [⟨15, 1⟩, ⟨-50, 2⟩, (⟨2, -1⟩ : Decimal)], number.HasNarrowScale := by
    decide
  have found : lcmOfList [⟨15, 1⟩, ⟨-50, 2⟩, ⟨2, -1⟩] = .ok ⟨6, -1⟩ := by cbv
  obtain ⟨multiple, reached, -, -, least⟩ :=
    (lcmOfList_isLeastMultiple two narrow).2.1 (by decide)
  rw [found, Except.ok.injEq] at reached
  subst reached
  have nonzero : ∀ number ∈ [⟨15, 1⟩, ⟨-50, 2⟩, (⟨2, -1⟩ : Decimal)], number.value ≠ 0 :=
    value_ne_zero_of_countP (by decide)
  exact ⟨two, narrow, found, (least nonzero).2⟩

end Decimal
end DecimalCalculator
