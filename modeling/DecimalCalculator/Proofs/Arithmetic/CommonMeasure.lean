/-
The greatest common divisor as the greatest common measure of rational numbers.

A number measures another one that is an integer multiple of it.  The divisor of a list of
decimals, whatever their signs and scales are, measures all of them, and every rational
number that measures all of them measures the divisor, as long as the scales of no two of
them are so far apart that their distance is no word.
-/

import Mathlib
import DecimalCalculator.Proofs.Arithmetic.Values

namespace DecimalCalculator

/-! ### Measures -/

def Measures (measure value : ℚ) : Prop :=
  ∃ times : Int, value = times * measure

namespace Measures

variable {measure value other : ℚ}

theorem refl (value : ℚ) : Measures value value :=
  ⟨1, by rw [Int.cast_one, one_mul]⟩

theorem zero (measure : ℚ) : Measures measure 0 :=
  ⟨0, by rw [Int.cast_zero, zero_mul]⟩

theorem trans (first : Measures measure value) (second : Measures value other) :
    Measures measure other := by
  obtain ⟨times, rfl⟩ := first
  obtain ⟨again, rfl⟩ := second
  exact ⟨again * times, by rw [Int.cast_mul, mul_assoc]⟩

theorem mul (times : Int) (measured : Measures measure value) : Measures measure (times * value) :=
  measured.trans ⟨times, rfl⟩

theorem add (first : Measures measure value) (second : Measures measure other) :
    Measures measure (value + other) := by
  obtain ⟨times, rfl⟩ := first
  obtain ⟨again, rfl⟩ := second
  exact ⟨times + again, by rw [Int.cast_add, add_mul]⟩

theorem neg_iff : Measures measure (-value) ↔ Measures measure value := by
  have negated {value : ℚ} (measured : Measures measure value) : Measures measure (-value) := by
    obtain ⟨times, rfl⟩ := measured
    exact ⟨-times, by rw [Int.cast_neg, neg_mul]⟩
  constructor
  · intro measured
    rw [← neg_neg value]
    exact negated measured
  · exact negated

theorem abs_iff : Measures measure |value| ↔ Measures measure value := by
  rcases abs_choice value with same | opposite
  · rw [same]
  · rw [opposite, neg_iff]

theorem eq_zero (measured : Measures 0 value) : value = 0 := by
  obtain ⟨times, rfl⟩ := measured
  rw [mul_zero]

theorem antisymm (nonneg : 0 ≤ value) (nonneg' : 0 ≤ other) (first : Measures value other)
    (second : Measures other value) : value = other := by
  rcases nonneg.eq_or_lt with zero | positive
  · rw [← zero] at first ⊢
    exact first.eq_zero.symm
  · obtain ⟨times, product⟩ := first
    obtain ⟨again, product'⟩ := second
    have unit : again * times = 1 := by
      have cancelled : ((again * times : Int) : ℚ) * value = 1 * value := by
        rw [Int.cast_mul, mul_assoc, ← product, ← product', one_mul]
      exact_mod_cast mul_right_cancel₀ positive.ne' cancelled
    rcases Int.eq_one_or_neg_one_of_mul_eq_one' unit with ⟨-, rfl⟩ | ⟨-, rfl⟩
    · rw [product, Int.cast_one, one_mul]
    · rw [product, Int.cast_neg, Int.cast_one] at nonneg'
      linarith

end Measures

/-- The common measure of some values that all their common measures measure. -/
structure IsGreatestMeasure (values : List ℚ) (measure : ℚ) : Prop where
  nonneg : 0 ≤ measure
  measures : ∀ value ∈ values, Measures measure value
  greatest : ∀ other, (∀ value ∈ values, Measures other value) → Measures other measure

namespace IsGreatestMeasure

variable {values values' : List ℚ} {measure measure' : ℚ}

theorem congr (same : ∀ value, value ∈ values ↔ value ∈ values')
    (first : IsGreatestMeasure values measure) : IsGreatestMeasure values' measure := by
  refine ⟨first.nonneg, fun value present => first.measures value ((same value).mpr present), ?_⟩
  intro other common
  exact first.greatest other fun value present => common value ((same value).mp present)

theorem unique (first : IsGreatestMeasure values measure)
    (second : IsGreatestMeasure values measure') : measure = measure' :=
  Measures.antisymm first.nonneg second.nonneg (second.greatest measure first.measures)
    (first.greatest measure' second.measures)

theorem extend {value : ℚ} (first : IsGreatestMeasure values measure)
    (second : IsGreatestMeasure [measure, value] measure') :
    IsGreatestMeasure (values ++ [value]) measure' := by
  refine ⟨second.nonneg, ?_, ?_⟩
  · intro other present
    rcases List.mem_append.mp present with earlier | last
    · exact (second.measures measure List.mem_cons_self).trans (first.measures other earlier)
    · rw [List.mem_singleton.mp last]
      exact second.measures value (List.mem_cons_of_mem _ List.mem_cons_self)
  · intro other common
    apply second.greatest
    intro number present
    rcases List.mem_cons.mp present with rfl | last
    · exact first.greatest other fun value earlier => common value (List.mem_append_left _ earlier)
    · exact common number (List.mem_append_right _ last)

theorem swap {first second : ℚ} (both : IsGreatestMeasure [first, second] measure) :
    IsGreatestMeasure [second, first] measure :=
  both.congr fun value => by rw [List.mem_pair, List.mem_pair, or_comm]

theorem of_zero (value : ℚ) : IsGreatestMeasure [0, value] |value| := by
  refine ⟨abs_nonneg value, ?_, ?_⟩
  · intro other present
    rcases List.mem_pair.mp present with rfl | rfl
    · exact .zero _
    · exact Measures.abs_iff.mp (.refl _)
  · intro other common
    exact Measures.abs_iff.mpr (common value (List.mem_cons_of_mem _ List.mem_cons_self))

theorem of_units {left right unit : ℚ} {leftUnits rightUnits : Nat} (positive : 0 < unit)
    (first : |left| = leftUnits * unit) (second : |right| = rightUnits * unit) :
    IsGreatestMeasure [left, right] ((leftUnits.gcd rightUnits : Nat) * unit) := by
  have measures {size : ℚ} {units : Nat} (known : |size| = units * unit)
      (divides : leftUnits.gcd rightUnits ∣ units) :
      Measures ((leftUnits.gcd rightUnits : Nat) * unit) size := by
    obtain ⟨times, rfl⟩ := divides
    rw [← Measures.abs_iff, known]
    exact ⟨times, by push_cast; ring⟩
  refine ⟨by positivity, ?_, ?_⟩
  · intro value present
    rcases List.mem_pair.mp present with rfl | rfl
    · exact measures first (Nat.gcd_dvd_left _ _)
    · exact measures second (Nat.gcd_dvd_right _ _)
  · intro other common
    have measured := Measures.abs_iff.mpr (common left List.mem_cons_self)
    have measured' := Measures.abs_iff.mpr (common right (List.mem_cons_of_mem _ List.mem_cons_self))
    have bezout : ((leftUnits.gcd rightUnits : Nat) : ℚ) * unit =
        (leftUnits.gcdA rightUnits : Int) * |left| + (leftUnits.gcdB rightUnits : Int) * |right| := by
      have combination := congrArg (Int.cast (R := ℚ)) (Nat.gcd_eq_gcd_ab leftUnits rightUnits)
      push_cast at combination
      rw [combination, first, second]
      ring
    rw [bezout]
    exact (measured.mul _).add (measured'.mul _)

end IsGreatestMeasure

namespace Decimal

variable {left right number result : Decimal} {numbers rest : List Decimal}

/-! ### Divisors of two numbers -/

/-- The scales of any two numbers that are not zero are less than the size of a word apart. -/
def ScalesMeet (numbers : List Decimal) : Prop :=
  ∀ first ∈ numbers, ∀ second ∈ numbers, first.value ≠ 0 → second.value ≠ 0 →
    second.scale.toInt - first.scale.toInt < 2 ^ 63

theorem ScalesMeet.of_small (small : ∀ number ∈ numbers, |number.scale.toInt| < 2 ^ 62) :
    ScalesMeet numbers := by
  intro first present second present' _ _
  have near := abs_lt.mp (small first present)
  have near' := abs_lt.mp (small second present')
  omega

theorem ScalesMeet.aligned (meet : ScalesMeet numbers) (present : left ∈ numbers)
    (present' : right ∈ numbers) (first : left.value ≠ 0) (second : right.value ≠ 0) :
    Aligned left right := by
  have common := toInt_commonScale left right
  have near := meet left present right present' first second
  have near' := meet right present' left present second first
  exact ⟨Or.inr (by omega), Or.inr (by omega)⟩

theorem ScalesMeet.gcdFits (meet : ScalesMeet (left :: right :: rest)) : GcdFits left right :=
  meet.aligned List.mem_cons_self (List.mem_cons_of_mem _ List.mem_cons_self)

theorem isGreatestMeasure_gcd (fits : GcdFits left right) :
    IsGreatestMeasure [left.value, right.value] (left.gcd right).value := by
  by_cases first : left.value = 0
  · rw [gcd_of_zero_left first, value_abs, first]
    exact .of_zero right.value
  · by_cases second : right.value = 0
    · rw [gcd_of_zero_right first second, value_abs, second]
      exact (IsGreatestMeasure.of_zero left.value).swap
    · have aligned := fits first second
      have place : (0 : ℚ) < 10 ^ (left.commonScale right).toInt := zpow_pos (by norm_num) _
      have units := natAbs_alignedTo aligned.left_eq
      have units' := natAbs_alignedTo aligned.right_eq
      rw [value_gcd first second aligned, div_eq_mul_inv]
      refine .of_units (inv_pos.mpr place) ?_ ?_
      · rw [units, mul_inv_cancel_right₀ place.ne']
      · rw [units', mul_inv_cancel_right₀ place.ne']

theorem isGreatestMeasure_of_checked {divisor : Decimal}
    (reached : Checked.gcd left right = .ok divisor) :
    IsGreatestMeasure [left.value, right.value] divisor.value := by
  rw [Checked.gcd_eq_of_fits, unlessOverflow_eq_ok_iff] at reached
  rw [← reached.2]
  exact isGreatestMeasure_gcd reached.1

theorem eq_overflow_of_checked {error : EvaluationError}
    (failed : Checked.gcd left right = .error error) : error = .overflow := by
  rw [Checked.gcd_eq, unlessOverflow_eq_error_iff] at failed
  exact failed.2

theorem exists_scale_gcd_eq (nonzero : (left.gcd right).value ≠ 0) :
    (left.value ≠ 0 ∧ (left.gcd right).scale = left.scale) ∨
      (right.value ≠ 0 ∧ (left.gcd right).scale = right.scale) := by
  by_cases first : left.value = 0
  · rw [gcd_of_zero_left first] at nonzero ⊢
    rw [value_abs, abs_ne_zero] at nonzero
    exact Or.inr ⟨nonzero, rfl⟩
  · by_cases second : right.value = 0
    · rw [gcd_of_zero_right first second]
      exact Or.inl ⟨first, rfl⟩
    · exact (scale_gcd left right).imp (And.intro first) (And.intro second)

theorem ScalesMeet.gcd (meet : ScalesMeet (left :: right :: rest)) :
    ScalesMeet (left.gcd right :: rest) := by
  have origin {number : Decimal} (present : number ∈ left.gcd right :: rest)
      (nonzero : number.value ≠ 0) :
      ∃ source ∈ left :: right :: rest, source.value ≠ 0 ∧ number.scale = source.scale := by
    rcases List.mem_cons.mp present with rfl | later
    · rcases exists_scale_gcd_eq nonzero with ⟨first, same⟩ | ⟨second, same⟩
      · exact ⟨left, List.mem_cons_self, first, same⟩
      · exact ⟨right, List.mem_cons_of_mem _ List.mem_cons_self, second, same⟩
    · exact ⟨number, List.mem_cons_of_mem _ (List.mem_cons_of_mem _ later), nonzero, rfl⟩
  intro first present second present' nonzero nonzero'
  obtain ⟨source, member, positive, same⟩ := origin present nonzero
  obtain ⟨source', member', positive', same'⟩ := origin present' nonzero'
  rw [same, same']
  exact meet source member source' member' positive positive'

/-! ### Divisors of a list -/

theorem isGreatestMeasure_foldlM {values : List ℚ} {divisor : Decimal}
    (held : IsGreatestMeasure values result.value)
    (reached : rest.foldlM Checked.gcd result = .ok divisor) :
    IsGreatestMeasure (values ++ rest.map value) divisor.value := by
  induction rest generalizing result values with
  | nil =>
      cases reached
      rw [List.map_nil, List.append_nil]
      exact held
  | cons number rest ih =>
      obtain ⟨next, found, later⟩ := bind_eq_ok_iff.mp reached
      have extended := ih (held.extend (isGreatestMeasure_of_checked found)) later
      rwa [List.append_assoc] at extended

theorem eq_overflow_of_foldlM {error : EvaluationError}
    (failed : rest.foldlM Checked.gcd result = .error error) : error = .overflow := by
  induction rest generalizing result with
  | nil => cases failed
  | cons number rest ih =>
      rcases bind_eq_error_iff.mp failed with first | ⟨next, -, later⟩
      · exact eq_overflow_of_checked first
      · exact ih later

theorem exists_foldlM_of_scalesMeet (meet : ScalesMeet (result :: rest)) :
    ∃ divisor, rest.foldlM Checked.gcd result = .ok divisor := by
  induction rest generalizing result with
  | nil => exact ⟨result, rfl⟩
  | cons number rest ih =>
      exact exists_bind_eq_ok ⟨_, Checked.gcd_of_fits meet.gcdFits⟩ fun next found => by
        rw [Checked.gcd_of_fits meet.gcdFits] at found
        cases found
        exact ih meet.gcd

theorem gcdOfList_of_short (short : numbers.length < 2) :
    gcdOfList numbers = .error (.tooFewArguments "gcd" 2) := by
  cases numbers with
  | nil => rfl
  | cons first rest =>
      cases rest with
      | nil => rfl
      | cons second rest => exact absurd short (by rw [List.length_cons, List.length_cons]; omega)

theorem exists_gcdOfList_eq_foldlM (two : 2 ≤ numbers.length) :
    ∃ first rest, numbers = first :: rest ∧ gcdOfList numbers = rest.foldlM Checked.gcd first := by
  cases numbers with
  | nil => exact absurd two (by decide)
  | cons first rest =>
      cases rest with
      | nil => exact absurd two (Nat.not_succ_le_self 1)
      | cons second rest => exact ⟨first, second :: rest, rfl, rfl⟩

theorem isGreatestMeasure_of_gcdOfList {divisor : Decimal} (two : 2 ≤ numbers.length)
    (reached : gcdOfList numbers = .ok divisor) :
    IsGreatestMeasure (numbers.map value) divisor.value := by
  obtain ⟨first, rest, rfl, folded⟩ := exists_gcdOfList_eq_foldlM two
  rw [folded] at reached
  cases rest with
  | nil => exact absurd two (Nat.not_succ_le_self 1)
  | cons second rest =>
      obtain ⟨next, found, later⟩ := bind_eq_ok_iff.mp reached
      exact isGreatestMeasure_foldlM (isGreatestMeasure_of_checked found) later

theorem exists_gcdOfList_of_scalesMeet (two : 2 ≤ numbers.length) (meet : ScalesMeet numbers) :
    ∃ divisor, gcdOfList numbers = .ok divisor := by
  obtain ⟨first, rest, rfl, folded⟩ := exists_gcdOfList_eq_foldlM two
  rw [folded]
  exact exists_foldlM_of_scalesMeet meet

/-- Fewer than two numbers have no divisor.  A divisor of more of them is their greatest common
measure.  There is one unless the scales of two of them are so far apart that their distance is
no word, and nothing else can fail. -/
theorem gcdOfList_isGreatestMeasure (numbers : List Decimal) :
    (numbers.length < 2 → gcdOfList numbers = .error (.tooFewArguments "gcd" 2)) ∧
      (2 ≤ numbers.length →
        (∀ divisor, gcdOfList numbers = .ok divisor →
          IsGreatestMeasure (numbers.map value) divisor.value) ∧
        (ScalesMeet numbers → ∃ divisor, gcdOfList numbers = .ok divisor) ∧
        ∀ error, gcdOfList numbers = .error error → error = .overflow) := by
  refine ⟨gcdOfList_of_short, fun two => ⟨fun divisor => isGreatestMeasure_of_gcdOfList two,
    exists_gcdOfList_of_scalesMeet two, fun error failed => ?_⟩⟩
  obtain ⟨first, rest, rfl, folded⟩ := exists_gcdOfList_eq_foldlM two
  rw [folded] at failed
  exact eq_overflow_of_foldlM failed

theorem gcdOfList_isGreatestMeasure_fractions :
    2 ≤ [⟨15, 1⟩, ⟨-50, 2⟩, 0, (⟨2, -1⟩ : Decimal)].length ∧
      ScalesMeet [⟨15, 1⟩, ⟨-50, 2⟩, 0, ⟨2, -1⟩] ∧
      gcdOfList [⟨15, 1⟩, ⟨-50, 2⟩, 0, ⟨2, -1⟩] = .ok ⟨50, 2⟩ ∧
      IsGreatestMeasure ([⟨15, 1⟩, ⟨-50, 2⟩, 0, ⟨2, -1⟩].map value) (⟨50, 2⟩ : Decimal).value := by
  have two : 2 ≤ [⟨15, 1⟩, ⟨-50, 2⟩, 0, (⟨2, -1⟩ : Decimal)].length := by decide
  have meet : ScalesMeet [⟨15, 1⟩, ⟨-50, 2⟩, 0, ⟨2, -1⟩] := .of_small (by decide)
  have found : gcdOfList [⟨15, 1⟩, ⟨-50, 2⟩, 0, ⟨2, -1⟩] = .ok ⟨50, 2⟩ := by cbv
  exact ⟨two, meet, found, ((gcdOfList_isGreatestMeasure _).2 two).1 _ found⟩

/-- No word holds the distance of the scales of `10 ^ (2 ^ 63)` and 0.1. -/
theorem gcdOfList_distant_scales :
    gcdOfList [⟨1, -9223372036854775808⟩, ⟨1, 1⟩] = .error .overflow := by
  have apart : Checked.gcd ⟨1, -9223372036854775808⟩ ⟨1, 1⟩ = .error .overflow := by
    rw [Checked.gcd_eq, unlessOverflow_of_not (by decide)]
  rw [gcdOfList, apart]
  rfl

end Decimal
end DecimalCalculator
