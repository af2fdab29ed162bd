/-
Functions that take all numbers of a value together.

What the sum, the mean, the divisor and the multiple of some numbers are worth is settled by
the values of the numbers: a greatest common measure and a least common multiple are unique,
and neither of them, nor a sum, asks for the order of the numbers or the lists that hold them.
-/

import Mathlib
import DecimalCalculator.Proofs.Arithmetic.CommonMultiple
import DecimalCalculator.Proofs.Decimal.Modes
import DecimalCalculator.Proofs.Evaluation.Quotients

namespace DecimalCalculator

open Decimal

/-- The numbers of two values are worth the same, whatever their forms, their order and the
nesting of the lists are. -/
def Value.HoldSameNumbers (first second : Value) : Prop :=
  (first.flatten.map Decimal.value).Perm (second.flatten.map Decimal.value)

/-- Two outcomes are worth the same: numbers of one value, or the same error. -/
inductive SameOutcome : Outcome Decimal → Outcome Decimal → Prop where
  | number {first second : Decimal} (values : first.value = second.value) :
      SameOutcome (.ok first) (.ok second)
  | fault (error : EvaluationError) : SameOutcome (.error error) (.error error)

/-- Two answers about a value are worth the same: scalars of one value, or the same error. -/
inductive SameAnswer : Outcome (Option Value) → Outcome (Option Value) → Prop where
  | scalar {first second : Decimal} (values : first.value = second.value) :
      SameAnswer (.ok (some (.scalar first))) (.ok (some (.scalar second)))
  | fault (error : EvaluationError) : SameAnswer (.error error) (.error error)

theorem SameOutcome.answer {first second : Outcome Decimal} (same : SameOutcome first second) :
    SameAnswer (first >>= fun number => .ok (some (.scalar number)))
      (second >>= fun number => .ok (some (.scalar number))) := by
  cases same with
  | number values => exact .scalar values
  | fault error => exact .fault error

variable {left right total : Decimal} {numbers numbers' : List Decimal} {context : Context}

/-! ### Divisors and multiples -/

section Permuted

variable (same : (numbers.map value).Perm (numbers'.map value))

include same

theorem length_of_perm : numbers.length = numbers'.length := by
  have lengths := same.length_eq
  rwa [List.length_map, List.length_map] at lengths

theorem countP_isZero_of_perm : numbers.countP isZero = numbers'.countP isZero := by
  have zeros (list : List Decimal) :
      list.countP isZero = (list.map value).countP fun value => decide (value = 0) := by
    rw [List.countP_map]
    refine List.countP_congr fun number _ => ?_
    rw [isZero_iff, Function.comp_apply, decide_eq_true_iff]
  rw [zeros, zeros, same.countP_eq]

theorem sameOutcome_gcdOfList (narrow : ∀ number ∈ numbers, number.HasNarrowScale)
    (narrow' : ∀ number ∈ numbers', number.HasNarrowScale) :
    SameOutcome (gcdOfList numbers) (gcdOfList numbers') := by
  have lengths := length_of_perm same
  by_cases short : numbers.length < 2
  · rw [gcdOfList_of_short short, gcdOfList_of_short (lengths ▸ short)]
    exact .fault _
  · have two := not_lt.mp short
    have two' : 2 ≤ numbers'.length := lengths ▸ two
    obtain ⟨divisor, found⟩ := exists_gcdOfList_of_scalesMeet two (.of_narrow narrow)
    obtain ⟨divisor', found'⟩ := exists_gcdOfList_of_scalesMeet two' (.of_narrow narrow')
    have greatest := isGreatestMeasure_of_gcdOfList two found
    have greatest' := isGreatestMeasure_of_gcdOfList two' found'
    rw [found, found']
    exact .number ((greatest.congr fun value => same.mem_iff).unique greatest')

theorem sameOutcome_lcmOfList (narrow : ∀ number ∈ numbers, number.HasNarrowScale)
    (narrow' : ∀ number ∈ numbers', number.HasNarrowScale) :
    SameOutcome (lcmOfList numbers) (lcmOfList numbers') := by
  have lengths := length_of_perm same
  by_cases short : numbers.length < 2
  · rw [lcmOfList_of_short short, lcmOfList_of_short (lengths ▸ short)]
    exact .fault _
  · have two := not_lt.mp short
    have spec := lcmOfList_spec two narrow
    have spec' := lcmOfList_spec (lengths ▸ two) narrow'
    rw [← countP_isZero_of_perm same] at spec'
    by_cases few : numbers.countP isZero < 2
    · rw [if_pos few] at spec spec'
      obtain ⟨multiple, found, least⟩ := spec
      obtain ⟨multiple', found', least'⟩ := spec'
      rw [found, found']
      exact .number ((least.congr fun value => same.mem_iff).unique least')
    · rw [if_neg few] at spec spec'
      rw [spec, spec']
      exact .fault _

end Permuted

/-! ### Sums and means -/

theorem aligned_of_narrow (first : left.HasNarrowScale) (second : right.HasNarrowScale) :
    Aligned left right := by
  have common := toInt_commonScale left right
  obtain ⟨lower, upper⟩ := first
  obtain ⟨lower', upper'⟩ := second
  exact ⟨Or.inr (by omega), Or.inr (by omega)⟩

theorem hasNarrowScale_add (first : left.HasNarrowScale) (second : right.HasNarrowScale) :
    (left + right).HasNarrowScale := by
  have common : (left + right).scale.toInt = max left.scale.toInt right.scale.toInt :=
    toInt_commonScale left right
  constructor
  · exact common ▸ le_max_of_le_left first.lower
  · exact common ▸ max_lt first.upper second.upper

theorem exists_foldlM_add (start : left.HasNarrowScale)
    (narrow : ∀ number ∈ numbers, number.HasNarrowScale) :
    ∃ total, numbers.foldlM Checked.add left = .ok total ∧
      total.value = left.value + (numbers.map value).sum ∧ total.HasNarrowScale ∧
      left.scale.toInt ≤ total.scale.toInt := by
  induction numbers generalizing left with
  | nil => exact ⟨left, rfl, (add_zero _).symm, start, le_rfl⟩
  | cons number rest ih =>
      have front := narrow number List.mem_cons_self
      have aligned := aligned_of_narrow start front
      obtain ⟨total, found, worth, kept, finer⟩ := ih (hasNarrowScale_add start front)
        fun other later => narrow other (List.mem_cons_of_mem _ later)
      have common : (left + number).scale.toInt = max left.scale.toInt number.scale.toInt :=
        toInt_commonScale left number
      have first : Checked.add left number = .ok (left + number) := unlessOverflow_of aligned
      refine ⟨total, bind_eq_ok_iff.mpr ⟨_, first, found⟩, ?_, kept, ?_⟩
      · rw [worth, value_add aligned, add_assoc, List.map_cons, List.sum_cons]
      · exact (le_max_left _ _).trans (common ▸ finer)

theorem exists_sum (narrow : ∀ number ∈ numbers, number.HasNarrowScale) :
    ∃ total, Standard.sum numbers = .ok total ∧ total.value = (numbers.map value).sum ∧
      total.HasNarrowScale ∧ 0 ≤ total.scale.toInt := by
  have start : (0 : Decimal).HasNarrowScale := by decide
  obtain ⟨total, found, worth, kept, finer⟩ := exists_foldlM_add start narrow
  have nothing : (0 : Decimal).value = 0 := value_eq_zero_iff.mpr rfl
  rw [nothing, zero_add] at worth
  exact ⟨total, found, worth, kept, finer⟩

theorem average_eq_ok (some : numbers ≠ [])
    (narrow : ∀ number ∈ numbers, number.HasNarrowScale)
    (moderate : context.precision.toNat ≤ 10 ^ 6) :
    Standard.average numbers context = .ok
      ⟨RoundingMode.halfEven.round
        ((numbers.map value).sum / numbers.length * 10 ^ context.precision.toNat),
        context.precisionScale⟩ := by
  have count : (ofInt numbers.length).value ≠ 0 := by
    rw [value_ofInt, Int.cast_natCast]
    exact Nat.cast_ne_zero.mpr (mt List.length_eq_zero_iff.mp some)
  obtain ⟨total, summed, worth, kept, finer⟩ := exists_sum narrow
  have near : |quotientExponent total (ofInt numbers.length) context.precisionScale| ≤
      largestExponent := by
    have room : (largestExponent : Int) = 2 ^ 32 - 1 := by decide
    have upper := kept.upper
    have whole : (ofInt numbers.length).scale.toInt = 0 := Int64.toInt_zero
    rw [quotientExponent, toInt_precisionScale, whole, room, abs_le]
    omega
  have divided := divideAtScale_eq_ok .halfEven count (isWord_add_scale_ofInt _ _) near
  rw [worth, value_ofInt, Int.cast_natCast, toInt_precisionScale, zpow_natCast] at divided
  rw [Standard.average, if_neg (mt List.isEmpty_iff.mp some), summed]
  exact divided

/-! ### Answers -/

namespace Standard

variable {first second : Value}

/-- The functions of a whole list say the same about two values that hold the same numbers,
and the average is the exact mean, rounded to as many digits after the point as the precision
says. -/
theorem listFunctions_of_holdSameNumbers (same : first.HoldSameNumbers second)
    (narrow : ∀ number ∈ first.flatten, number.HasNarrowScale)
    (narrow' : ∀ number ∈ second.flatten, number.HasNarrowScale)
    (moderate : context.precision.toNat ≤ 10 ^ 6) (suffix : Option Decimal)
    (functions : FunctionResolver) :
    (∀ name ∈ wholeListFunctions,
      SameAnswer (listFunctions name suffix first functions context)
        (listFunctions name suffix second functions context)) ∧
      (first.flatten ≠ [] → ∃ mean multiple,
        listFunctions "A" suffix first functions context = .ok (some (.scalar mean)) ∧
          mean.value = (multiple : Int) / 10 ^ context.precision.toNat ∧
          RoundingMode.halfEven.Prescribes ((first.flatten.map value).sum / first.flatten.length *
            10 ^ context.precision.toNat) multiple) := by
  constructor
  · intro name whole
    rw [wholeListFunctions, List.mem_cons, List.mem_cons, List.mem_cons, List.mem_singleton] at whole
    rcases whole with rfl | rfl | rfl | rfl
    · refine SameOutcome.answer ?_
      by_cases some : first.flatten = []
      · have none : second.flatten = [] :=
          List.length_eq_zero_iff.mp ((length_of_perm same).symm.trans
            (List.length_eq_zero_iff.mpr some))
        rw [some, none]
        exact .fault _
      · have other : second.flatten ≠ [] := fun none => some
          (List.length_eq_zero_iff.mp ((length_of_perm same).trans
            (List.length_eq_zero_iff.mpr none)))
        rw [average_eq_ok some narrow moderate, average_eq_ok other narrow' moderate,
          same.sum_eq, length_of_perm same]
        exact .number rfl
    · obtain ⟨total, summed, worth, -, -⟩ := exists_sum narrow
      obtain ⟨total', summed', worth', -, -⟩ := exists_sum narrow'
      refine SameOutcome.answer ?_
      rw [summed, summed']
      exact .number (by rw [worth, worth', same.sum_eq])
    · exact (sameOutcome_gcdOfList same narrow narrow').answer
    · exact (sameOutcome_lcmOfList same narrow narrow').answer
  · intro some
    let exact := (first.flatten.map value).sum / first.flatten.length * 10 ^ context.precision.toNat
    refine ⟨⟨RoundingMode.halfEven.round exact, context.precisionScale⟩,
      RoundingMode.halfEven.round exact, ?_, ?_, RoundingMode.prescribes_round .halfEven exact⟩
    · rw [listFunctions, average_eq_ok some narrow moderate]
      rfl
    · rw [value, toInt_precisionScale, zpow_natCast]

/-- The numbers 1.5, -2 and 0.25, and these numbers in other forms, another order and another
nesting, have the divisor 0.25. -/
theorem listFunctions_of_holdSameNumbers_nested :
    let first := Value.list [.number ⟨15, 1⟩, .list [.number ⟨-2, 0⟩, .number ⟨25, 2⟩]]
    let second := Value.list [.list [.number ⟨250, 3⟩], .number ⟨150, 2⟩,
      .list [.list [], .number ⟨-20, 1⟩]]
    first.HoldSameNumbers second ∧ (∀ number ∈ first.flatten, number.HasNarrowScale) ∧
      (∀ number ∈ second.flatten, number.HasNarrowScale) ∧
      listFunctions "gcd" none first Standard.functions {} = .ok (some (.scalar ⟨25, 2⟩)) ∧
      SameAnswer (listFunctions "gcd" none first Standard.functions {})
        (listFunctions "gcd" none second Standard.functions {}) := by
  intro first second
  have numbers : first.flatten.map value = [3 / 2, -2, 1 / 4] := by
    change [((15 : Int) : ℚ) / 10 ^ (1 : Int), ((-2 : Int) : ℚ) / 10 ^ (0 : Int),
      ((25 : Int) : ℚ) / 10 ^ (2 : Int)] = _
    norm_num
  have numbers' : second.flatten.map value = [1 / 4, 3 / 2, -2] := by
    change [((250 : Int) : ℚ) / 10 ^ (3 : Int), ((150 : Int) : ℚ) / 10 ^ (2 : Int),
      ((-20 : Int) : ℚ) / 10 ^ (1 : Int)] = _
    norm_num
  have same : first.HoldSameNumbers second := by
    rw [Value.HoldSameNumbers, numbers, numbers']
    change ([3 / 2, -2] ++ [1 / 4] : List ℚ).Perm ([1 / 4] ++ [3 / 2, -2])
    exact List.perm_append_comm
  have narrow : ∀ number ∈ first.flatten, number.HasNarrowScale := by decide
  have narrow' : ∀ number ∈ second.flatten, number.HasNarrowScale := by decide
  have found : listFunctions "gcd" none first Standard.functions {} =
      .ok (some (.scalar ⟨25, 2⟩)) := by cbv
  exact ⟨same, narrow, narrow', found, (listFunctions_of_holdSameNumbers same narrow narrow'
    (by decide) none Standard.functions).1 "gcd" (by decide)⟩

end Standard
end DecimalCalculator
