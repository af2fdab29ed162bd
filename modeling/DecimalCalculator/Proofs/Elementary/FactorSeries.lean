/-
Sums of series whose terms are their predecessors times a factor.

The second and the third term may be as large as the one before, but from then on the factors
are at most one third.  A term that is rounded to within one unit stays within two units of the
exact one, and it has at most half of the units of its predecessor, so a sum ends by itself after as
many steps as its second term has bits.  Each step costs two units, and what is left out at the
end three more.
-/

import Mathlib
import DecimalCalculator.Proofs.Elementary.OddPowers

namespace DecimalCalculator

open Decimal

/-! ### Quotients of products at a scale -/

namespace Decimal

variable {left right term following : Decimal} {scale : Int64}

theorem IsWithin.exists_divideAtScale_mul {divisor : Int} (first : IsWithin scale left)
    (fractional : IsFractionalScale scale) (written : right.scale = scale) (nonzero : divisor ≠ 0) :
    ∃ quotient, (left * right).divideAtScale (ofInt divisor) scale .halfEven = .ok quotient ∧
      quotient.scale = scale ∧
      |left.value * right.value / divisor - quotient.value| ≤ lastUnit scale / 2 := by
  have word := first.isWord_add fractional (fractional.isWithin written)
  have sum : (left * right).scale.toInt = left.scale.toInt + scale.toInt := by
    rw [← written]
    exact toInt_add_of_isWord word
  have some : (ofInt divisor).value ≠ 0 := by
    rw [value_ofInt]
    exact Int.cast_ne_zero.mpr nonzero
  have near : |quotientExponent (left * right) (ofInt divisor) scale| ≤ largestExponent := by
    obtain ⟨positive, few⟩ := fractional
    obtain ⟨nonneg, within⟩ := first
    rw [quotientExponent, sum, abs_le]
    change -_ ≤ scale.toInt + 0 - _ ∧ scale.toInt + 0 - _ ≤ _
    omega
  have divided := divideAtScale_eq_ok .halfEven some (isWord_add_scale_ofInt scale divisor) near
  rw [value_mul word, value_ofInt] at divided
  exact ⟨_, divided, rfl, abs_sub_round_mul_le _ scale⟩

theorem natAbs_lt_two_pow (fractional : IsFractionalScale scale) (written : term.scale = scale)
    (small : |term.value| < 16) : term.unscaled.natAbs < 2 ^ (4 * scale.toInt.toNat + 4) := by
  have positive := fractional.positive
  obtain ⟨places, known⟩ := Int.eq_ofNat_of_zero_le (show 0 ≤ scale.toInt by omega)
  rw [abs_value_of_scale written, lastUnit, known, zpow_neg, zpow_natCast, ← div_eq_mul_inv,
    div_lt_iff₀ (by positivity)] at small
  have tens : term.unscaled.natAbs < 16 * 10 ^ places := by exact_mod_cast small
  rw [known, Int.toNat_natCast, pow_add, pow_mul, mul_comm]
  exact tens.trans_le (Nat.mul_le_mul_left 16 (Nat.pow_le_pow_left (by decide) places))

theorem two_mul_natAbs_le (written : term.scale = scale) (written' : following.scale = scale)
    (near : |following.value| ≤ 1 / 3 * |term.value| + lastUnit scale / 2) :
    2 * following.unscaled.natAbs ≤ term.unscaled.natAbs := by
  have positive := lastUnit_pos scale
  rw [abs_value_of_scale written, abs_value_of_scale written'] at near
  have units : (following.unscaled.natAbs : ℚ) ≤ 1 / 3 * term.unscaled.natAbs + 1 / 2 := by
    refine le_of_mul_le_mul_right ?_ positive
    linarith
  have whole : 6 * following.unscaled.natAbs ≤ 2 * term.unscaled.natAbs + 3 := by
    exact_mod_cast (by linarith :
      (6 : ℚ) * following.unscaled.natAbs ≤ 2 * term.unscaled.natAbs + 3)
  omega

end Decimal

namespace Series

/-! ### Exact terms and sums -/

variable {first : ℚ} {factor : Nat → ℚ} {index count : Nat}

/-- The exact term of an index, the first one times the factors in front of it. -/
def factorTerm (first : ℚ) (factor : Nat → ℚ) (index : Nat) : ℚ :=
  first * ∏ earlier ∈ Finset.range index, factor earlier

def factorSum (first : ℚ) (factor : Nat → ℚ) (count : Nat) : ℚ :=
  ∑ index ∈ Finset.range count, factorTerm first factor index

theorem factorTerm_zero (first : ℚ) (factor : Nat → ℚ) : factorTerm first factor 0 = first := by
  rw [factorTerm, Finset.prod_range_zero, mul_one]

theorem factorTerm_succ (first : ℚ) (factor : Nat → ℚ) (index : Nat) :
    factorTerm first factor (index + 1) = factorTerm first factor index * factor index := by
  rw [factorTerm, factorTerm, Finset.prod_range_succ, mul_assoc]

theorem factorSum_one (first : ℚ) (factor : Nat → ℚ) : factorSum first factor 1 = first := by
  rw [factorSum, Finset.sum_range_one, factorTerm_zero]

theorem factorSum_succ (first : ℚ) (factor : Nat → ℚ) (count : Nat) :
    factorSum first factor (count + 1) =
      factorSum first factor count + factorTerm first factor count :=
  Finset.sum_range_succ _ _

/-- The third term is not larger than the second, and later ones are at most a third of the
one before. -/
structure Settles (factor : Nat → ℚ) : Prop where
  second : |factor 1| ≤ 1
  later : ∀ index, 2 ≤ index → |factor index| ≤ 1 / 3

theorem Settles.abs_factorSum_sub_le (settles : Settles factor) (first : ℚ) (late : 2 ≤ index)
    (later : index ≤ count) :
    |factorSum first factor count - factorSum first factor index| +
        3 / 2 * |factorTerm first factor count| ≤ 3 / 2 * |factorTerm first factor index| := by
  induction count, later using Nat.le_induction with
  | base => rw [sub_self, abs_zero, zero_add]
  | succ count after ih =>
      have third := settles.later count (by omega)
      have next : |factorTerm first factor (count + 1)| ≤ |factorTerm first factor count| / 3 := by
        rw [factorTerm_succ, abs_mul]
        nlinarith [abs_nonneg (factorTerm first factor count)]
      have triangle := abs_add_le (factorSum first factor count - factorSum first factor index)
        (factorTerm first factor count)
      rw [factorSum_succ, add_sub_right_comm]
      linarith

/-! ### Counted steps -/

variable {scale : Int64} {start term following sum : Decimal} {units : ℚ}
  {next : Nat → Decimal → Outcome Decimal} {steps : Nat}

/-- Adds to a sum the terms that follow a term, if it takes at most so many steps.  Whether the
terms shrink is not asked. -/
def sumAfterWithin (next : Nat → Decimal → Outcome Decimal) :
    (steps index : Nat) → (term sum : Decimal) → Option (Outcome Decimal)
  | 0, _, _, _ => none
  | steps + 1, index, term, sum =>
      match next index term with
      | .error fault => some (.error fault)
      | .ok following =>
          if following.isZero then
            some (.ok sum)
          else
            sumAfterWithin next steps (index + 1) following (sum + following)

/-- The sum of a series from its first term on, if it takes at most so many steps. -/
def sumFromWithin (next : Nat → Decimal → Outcome Decimal) (steps : Nat) (first : Decimal) :
    Option (Outcome Decimal) :=
  sumAfterWithin next steps 0 first first

/-- A sum that goes on from a term ends with a result, and so many steps are enough for it. -/
structure SumsAfter (next : Nat → Decimal → Outcome Decimal) (steps index : Nat)
    (term sum result : Decimal) : Prop where
  reached : sumAfter next index term sum = .ok result
  counted : ∀ allowed, steps ≤ allowed →
    sumAfterWithin next allowed index term sum = some (.ok result)

/-- The sum of a series ends with a result, and so many steps are enough for it. -/
structure SumsFrom (next : Nat → Decimal → Outcome Decimal) (steps : Nat)
    (first result : Decimal) : Prop where
  reached : sumFrom next first = .ok result
  counted : ∀ allowed, steps ≤ allowed → sumFromWithin next allowed first = some (.ok result)

theorem sumAfterWithin_of_isZero {allowed : Nat} (reached : next index term = .ok following)
    (gone : following.isZero = true) (enough : 1 ≤ allowed) :
    sumAfterWithin next allowed index term sum = some (.ok sum) := by
  obtain ⟨further, rfl⟩ := Nat.exists_eq_add_of_le' enough
  simp only [sumAfterWithin, reached, gone, ↓reduceIte]

theorem sumAfterWithin_of_next {allowed : Nat} (reached : next index term = .ok following)
    (counts : following.isZero = false) :
    sumAfterWithin next (allowed + 1) index term sum =
      sumAfterWithin next allowed (index + 1) following (sum + following) := by
  simp only [sumAfterWithin, reached, counts, Bool.false_eq_true, ↓reduceIte]

theorem SumsAfter.of_isZero (reached : next index term = .ok following)
    (gone : following.isZero = true) : SumsAfter next (steps + 1) index term sum sum := by
  constructor
  · rw [sumAfter, reached]
    change (if following.isZero = true then _ else _) = _
    rw [gone]
    rfl
  · intro allowed enough
    exact sumAfterWithin_of_isZero reached gone (by omega)

theorem SumsAfter.of_next {result : Decimal} (reached : next index term = .ok following)
    (counts : following.isZero = false)
    (shrinks : following.unscaled.natAbs < term.unscaled.natAbs)
    (later : SumsAfter next steps (index + 1) following (sum + following) result) :
    SumsAfter next (steps + 1) index term sum result := by
  constructor
  · rw [sumAfter, reached]
    change (if following.isZero = true then _ else _) = _
    simp only [counts, Bool.false_eq_true, ↓reduceIte, shrinks, ↓reduceDIte]
    exact later.reached
  · intro allowed enough
    obtain ⟨further, rfl⟩ := Nat.exists_eq_add_of_le' (show 1 ≤ allowed by omega)
    rw [sumAfterWithin_of_next reached counts]
    exact later.counted further (by omega)

theorem SumsFrom.of_isZero {first : Decimal} (reached : next 0 first = .ok following)
    (gone : following.isZero = true) : SumsFrom next (steps + 1) first first := by
  constructor
  · rw [sumFrom, reached]
    change (if following.isZero = true then _ else _) = _
    rw [gone]
    rfl
  · intro allowed enough
    exact sumAfterWithin_of_isZero reached gone (by omega)

theorem SumsFrom.of_next {first result : Decimal} (reached : next 0 first = .ok following)
    (counts : following.isZero = false)
    (later : SumsAfter next steps 1 following (first + following) result) :
    SumsFrom next (steps + 1) first result := by
  constructor
  · rw [sumFrom, reached]
    change (if following.isZero = true then _ else _) = _
    simp only [counts, Bool.false_eq_true, ↓reduceIte]
    exact later.reached
  · intro allowed enough
    obtain ⟨further, rfl⟩ := Nat.exists_eq_add_of_le' (show 1 ≤ allowed by omega)
    rw [sumFromWithin, sumAfterWithin_of_next reached counts]
    exact later.counted further (by omega)

/-! ### One step -/

/-- A computed term: the first one is exact, the second one off by one unit, later ones by two. -/
structure IsTerm (scale : Int64) (first : ℚ) (factor : Nat → ℚ) (index : Nat) (term : Decimal) :
    Prop where
  written : term.scale = scale
  near : |factorTerm first factor index - term.value| ≤ (min index 2 : Nat) * lastUnit scale

structure IsStep (scale : Int64) (factor : ℚ) (term following : Decimal) : Prop where
  written : following.scale = scale
  near : |term.value * factor - following.value| ≤ lastUnit scale

/-- How a term shrinks: at once if it counts, and to a half from the third term on. -/
structure Shrinks (index : Nat) (term following : Decimal) : Prop where
  counts : following.unscaled.natAbs = 0 ∨ following.unscaled.natAbs < term.unscaled.natAbs
  halves : 2 ≤ index → 2 * following.unscaled.natAbs ≤ term.unscaled.natAbs

theorem Shrinks.of_third {computed : ℚ} (written : term.scale = scale)
    (written' : following.scale = scale) (third : |computed| ≤ 1 / 3)
    (near : |term.value * computed - following.value| ≤ lastUnit scale / 2) :
    Shrinks index term following := by
  have triangle := abs_sub_abs_le_abs_sub following.value (term.value * computed)
  rw [abs_sub_comm, abs_mul] at triangle
  have halves := two_mul_natAbs_le written written' (by nlinarith [abs_nonneg term.value])
  exact ⟨by omega, fun _ => halves⟩

theorem Shrinks.of_lt (written : term.scale = scale) (written' : following.scale = scale)
    (less : |following.value| < |term.value|) : Shrinks 1 term following := by
  rw [abs_value_of_scale written, abs_value_of_scale written'] at less
  have fewer : following.unscaled.natAbs < term.unscaled.natAbs := by
    exact_mod_cast lt_of_mul_lt_mul_right less (lastUnit_pos scale).le
  exact ⟨Or.inr fewer, fun late => absurd late (by decide)⟩

structure Computes (scale : Int64) (start : Decimal) (factor : Nat → ℚ)
    (next : Nat → Decimal → Outcome Decimal) : Prop where
  second : ∃ following, next 0 start = .ok following ∧ IsStep scale (factor 0) start following
  later : ∀ index term, 1 ≤ index → IsTerm scale start.value factor index term →
    ∃ following, next index term = .ok following ∧ IsStep scale (factor index) term following ∧
      Shrinks index term following

theorem IsTerm.of_second (stepped : IsStep scale (factor 0) start following) :
    IsTerm scale start.value factor 1 following := by
  refine ⟨stepped.written, ?_⟩
  rw [factorTerm_succ, factorTerm_zero]
  norm_num
  exact stepped.near

theorem IsTerm.succ (settles : Settles factor) (late : 1 ≤ index)
    (isTerm : IsTerm scale first factor index term)
    (stepped : IsStep scale (factor index) term following) :
    IsTerm scale first factor (index + 1) following := by
  refine ⟨stepped.written, ?_⟩
  have positive := lastUnit_pos scale
  have near := isTerm.near
  have split : factorTerm first factor (index + 1) - following.value =
      (factorTerm first factor index - term.value) * factor index +
        (term.value * factor index - following.value) := by
    rw [factorTerm_succ]
    ring
  have triangle := abs_add_le ((factorTerm first factor index - term.value) * factor index)
    (term.value * factor index - following.value)
  have fresh := stepped.near
  rw [abs_mul] at triangle
  rw [split, min_eq_right (by omega), Nat.cast_ofNat]
  refine triangle.trans ?_
  have error := abs_nonneg (factorTerm first factor index - term.value)
  rcases late.eq_or_lt with rfl | beyond
  · have most := settles.second
    norm_num at near
    nlinarith
  · have most := settles.later index beyond
    rw [min_eq_right (by omega), Nat.cast_ofNat] at near
    nlinarith [abs_nonneg (factor index)]

theorem IsSum.add {exact exact' units' : ℚ} (summed : IsSum scale exact units sum)
    (written : term.scale = scale) (near : |exact' - term.value| ≤ units' * lastUnit scale) :
    IsSum scale (exact + exact') (units + units') (sum + term) := by
  refine ⟨commonScale_of_scale summed.written written, ?_⟩
  rw [value_add (aligned_of_scale summed.written written), add_sub_add_comm, add_mul]
  exact (abs_add_le _ _).trans (add_le_add summed.near near)

theorem Settles.isSum_of_ended (settles : Settles factor) (late : 2 ≤ index)
    (summed : IsSum scale (factorSum first factor index) units sum)
    (rest : |factorTerm first factor index| ≤ 2 * lastUnit scale) (later : index ≤ count) :
    IsSum scale (factorSum first factor count) (units + 3) sum := by
  refine ⟨summed.written, ?_⟩
  have tail := settles.abs_factorSum_sub_le first late later
  have close := summed.near
  have triangle := abs_sub_le (factorSum first factor count) (factorSum first factor index) sum.value
  have nonneg := abs_nonneg (factorTerm first factor count)
  linarith

section Step

variable (settles : Settles factor) (computes : Computes scale start factor next)
include settles computes

/-- A step either ends the sum with a term that does not count, or adds a term that is at most
two units off. -/
theorem sumAfter_step (late : 1 ≤ index) (isTerm : IsTerm scale start.value factor index term)
    (summed : IsSum scale (factorSum start.value factor (index + 1)) units sum) :
    ((∀ steps, SumsAfter next (steps + 1) index term sum sum) ∧
        |factorTerm start.value factor (index + 1)| ≤ 2 * lastUnit scale) ∨
      ∃ following extended,
        (∀ steps result, SumsAfter next steps (index + 1) following extended result →
          SumsAfter next (steps + 1) index term sum result) ∧
        IsTerm scale start.value factor (index + 1) following ∧
        IsSum scale (factorSum start.value factor (index + 2)) (units + 2) extended ∧
        0 < following.unscaled.natAbs ∧
        following.unscaled.natAbs < term.unscaled.natAbs ∧
        (2 ≤ index → 2 * following.unscaled.natAbs ≤ term.unscaled.natAbs) := by
  obtain ⟨following, reached, stepped, shrinks⟩ := computes.later index term late isTerm
  have isNext := isTerm.succ settles late stepped
  have near := isNext.near
  rw [min_eq_right (by omega), Nat.cast_ofNat] at near
  cases gone : following.isZero with
  | true =>
      refine Or.inl ⟨fun steps => .of_isZero reached gone, ?_⟩
      rwa [isZero_iff.mp gone, sub_zero] at near
  | false =>
      have some : following.unscaled.natAbs ≠ 0 :=
        Int.natAbs_ne_zero.mpr (mt value_eq_zero_iff.mpr (isZero_eq_false_iff.mp gone))
      have smaller := shrinks.counts.resolve_left some
      have extended := summed.add isNext.written near
      rw [← factorSum_succ] at extended
      exact Or.inr ⟨following, _, fun steps result => .of_next reached gone smaller, isNext,
        extended, Nat.pos_of_ne_zero some, smaller, shrinks.halves⟩

/-! ### Runs -/

theorem exists_sumsAfter {bits : Nat} (late : 2 ≤ index)
    (isTerm : IsTerm scale start.value factor index term)
    (summed : IsSum scale (factorSum start.value factor (index + 1)) units sum)
    (few : term.unscaled.natAbs < 2 ^ bits) :
    ∃ result, SumsAfter next (bits + 1) index term sum result ∧
      ∀ count, index + 1 + bits ≤ count →
        IsSum scale (factorSum start.value factor count) (units + 2 * bits + 3) result := by
  induction bits generalizing index term sum units with
  | zero =>
      rcases sumAfter_step settles computes (by omega) isTerm summed with
        ⟨ended, rest⟩ | ⟨following, extended, -, -, -, some, smaller, -⟩
      · refine ⟨sum, ended 0, fun count later => ?_⟩
        rw [Nat.cast_zero, mul_zero, add_zero]
        exact settles.isSum_of_ended (by omega) summed rest (by omega)
      · rw [pow_zero] at few
        omega
  | succ bits ih =>
      rcases sumAfter_step settles computes (by omega) isTerm summed with
        ⟨ended, rest⟩ | ⟨following, extended, stepped, isNext, longer, some, -, halves⟩
      · refine ⟨sum, ended _, fun count later => ?_⟩
        have done := settles.isSum_of_ended (by omega) summed rest (show index + 1 ≤ count by omega)
        refine ⟨done.written, done.near.trans ?_⟩
        have positive := (lastUnit_pos scale).le
        gcongr
        have more : (0 : ℚ) ≤ 2 * (bits + 1 : Nat) := by positivity
        linarith
      · have half := halves late
        obtain ⟨result, later, near⟩ :=
          ih (by omega) isNext longer (by rw [pow_succ] at few; omega)
        refine ⟨result, stepped _ _ later, fun count later => ?_⟩
        have final := near count (by omega)
        have same : units + 2 + 2 * bits + 3 = units + 2 * (bits + 1 : Nat) + 3 := by
          push_cast
          ring
        rwa [same] at final

end Step

structure SumsTo (scale : Int64) (first : ℚ) (factor : Nat → ℚ) (result : Decimal) : Prop where
  isWithin : IsWithin scale result
  near : ∀ count : Nat, 4 * scale.toInt + 7 ≤ count →
    |factorSum first factor count - result.value| ≤ (8 * scale.toInt + 14) * lastUnit scale

theorem SumsTo.abs_limit_sub_le {limit : ℝ} {result : Decimal}
    (sums : SumsTo scale first factor result)
    (tends : Filter.Tendsto (fun count => (factorSum first factor count : ℝ)) Filter.atTop
      (nhds limit)) :
    |limit - result.value| ≤ (8 * scale.toInt + 14) * lastUnit scale := by
  have bound := Series.abs_limit_sub_le (4 * scale.toInt + 7).toNat tends
    fun count later => sums.near count (by omega)
  push_cast at bound
  exact bound

section Sums

variable (fractional : IsFractionalScale scale)
include fractional

theorem SumsTo.of_isSum {result : Decimal} (few : units ≤ 8 * scale.toInt + 14)
    (near : ∀ count : Nat, 4 * scale.toInt + 7 ≤ count →
      IsSum scale (factorSum first factor count) units result) :
    SumsTo scale first factor result := by
  have written := (near (4 * scale.toInt + 7).toNat (by omega)).written
  refine ⟨fractional.isWithin written, fun count later => (near count later).near.trans ?_⟩
  exact mul_le_mul_of_nonneg_right few (lastUnit_pos scale).le

theorem SumsTo.of_first (isWithin : IsWithin scale start) (settles : Settles factor)
    (near : |factorTerm start.value factor 1| ≤ lastUnit scale) :
    SumsTo scale start.value factor start := by
  refine ⟨isWithin, fun count later => ?_⟩
  have digits := fractional.positive
  have positive := lastUnit_pos scale
  have third : |factorTerm start.value factor 2| ≤ lastUnit scale := by
    rw [factorTerm_succ, abs_mul]
    nlinarith [settles.second, abs_nonneg (factorTerm start.value factor 1)]
  have tail := settles.abs_factorSum_sub_le start.value le_rfl (show 2 ≤ count by omega)
  have triangle := abs_sub_le (factorSum start.value factor count)
    (factorSum start.value factor 2) start.value
  have both : factorSum start.value factor 2 - start.value = factorTerm start.value factor 1 := by
    rw [factorSum_succ, factorSum_one, add_sub_cancel_left]
  have nonneg := abs_nonneg (factorTerm start.value factor count)
  have size : (1 : ℚ) ≤ scale.toInt := by exact_mod_cast digits
  rw [both] at triangle
  nlinarith

theorem isSum_second {second : Decimal} (isWithin : IsWithin scale start)
    (isTerm : IsTerm scale start.value factor 1 second) :
    IsSum scale (factorSum start.value factor 2) 1 (start + second) := by
  have maximum := toInt_commonScale start second
  rw [isTerm.written, max_eq_right isWithin.within] at maximum
  have aligned : Aligned start second := by
    have room : largestExponent < 2 ^ 61 := by decide
    have written := fractional.written
    have nonneg := isWithin.nonneg
    exact ⟨Or.inr (by omega), Or.inr (by rw [maximum, isTerm.written]; omega)⟩
  have near := isTerm.near
  refine ⟨Int64.toInt_inj.mp maximum, ?_⟩
  rw [factorSum_succ, factorSum_one, value_add aligned, add_sub_add_left_eq_sub]
  norm_num at near ⊢
  exact near

/-- The sum of a series whose second term has at most one digit in front of the point takes at
most four steps for every digit behind it, and seven more. -/
theorem exists_sumFrom (isWithin : IsWithin scale start)
    (settles : Settles factor) (computes : Computes scale start factor next)
    (small : |factorTerm start.value factor 1| ≤ 9) :
    ∃ result, SumsFrom next (4 * scale.toInt.toNat + 7) start result ∧
      SumsTo scale start.value factor result := by
  have unit := fractional.lastUnit_le
  have digits := fractional.positive
  obtain ⟨second, reached, stepped⟩ := computes.second
  have isTerm := IsTerm.of_second stepped
  have near := isTerm.near
  norm_num at near
  cases gone : second.isZero with
  | true =>
      rw [isZero_iff.mp gone, sub_zero] at near
      exact ⟨start, .of_isZero reached gone, .of_first fractional isWithin settles near⟩
  | false =>
      have summed := isSum_second fractional isWithin isTerm
      have bits : second.unscaled.natAbs < 2 ^ (4 * scale.toInt.toNat + 4) := by
        refine natAbs_lt_two_pow fractional stepped.written ?_
        have triangle := abs_sub_abs_le_abs_sub second.value (factorTerm start.value factor 1)
        rw [abs_sub_comm] at triangle
        linarith
      have size : (1 : ℚ) ≤ scale.toInt := by exact_mod_cast digits
      rcases sumAfter_step settles computes le_rfl isTerm summed with
        ⟨ended, rest⟩ | ⟨third, extended, continued, isNext, longer, -, smaller, -⟩
      · have few : (1 + 3 : ℚ) ≤ 8 * scale.toInt + 14 := by linarith
        refine ⟨start + second, .of_next reached gone (ended _),
          .of_isSum fractional few fun count later => ?_⟩
        exact settles.isSum_of_ended le_rfl summed rest (by omega)
      · obtain ⟨result, later, near'⟩ := exists_sumsAfter settles computes le_rfl isNext longer
          (smaller.trans bits)
        refine ⟨result, .of_next reached gone (continued _ _ later),
          .of_isSum fractional ?_ fun count later => near' count (by omega)⟩
        have whole : ((scale.toInt.toNat : Int) : ℚ) = scale.toInt := by
          rw [Int.toNat_of_nonneg (by omega)]
        push_cast at whole ⊢
        linarith

end Sums

end Series
end DecimalCalculator
