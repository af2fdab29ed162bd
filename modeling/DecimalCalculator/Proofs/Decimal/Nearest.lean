/-
Rounding half to even as rounding to the nearest integer.

The rounded integer is at most one half away from the value, and is even if it is exactly
one half away; no other integer is.  A value that is rounded to a finer place first goes
to another integer exactly if it lies just beyond the point halfway from an even integer,
where the finer place does not tell it from that point.
-/

import Mathlib
import DecimalCalculator.Proofs.Decimal.Shortest

namespace DecimalCalculator

namespace RoundingMode

variable {value : ℚ} {integer : Int}

/-! ### The nearest integer -/

theorem abs_sub_floor (value : ℚ) : |value - ⌊value⌋| = Int.fract value := by
  rw [← Int.fract, Int.abs_fract]

theorem abs_sub_ceil (fractional : Int.fract value ≠ 0) : |value - ⌈value⌉| = 1 - Int.fract value := by
  rw [abs_sub_comm, Int.ceil_sub_self_eq fractional, abs_of_nonneg]
  linarith [Int.fract_lt_one value]

theorem ceil_eq_of_half (half : Int.fract value = 1 / 2) : ⌈value⌉ = ⌊value⌋ + 1 := by
  have fractional : Int.fract value ≠ 0 := by
    rw [half]
    norm_num
  have distance := Int.ceil_sub_self_eq fractional
  rw [Int.fract] at distance
  exact_mod_cast (by linarith : (⌈value⌉ : ℚ) = ⌊value⌋ + 1)

theorem abs_sub_of_half {middle : Int} (half : Int.fract value = 1 / 2)
    (neighbour : middle = ⌊value⌋ ∨ middle = ⌈value⌉) : |value - middle| = 1 / 2 := by
  have fractional : Int.fract value ≠ 0 := by
    rw [half]
    norm_num
  rcases neighbour with rfl | rfl
  · rw [abs_sub_floor, half]
  · rw [abs_sub_ceil fractional, half]
    norm_num

/-- The nearest integer is less than one half away, or it is the one that is given for a
value halfway between two integers. -/
theorem abs_sub_nearestOr_lt (middle : Int) (value : ℚ) :
    |value - nearestOr middle value| < 1 / 2 ∨
      Int.fract value = 1 / 2 ∧ nearestOr middle value = middle := by
  rw [nearestOr]
  rcases lt_trichotomy (Int.fract value) (1 / 2) with below | half | above
  · rw [(cmp_eq_lt_iff _ _).mpr below]
    exact Or.inl ((abs_sub_floor value).trans_lt below)
  · rw [(cmp_eq_eq_iff _ _).mpr half]
    exact Or.inr ⟨half, rfl⟩
  · rw [(cmp_eq_gt_iff _ _).mpr above]
    refine Or.inl ((abs_sub_ceil (by linarith)).trans_lt ?_)
    linarith

/-- The integer is at most one half away, and even if it is one half away. -/
structure IsNearestEven (value : ℚ) (integer : Int) : Prop where
  near : |value - integer| ≤ 1 / 2
  even : |value - integer| = 1 / 2 → Even integer

theorem isNearestEven_round (value : ℚ) : IsNearestEven value (halfEven.round value) := by
  rw [round]
  rcases abs_sub_nearestOr_lt (if ⌊value⌋ % 2 = 0 then ⌊value⌋ else ⌈value⌉) value with
    near | ⟨half, middle⟩
  · exact ⟨near.le, fun tie => absurd tie near.ne⟩
  · rw [middle]
    split
    · rename_i even
      exact ⟨(abs_sub_of_half half (Or.inl rfl)).le, fun _ => Int.even_iff.mpr even⟩
    · rename_i odd
      refine ⟨(abs_sub_of_half half (Or.inr rfl)).le, fun _ => ?_⟩
      rwa [ceil_eq_of_half half, Int.even_add_one, Int.even_iff]

theorem IsNearestEven.eq {other : Int} (first : IsNearestEven value integer)
    (second : IsNearestEven value other) : integer = other := by
  by_contra different
  wlog below : integer < other generalizing integer other
  · exact this second first (Ne.symm different) (by omega)
  have apart : (integer : ℚ) + 1 ≤ other := by exact_mod_cast below
  obtain ⟨-, upper⟩ := abs_le.mp first.near
  obtain ⟨lower, -⟩ := abs_le.mp second.near
  have left : |value - integer| = 1 / 2 := by
    rw [abs_of_nonneg] <;> linarith
  have right : |value - other| = 1 / 2 := by
    rw [abs_of_nonpos] <;> linarith
  have next : other = integer + 1 := by
    have close : (other : ℚ) ≤ integer + 1 := by linarith
    have exact_close : other ≤ integer + 1 := by exact_mod_cast close
    omega
  have even := second.even right
  rw [next, Int.even_add_one] at even
  exact even (first.even left)

theorem halfEven_round_eq_iff : halfEven.round value = integer ↔ IsNearestEven value integer := by
  constructor
  · rintro rfl
    exact isNearestEven_round value
  · exact (isNearestEven_round value).eq

theorem abs_sub_round_le (value : ℚ) : |value - halfEven.round value| ≤ 1 / 2 :=
  (isNearestEven_round value).near

theorem le_abs_round {limit : Nat} (atLeast : limit ≤ |value|) :
    (limit : Int) ≤ |halfEven.round value| := by
  have near := abs_sub_round_le value
  have triangle := abs_sub_abs_le_abs_sub value (halfEven.round value)
  have more : (limit : ℚ) - 1 < |(halfEven.round value : ℚ)| := by linarith
  have integer : (limit : Int) - 1 < |halfEven.round value| := by exact_mod_cast more
  omega

theorem abs_round_le {limit : Nat} (atMost : |value| ≤ limit) :
    |halfEven.round value| ≤ (limit : Int) := by
  have near := abs_sub_round_le value
  have triangle := abs_sub_abs_le_abs_sub (halfEven.round value : ℚ) value
  rw [abs_sub_comm] at triangle
  have less : |(halfEven.round value : ℚ)| < limit + 1 := by linarith
  have integer : |halfEven.round value| < (limit : Int) + 1 := by exact_mod_cast less
  omega

theorem halfEven_round_eq_zero_iff : halfEven.round value = 0 ↔ |value| ≤ 1 / 2 := by
  rw [halfEven_round_eq_iff]
  constructor
  · intro nearest
    simpa using nearest.near
  · intro small
    exact ⟨by simpa using small, fun _ => Even.zero⟩

/-! ### Rounding to a finer place first -/

/-- The value is more than one half away from an even integer, but not by more than half
of a place that is finer by the given factor. -/
def IsJustBeyondHalf (factor : Nat) (value : ℚ) : Prop :=
  ∃ even : Int, Even even ∧ 1 / 2 < |value - even| ∧ |value - even| ≤ 1 / 2 + 1 / (2 * factor)

theorem exists_side (distance : ℚ) :
    ∃ side : Int, (side = 1 ∨ side = -1) ∧ distance = side * |distance| := by
  rcases abs_choice distance with positive | negative
  · exact ⟨1, Or.inl rfl, by rw [positive]; push_cast; ring⟩
  · exact ⟨-1, Or.inr rfl, by rw [negative]; push_cast; ring⟩

theorem abs_side_mul {side : Int} (sides : side = 1 ∨ side = -1) (distance : ℚ) :
    |side * distance| = |distance| := by
  rcases sides with rfl | rfl
  · rw [Int.cast_one, one_mul]
  · rw [Int.cast_neg, Int.cast_one, neg_one_mul, abs_neg]

variable {quarter : Nat}

theorem exists_round_finer_eq (positive : 0 < quarter)
    (beyond : IsJustBeyondHalf (4 * quarter) value) :
    ∃ even side : Int, Even even ∧ (side = 1 ∨ side = -1) ∧ 1 / 2 < |value - even| ∧
      halfEven.round (value * (4 * quarter : Nat)) = (2 * even + side) * (2 * quarter) := by
  obtain ⟨even, isEven, more, less⟩ := beyond
  have size : (0 : ℚ) < quarter := Nat.cast_pos.mpr positive
  obtain ⟨side, sides, exact⟩ := exists_side (value - even)
  refine ⟨even, side, isEven, sides, more, halfEven_round_eq_iff.mpr ⟨?_, fun _ => ?_⟩⟩
  · have apart : value * (4 * quarter : Nat) - ((2 * even + side) * (2 * quarter) : Int) =
        side * ((|value - even| - 1 / 2) * (4 * quarter)) := by
      push_cast
      linear_combination (4 * quarter : ℚ) * exact
    have limit : (|value - even| - 1 / 2) * (4 * quarter) ≤ 1 / 2 := by
      have scaled := mul_le_mul_of_nonneg_right less (by positivity : (0 : ℚ) ≤ 4 * quarter)
      have place : 1 / (2 * (4 * quarter : ℚ)) * (4 * quarter) = 1 / 2 := by
        field_simp
      push_cast at scaled
      linarith
    rw [apart, abs_side_mul sides, abs_of_nonneg]
    · exact limit
    · exact mul_nonneg (by linarith) (by positivity)
  · exact (even_two.mul_right _).mul_left _

theorem abs_round_finer_sub_le (positive : 0 < quarter) (nearest : IsNearestEven value integer) :
    |(halfEven.round (value * (4 * quarter : Nat)) : ℚ) / (4 * quarter : Nat) - integer| ≤ 1 / 2 := by
  have size : (0 : ℚ) < quarter := Nat.cast_pos.mpr positive
  have finer := abs_sub_round_le (value * (4 * quarter : Nat))
  generalize halfEven.round (value * (4 * quarter : Nat)) = rounded at finer
  have close : |rounded - integer * (4 * quarter : Nat)| ≤ 2 * quarter := by
    obtain ⟨lower, upper⟩ := abs_le.mp nearest.near
    obtain ⟨below, above⟩ := abs_le.mp finer
    push_cast at below above
    have least : (-(2 * quarter) - 1 : ℚ) < rounded - integer * (4 * quarter) := by nlinarith
    have most : rounded - integer * (4 * quarter) < (2 * quarter + 1 : ℚ) := by nlinarith
    have least' : (-(2 * quarter) - 1 : Int) < rounded - integer * (4 * quarter) := by
      exact_mod_cast least
    have most' : rounded - integer * (4 * quarter) < (2 * quarter + 1 : Int) := by
      exact_mod_cast most
    rw [abs_le]
    push_cast
    constructor
    · omega
    · omega
  have cast : |(rounded : ℚ) - integer * (4 * quarter : Nat)| ≤ 2 * quarter := by
    exact_mod_cast close
  have factor : (0 : ℚ) < (4 * quarter : Nat) := by
    push_cast
    positivity
  rw [div_sub' factor.ne', abs_div, abs_of_pos factor, div_le_iff₀ factor, mul_comm _ (integer : ℚ)]
  push_cast at cast ⊢
  linarith

/-- A value that is closest to an odd integer lies just beyond a halfway point if the
nearest finer place is halfway from this integer. -/
theorem isJustBeyondHalf_of_halfway {factor : Nat} {halfway : ℚ} (odd : ¬Even integer)
    (strict : |value - integer| < 1 / 2) (tie : |halfway - integer| = 1 / 2)
    (finer : |value - halfway| ≤ 1 / (2 * factor)) : IsJustBeyondHalf factor value := by
  obtain ⟨side, sides, exact⟩ := exists_side (halfway - integer)
  rw [tie] at exact
  have square : (side * side : ℚ) = 1 := by
    rcases sides with rfl | rfl
    · norm_num
    · norm_num
  have rest : value - integer = side * (side * (value - halfway) + 1 / 2) := by
    linear_combination exact - (value - halfway) * square
  have next : value - (integer + side : Int) = side * (side * (value - halfway) - 1 / 2) := by
    push_cast
    linear_combination rest
  rw [rest, abs_side_mul sides] at strict
  rw [← abs_side_mul sides] at finer
  obtain ⟨-, before⟩ := abs_lt.mp strict
  obtain ⟨least, -⟩ := abs_le.mp finer
  have distance : |value - (integer + side : Int)| = 1 / 2 - side * (value - halfway) := by
    rw [next, abs_side_mul sides, abs_of_nonpos]
    · ring
    · linarith
  refine ⟨integer + side, ?_, ?_, ?_⟩
  · rcases sides with rfl | rfl
    · exact Int.even_add_one.mpr odd
    · exact Int.even_sub_one.mpr odd
  · rw [distance]
    linarith
  · rw [distance]
    linarith

/-- A value that is first rounded to a finer place goes to another integer exactly if it
lies just beyond a halfway point. -/
theorem round_finer_eq_iff (positive : 0 < quarter) (value : ℚ) :
    halfEven.round (halfEven.round (value * (4 * quarter : Nat)) / (4 * quarter : Nat)) =
      halfEven.round value ↔ ¬IsJustBeyondHalf (4 * quarter) value := by
  have size : (0 : ℚ) < quarter := Nat.cast_pos.mpr positive
  constructor
  · intro same beyond
    obtain ⟨even, side, isEven, sides, more, halfway⟩ := exists_round_finer_eq positive beyond
    have first : halfEven.round
        (halfEven.round (value * (4 * quarter : Nat)) / (4 * quarter : Nat)) = even := by
      have apart : ((halfEven.round (value * (4 * quarter : Nat)) : Int) : ℚ) / (4 * quarter : Nat) -
          even = side * (1 / 2) := by
        rw [halfway]
        push_cast
        field_simp
        ring
      refine halfEven_round_eq_iff.mpr ⟨?_, fun _ => isEven⟩
      rw [apart, abs_side_mul sides]
      norm_num
    have second := (isNearestEven_round value).near
    rw [← same, first] at second
    exact absurd more (not_lt.mpr second)
  · intro apart
    have nearest := isNearestEven_round value
    have close := abs_round_finer_sub_le positive nearest
    have finer := abs_sub_round_le (value * (4 * quarter : Nat))
    generalize halfEven.round value = integer at nearest close ⊢
    refine halfEven_round_eq_iff.mpr ⟨close, fun tie => ?_⟩
    by_contra odd
    have strict : |value - integer| < 1 / 2 := lt_of_le_of_ne nearest.near (mt nearest.even odd)
    refine apart (isJustBeyondHalf_of_halfway odd strict tie ?_)
    have factor : (0 : ℚ) < (4 * quarter : Nat) := by
      push_cast
      positivity
    rw [← mul_le_mul_iff_of_pos_right factor, ← abs_of_pos factor, ← abs_mul, abs_of_pos factor,
      sub_mul, div_mul_cancel₀ _ factor.ne']
    refine finer.trans_eq ?_
    field_simp

end RoundingMode
end DecimalCalculator
