/-
Greatest common divisors and least common multiples of decimal numbers.

The divisor of two numbers is found by Euclid's algorithm on decimals: remainders are
taken at the finer of two scales, so that in units of this scale every step is one on
natural numbers.  The form of the answer is that of an operand when one operand measures
the other, and has the finer scale otherwise.
-/

import DecimalCalculator.Decimal.Division

namespace DecimalCalculator
namespace Decimal

/-! ### Numbers that are not negative -/

/-- A number that is not negative, so that a remainder by another one is smaller. -/
structure Magnitude where
  number : Decimal
  nonneg : 0 ≤ number.unscaled

def magnitude (number : Decimal) : Magnitude :=
  ⟨number.abs, Int.natCast_nonneg _⟩

theorem alignedTo_nonneg {number : Decimal} (nonneg : 0 ≤ number.unscaled) (target : Int64) :
    0 ≤ number.alignedTo target := by
  unfold alignedTo
  split
  · exact nonneg
  · exact Int.mul_nonneg nonneg (Int.natCast_nonneg _)

theorem alignedTo_scale (unscaled : Int) (scale : Int64) :
    (⟨unscaled, scale⟩ : Decimal).alignedTo scale = unscaled :=
  if_pos (Or.inl (Int64.le_refl scale))

theorem alignedTo_ne_zero {number : Decimal} (nonzero : number.unscaled ≠ 0) (target : Int64) :
    number.alignedTo target ≠ 0 := by
  unfold alignedTo
  split
  · exact nonzero
  · exact Int.mul_ne_zero nonzero (Int.natCast_ne_zero.mpr (Nat.ne_of_gt (Nat.pow_pos (by decide))))

namespace Magnitude

/-- The size of a number in units of the finer of its scale and that of another number. -/
def unitsBeside (size other : Magnitude) : Nat :=
  (size.number.alignedTo (size.number.commonScale other.number)).natAbs

def rest (dividend divisor : Magnitude) : Magnitude :=
  ⟨dividend.number.rest divisor.number,
    Int.tmod_nonneg _ (alignedTo_nonneg dividend.nonneg _)⟩

variable {left right : Magnitude}

theorem scale_rest (left right : Magnitude) :
    (left.rest right).number.scale = left.number.commonScale right.number :=
  rfl

theorem commonScale_rest (left right : Magnitude) :
    (left.rest right).number.commonScale right.number =
      left.number.commonScale right.number := by
  change (if left.number.commonScale right.number ≤ right.number.scale then right.number.scale
    else left.number.commonScale right.number) = _
  split
  · rename_i coarse
    apply Int64.le_antisymm
    · change right.number.scale ≤
        if left.number.scale ≤ right.number.scale then right.number.scale else left.number.scale
      split
      · exact Int64.le_refl _
      · exact Int64.le_of_lt (Int64.not_le.mp ‹_›)
    · exact coarse
  · rfl

theorem unitsBeside_rest (left right : Magnitude) :
    (left.rest right).unitsBeside right = left.unitsBeside right % right.unitsBeside left := by
  rw [unitsBeside, commonScale_rest]
  change ((Decimal.mk _ _).alignedTo _).natAbs = _
  rw [alignedTo_scale, Int.natAbs_tmod, unitsBeside, unitsBeside,
    commonScale_comm right.number left.number]

theorem unitsBeside_of_rest (left right : Magnitude) :
    right.unitsBeside (left.rest right) = right.unitsBeside left := by
  rw [unitsBeside, commonScale_comm, commonScale_rest, commonScale_comm, unitsBeside]

theorem unitsBeside_pos (nonzero : left.number.isZero = false) (right : Magnitude) :
    0 < left.unitsBeside right :=
  Int.natAbs_pos.mpr (alignedTo_ne_zero (of_decide_eq_false nonzero) _)

theorem lt_iff_unitsBeside_lt (first : left.number.isZero = false)
    (second : right.number.isZero = false) :
    left.number < right.number ↔ left.unitsBeside right < right.unitsBeside left := by
  have positive {size : Magnitude} (nonzero : size.number.isZero = false) :
      size.number.sign = 1 := by
    apply Int.sign_eq_one_of_pos
    have := size.nonneg
    have : size.number.unscaled ≠ 0 := of_decide_eq_false nonzero
    omega
  have leftUnits := alignedTo_nonneg left.nonneg (left.number.commonScale right.number)
  have rightUnits := alignedTo_nonneg right.nonneg (left.number.commonScale right.number)
  change Decimal.compare _ _ = .lt ↔ _
  rw [Decimal.compare, positive first, positive second, if_neg (by decide), unitsBeside,
    unitsBeside, commonScale_comm right.number left.number, Int.compare_eq_lt]
  omega

theorem lt_of_rest_left (first : left.number.isZero = false) (second : right.number.isZero = false)
    (above : left.number > right.number) :
    (left.rest right).unitsBeside right + right.unitsBeside (left.rest right) <
      left.unitsBeside right + right.unitsBeside left := by
  have order := (lt_iff_unitsBeside_lt second first).mp above
  have smaller := Nat.mod_lt (left.unitsBeside right) (unitsBeside_pos second left)
  rw [unitsBeside_rest, unitsBeside_of_rest]
  omega

theorem lt_of_rest_right (first : left.number.isZero = false)
    (second : right.number.isZero = false) (atMost : ¬left.number > right.number) :
    left.unitsBeside (right.rest left) + (right.rest left).unitsBeside left <
      left.unitsBeside right + right.unitsBeside left := by
  have order := mt (lt_iff_unitsBeside_lt second first).mpr atMost
  have smaller := Nat.mod_lt (right.unitsBeside left) (unitsBeside_pos first right)
  rw [unitsBeside_rest, unitsBeside_of_rest]
  omega

/-- The larger of two numbers, of two zeros the second one. -/
def larger (left right : Magnitude) : Decimal :=
  if left.number > right.number then left.number else right.number

/-- Euclid's algorithm.  The larger number is replaced by its remainder by the other one
until one of them is zero; the one that is left is the divisor. -/
def commonDivisor (left right : Magnitude) : Decimal :=
  if _ended : left.number.isZero = true ∨ right.number.isZero = true then
    left.larger right
  else if _above : left.number > right.number then
    commonDivisor (left.rest right) right
  else
    commonDivisor left (right.rest left)
termination_by left.unitsBeside right + right.unitsBeside left
decreasing_by
  · have nonzero := not_or.mp _ended
    exact lt_of_rest_left (Bool.eq_false_iff.mpr nonzero.1) (Bool.eq_false_iff.mpr nonzero.2) _above
  · have nonzero := not_or.mp _ended
    exact lt_of_rest_right (Bool.eq_false_iff.mpr nonzero.1) (Bool.eq_false_iff.mpr nonzero.2) _above

/-- Euclid's algorithm on words: every step compares two numbers and takes a remainder. -/
def checkedDivisor (left right : Magnitude) : Outcome Decimal :=
  if _ended : left.number.isZero = true ∨ right.number.isZero = true then
    .ok (left.larger right)
  else if ¬Aligned left.number right.number then
    .error .overflow
  else if _above : left.number > right.number then
    checkedDivisor (left.rest right) right
  else
    checkedDivisor left (right.rest left)
termination_by left.unitsBeside right + right.unitsBeside left
decreasing_by
  · have nonzero := not_or.mp _ended
    exact lt_of_rest_left (Bool.eq_false_iff.mpr nonzero.1) (Bool.eq_false_iff.mpr nonzero.2) _above
  · have nonzero := not_or.mp _ended
    exact lt_of_rest_right (Bool.eq_false_iff.mpr nonzero.1) (Bool.eq_false_iff.mpr nonzero.2) _above

end Magnitude

/-! ### Divisors and multiples -/

/-- The greatest common divisor of two numbers, never negative.  With a zero it is the
other number. -/
def gcd (left right : Decimal) : Decimal :=
  left.magnitude.commonDivisor right.magnitude

def Checked.gcd (left right : Decimal) : Outcome Decimal :=
  left.magnitude.checkedDivisor right.magnitude

/-- The least common multiple of two numbers, never negative: the integer
quotient of the first by the divisor, times the second.  Two zeros have none. -/
def lcm (left right : Decimal) : Outcome Decimal := do
  let divisor ← Checked.gcd left right
  let quotient ← left.abs.divideAtScale divisor 0 .down
  Checked.mul quotient right.abs

/-- The greatest common divisor of at least two numbers, taken from left to right. -/
def gcdOfList : List Decimal → Outcome Decimal
  | first :: second :: rest => do rest.foldlM Checked.gcd (← Checked.gcd first second)
  | _ => .error (.tooFewArguments "gcd" 2)

/-- The least common multiple of at least two numbers, taken from left to right. -/
def lcmOfList : List Decimal → Outcome Decimal
  | first :: second :: rest => do rest.foldlM lcm (← first.lcm second)
  | _ => .error (.tooFewArguments "lcm" 2)

end Decimal
end DecimalCalculator
