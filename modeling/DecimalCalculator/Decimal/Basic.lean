/-
Decimal numbers: an unscaled integer together with a scale.

One number has many forms (1.5, 1.50, 15e-1 written out), and every operation
says which form its result takes, so the form is part of the data.  Equality of
numbers is the comparison `compare`, while `=` on the structure compares forms.
Sums, differences and products are exact: operands of a sum are first aligned
to the finer of the two scales.
-/

namespace DecimalCalculator

/-- A decimal number with the value `unscaled * 10 ^ (-scale)`.

The scale counts the digits after the decimal point and may be negative.  It is a signed
64-bit word, and the operations below take sums of scales modulo `2 ^ 64`. -/
structure Decimal where
  unscaled : Int
  scale : Int64
  deriving DecidableEq, Inhabited, Repr

namespace Decimal

-- Powers are the core library's, whatever else is imported.
attribute [local instance (high)] instPowNat

/-! ### Integers and signs -/

def ofInt (value : Int) : Decimal :=
  ⟨value, 0⟩

instance (value : Nat) : OfNat Decimal value :=
  ⟨ofInt value⟩

def half : Decimal :=
  ⟨5, 1⟩

def sign (number : Decimal) : Int :=
  number.unscaled.sign

def isZero (number : Decimal) : Bool :=
  number.unscaled == 0

def isNegative (number : Decimal) : Bool :=
  number.unscaled < 0

protected def neg (number : Decimal) : Decimal :=
  ⟨-number.unscaled, number.scale⟩

instance : Neg Decimal :=
  ⟨Decimal.neg⟩

def abs (number : Decimal) : Decimal :=
  ⟨number.unscaled.natAbs, number.scale⟩

/-! ### Alignment -/

/-- Unscaled integer of the number at a finer scale.

Zero needs no power of ten, whatever the distance between the scales is, and a
target that is not finer leaves the integer as it stands. -/
def alignedTo (number : Decimal) (target : Int64) : Int :=
  if target ≤ number.scale ∨ number.unscaled = 0 then
    number.unscaled
  else
    number.unscaled * (10 ^ (target - number.scale).toNatClampNeg : Nat)

/-- The finer of two scales, at which both numbers are integers. -/
def commonScale (left right : Decimal) : Int64 :=
  max left.scale right.scale

theorem commonScale_comm (left right : Decimal) :
    left.commonScale right = right.commonScale left := by
  change (if left.scale ≤ right.scale then right.scale else left.scale) =
    if right.scale ≤ left.scale then left.scale else right.scale
  split
  · split
    · exact Int64.le_antisymm ‹_› ‹_›
    · rfl
  · split
    · rfl
    · exact absurd (Int64.le_of_lt (Int64.not_le.mp ‹_›)) ‹_›

/-! ### Words -/

/-- The integer is one that a signed 64-bit word holds. -/
def IsWord (size : Int) : Prop :=
  -2 ^ (63 : Nat) ≤ size ∧ size < 2 ^ (63 : Nat)

instance (size : Int) : Decidable (IsWord size) :=
  inferInstanceAs (Decidable (_ ∧ _))

/-- The distance from the scale of a number to a finer one is a word.  Zero is
aligned without it. -/
def Reaches (number : Decimal) (target : Int64) : Prop :=
  number.unscaled = 0 ∨ target.toInt - number.scale.toInt < 2 ^ (63 : Nat)

instance (number : Decimal) (target : Int64) : Decidable (number.Reaches target) :=
  inferInstanceAs (Decidable (_ ∨ _))

/-- The distance from the scale of a number to another one is a word on either side. -/
def Meets (number : Decimal) (target : Int64) : Prop :=
  number.Reaches target ∧ number.scale.toInt - target.toInt < 2 ^ (63 : Nat)

instance (number : Decimal) (target : Int64) : Decidable (number.Meets target) :=
  inferInstanceAs (Decidable (_ ∧ _))

/-- Two numbers can be brought to the finer of their scales. -/
structure Aligned (left right : Decimal) : Prop where
  first : left.Reaches (left.commonScale right)
  second : right.Reaches (left.commonScale right)

instance (left right : Decimal) : Decidable (Aligned left right) :=
  decidable_of_iff (left.Reaches (left.commonScale right) ∧ right.Reaches (left.commonScale right))
    ⟨fun both => ⟨both.1, both.2⟩, fun aligned => ⟨aligned.first, aligned.second⟩⟩

/-- Two numbers are compared without a distance of scales that leaves the words. -/
def Comparable (left right : Decimal) : Prop :=
  left.sign = right.sign → Aligned left right

instance (left right : Decimal) : Decidable (Comparable left right) :=
  inferInstanceAs (Decidable (_ → _))

/-! ### Order -/

/-- Order of the values.  Signs decide first, so that numbers of different
signs are compared without aligning them. -/
protected def compare (left right : Decimal) : Ordering :=
  if left.sign ≠ right.sign then
    Ord.compare left.sign right.sign
  else
    Ord.compare (left.alignedTo (left.commonScale right))
      (right.alignedTo (left.commonScale right))

instance : Ord Decimal :=
  ⟨Decimal.compare⟩

instance : LT Decimal :=
  ltOfOrd

instance : LE Decimal :=
  leOfOrd

def sameValue (left right : Decimal) : Bool :=
  left.compare right == .eq

/-! ### Exact arithmetic -/

protected def add (left right : Decimal) : Decimal :=
  let scale := left.commonScale right
  ⟨left.alignedTo scale + right.alignedTo scale, scale⟩

instance : Add Decimal :=
  ⟨Decimal.add⟩

protected def sub (left right : Decimal) : Decimal :=
  let scale := left.commonScale right
  ⟨left.alignedTo scale - right.alignedTo scale, scale⟩

instance : Sub Decimal :=
  ⟨Decimal.sub⟩

protected def mul (left right : Decimal) : Decimal :=
  ⟨left.unscaled * right.unscaled, left.scale + right.scale⟩

instance : Mul Decimal :=
  ⟨Decimal.mul⟩

/-- Exact power by repeated squaring.  The scale of the result is the scale of
the base times the exponent. -/
def power (base : Decimal) (exponent : Nat) : Decimal :=
  if exponent = 0 then
    1
  else
    let root := base.power (exponent / 2)
    if exponent % 2 = 0 then root * root else root * root * base
termination_by exponent

end Decimal

end DecimalCalculator
