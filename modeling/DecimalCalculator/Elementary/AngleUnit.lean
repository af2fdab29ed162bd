/-
Units of angles and the conversion between them.
-/

import DecimalCalculator.Elementary.Trigonometry

namespace DecimalCalculator

inductive AngleUnit where
  | degrees
  | radians
  | gradians
  deriving DecidableEq, Repr

namespace AngleUnit

def halfTurn (unit : AngleUnit) (precision : Precision) : Outcome Decimal := do
  match unit with
  | .degrees => return 180
  | .radians =>
      requireWords precision.Guards
      Elementary.pi precision.guarded
  | .gradians => return 200

/-- An angle measured in one unit, expressed in another; the same unit leaves it
as it is written. -/
def convert (source target : AngleUnit) (angle : Decimal) (precision : Precision) :
    Outcome Decimal := do
  if source = target then
    return angle
  let scaled ← Decimal.Checked.mul angle (← target.halfTurn precision)
  scaled.divideToPrecision (← source.halfTurn precision) precision

end AngleUnit
end DecimalCalculator
