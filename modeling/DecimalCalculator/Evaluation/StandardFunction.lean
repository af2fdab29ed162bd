/-
The built-in functions of one number and their names.
-/

import DecimalCalculator.Elementary.InverseTrigonometry
import DecimalCalculator.Elementary.Power

namespace DecimalCalculator

inductive StandardFunction where
  | log
  | ln
  | exp
  | sin
  | cos
  | tan
  | cot
  | sec
  | csc
  | asin
  | acos
  | atan
  | acot
  | asec
  | acsc
  | sqrt
  | abs
  deriving DecidableEq, Repr

namespace StandardFunction

/-- The function that a name stands for; some functions have several names. -/
def ofName? : String → Option StandardFunction
  | "log" => some .log
  | "ln" => some .ln
  | "exp" => some .exp
  | "sin" => some .sin
  | "cos" => some .cos
  | "tan" | "tg" => some .tan
  | "cot" | "ctg" => some .cot
  | "sec" => some .sec
  | "csc" => some .csc
  | "asin" | "arcsin" => some .asin
  | "acos" | "arccos" => some .acos
  | "atan" | "arctan" | "arctg" | "atg" => some .atan
  | "acot" | "arccot" | "arcctg" | "actg" => some .acot
  | "asec" | "arcsec" => some .asec
  | "acsc" | "arccsc" => some .acsc
  | "sqrt" => some .sqrt
  | "abs" => some .abs
  | _ => none

/-- The function of one argument: a logarithm is decimal, a root is square. -/
def apply (function : StandardFunction) (argument : Decimal) (precision : Precision) :
    Outcome Decimal :=
  match function with
  | .log => Elementary.log10 argument precision
  | .ln => Elementary.ln argument precision
  | .exp => Elementary.exp argument precision
  | .sin => Elementary.sin argument precision
  | .cos => Elementary.cos argument precision
  | .tan => Elementary.tan argument precision
  | .cot => Elementary.cot argument precision
  | .sec => Elementary.sec argument precision
  | .csc => Elementary.csc argument precision
  | .asin => Elementary.asin argument precision
  | .acos => Elementary.acos argument precision
  | .atan => Elementary.atan argument precision
  | .acot => Elementary.acot argument precision
  | .asec => Elementary.asec argument precision
  | .acsc => Elementary.acsc argument precision
  | .sqrt => Elementary.sqrt argument precision
  | .abs => .ok argument.abs

/-- The function with a suffix and an operand: log2(8) is a logarithm to base 2 and
sqrt3(8) a root of degree 3.  Any other function takes the suffix as its argument. -/
def applyWithSuffix (function : StandardFunction) (suffix operand : Decimal)
    (precision : Precision) : Outcome Decimal :=
  match function with
  | .log => Elementary.logToBase operand suffix precision
  | .sqrt => Elementary.rootOfDegree operand suffix precision
  | _ => function.apply suffix precision

end StandardFunction
end DecimalCalculator
