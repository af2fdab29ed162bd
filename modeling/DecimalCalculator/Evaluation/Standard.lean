/-
The standard meaning of symbols and names.
-/

import DecimalCalculator.Arithmetic.Divisor
import DecimalCalculator.Arithmetic.Factorial
import DecimalCalculator.Elementary.AngleUnit
import DecimalCalculator.Evaluation.Resolvers
import DecimalCalculator.Evaluation.StandardFunction
import DecimalCalculator.Expression.SymbolTables

namespace DecimalCalculator
namespace Standard

open Decimal

/-! ### Operators and brackets -/

/-- Sum, difference, product, quotient rounded to the precision as a scale, and power. -/
def combine (symbol : Char) (left right : Decimal) (context : Context) :
    Outcome (Option Decimal) :=
  match symbol with
  | '+' => some <$> Checked.add left right
  | '-' => some <$> Checked.sub left right
  | '*' => some <$> Checked.mul left right
  | '/' => some <$> left.divideAtScale right context.precisionScale .halfEven
  | '^' => some <$> Elementary.pow left right context.precision
  | _ => .ok none

/-- Operators in front of a percentage: a part of the base is added, subtracted or
taken, and a division is by the fraction itself.  Every operator needs the part. -/
def combinePercent (symbol : Char) (base fraction : Decimal) (context : Context) :
    Outcome (Option Decimal) := do
  let part ← Checked.mul base fraction
  match symbol with
  | '+' => some <$> Checked.add base part
  | '-' => some <$> Checked.sub base part
  | '*' => return some part
  | '/' => some <$> base.divideAtScale fraction context.precisionScale .halfEven
  | _ => return none

/-- Round brackets keep a number, square brackets round it to the nearest integer,
and floor and ceiling brackets to the next one below and above. -/
def brackets : BracketResolver := fun kind content _ =>
  if kind = roundBrackets then .ok (some content)
  else if kind = squareBrackets then some <$> Checked.nearestInteger content
  else if kind = floorBrackets then some <$> Checked.floor content
  else if kind = ceilingBrackets then some <$> Checked.ceiling content
  else .ok none

/-! ### Functions -/

/-- The built-in functions.  A function without suffix and operand is an error,
but only if its name is known. -/
def functions : FunctionResolver := fun name suffix operand context =>
  match StandardFunction.ofName? name with
  | none => .ok none
  | some function =>
      match suffix, operand with
      | some suffix, some operand =>
          some <$> function.applyWithSuffix suffix operand context.precision
      | some argument, none => some <$> function.apply argument context.precision
      | none, some argument => some <$> function.apply argument context.precision
      | none, none => .error (.functionWithoutArgument name)

def sum (numbers : List Decimal) : Outcome Decimal :=
  numbers.foldlM Checked.add 0

def average (numbers : List Decimal) (context : Context) : Outcome Decimal := do
  if numbers.isEmpty then
    throw .averageOfNothing
  (← sum numbers).divideAtScale (ofInt numbers.length) context.precisionScale .halfEven

/-- The average A, sum, gcd and lcm take all numbers of a list and of its nested
lists together.  Any other function is applied to every number. -/
def listFunctions : ListFunctionResolver := fun name suffix operand functions context =>
  match name with
  | "A" => do return some (.scalar (← average operand.flatten context))
  | "sum" => do return some (.scalar (← sum operand.flatten))
  | "gcd" => do return some (.scalar (← gcdOfList operand.flatten))
  | "lcm" => do return some (.scalar (← lcmOfList operand.flatten))
  | _ => do
      return some (← operand.tryMap fun number =>
        resolved (.unknownFunction name) (functions name suffix (some number) context))

/-! ### Suffix operators and constants -/

def toRadians (unit : AngleUnit) (precision : Precision) : (count : Nat) → Decimal → Outcome Decimal
  | 0, angle => .ok angle
  | count + 1, angle => do
      toRadians unit precision count (← unit.convert .radians angle precision)

/-- Factorial with the count as its step, a hundredth for every percent sign, and
angles in degrees and gradians. -/
def suffixes : SuffixResolver := fun symbol count operand context =>
  if symbol = factorialSign then
    some <$> operand.factorial count
  else if symbol = percentSign then do
    return some (← Checked.mul operand (← Checked.power ⟨1, 2⟩ count))
  else if symbol = degreeSign then
    some <$> toRadians .degrees context.precision count operand
  else if symbol = gradianSign then
    some <$> toRadians .gradians context.precision count operand
  else
    .ok none

/-- Pi, the golden ratio, and the base of the natural logarithm. -/
def constants : ConstantResolver := fun name context =>
  match name with
  | "pi" | "π" => do return some (.scalar (← Elementary.pi context.precision))
  | "fi" | "φ" => do return some (.scalar (← Elementary.goldenRatio context.precision))
  | "e" | "Ɛ" => do return some (.scalar (← Elementary.e context.precision))
  | _ => .ok none

end Standard

def Resolvers.standard : Resolvers where
  operators := ⟨Standard.combine, Standard.combinePercent⟩
  brackets := Standard.brackets
  functions := Standard.functions
  listFunctions := Standard.listFunctions
  suffixes := Standard.suffixes
  constants := Standard.constants

end DecimalCalculator
