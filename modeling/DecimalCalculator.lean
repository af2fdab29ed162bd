import DecimalCalculator.Calculator
import DecimalCalculator.Proofs.Expression.Agreement
import DecimalCalculator.Proofs.Expression.Assembly
import DecimalCalculator.Proofs.Expression.Conservation
import DecimalCalculator.Proofs.Expression.Cuts
import DecimalCalculator.Proofs.Expression.Division
import DecimalCalculator.Proofs.Expression.Ends
import DecimalCalculator.Proofs.Expression.Nesting
import DecimalCalculator.Proofs.Expression.Pieces
import DecimalCalculator.Proofs.Expression.Positions
import DecimalCalculator.Proofs.Expression.Precedence
import DecimalCalculator.Proofs.Expression.Reading
import DecimalCalculator.Proofs.Expression.Replacement
import DecimalCalculator.Proofs.Expression.RoundTrip
import DecimalCalculator.Proofs.Expression.Tables
import DecimalCalculator.Proofs.Outcome
import DecimalCalculator.Expression.Written
import DecimalCalculator.Expression.Registered
import DecimalCalculator.Proofs.Evaluation.Faults
import DecimalCalculator.Proofs.Evaluation.Shape
import DecimalCalculator.Evaluation.Final
import DecimalCalculator.Proofs.Decimal.Text
import DecimalCalculator.Proofs.Evaluation.Printed
import DecimalCalculator.Proofs.Decimal.Rational
import DecimalCalculator.Proofs.Decimal.Rounding
import DecimalCalculator.Proofs.Decimal.Shortest
import DecimalCalculator.Proofs.Value.Rational
import DecimalCalculator.Proofs.Evaluation.Exact
import DecimalCalculator.Proofs.Decimal.Forms
import DecimalCalculator.Proofs.Elementary.Exponential
import DecimalCalculator.Proofs.Elementary.Power
import DecimalCalculator.Proofs.Elementary.Angle
import DecimalCalculator.Proofs.Arithmetic.Values
import DecimalCalculator.Proofs.Value.Forms
import DecimalCalculator.Proofs.Evaluation.StandardForms
import DecimalCalculator.Proofs.Evaluation.SameNumbers
import DecimalCalculator.Proofs.Session
import DecimalCalculator.Proofs.Value.Results
import DecimalCalculator.Proofs.Evaluation.Results
import DecimalCalculator.Proofs.Value.Text
import DecimalCalculator.Expression.Bracketing
import DecimalCalculator.Proofs.Evaluation.Bracketing
import DecimalCalculator.Proofs.Value.Shape
import DecimalCalculator.Evaluation.Order
import DecimalCalculator.Proofs.Evaluation.FinalForm
import DecimalCalculator.Proofs.Evaluation.Broadcast
import DecimalCalculator.Proofs.Evaluation.FirstFault
import DecimalCalculator.Proofs.Elementary.ExactPower
import DecimalCalculator.Proofs.Decimal.Nearest
import DecimalCalculator.Proofs.Decimal.Precision
import DecimalCalculator.Proofs.Decimal.Quotient
import DecimalCalculator.Proofs.Elementary.InverseSine
import DecimalCalculator.Proofs.Decimal.Modes
import DecimalCalculator.Proofs.Elementary.Root
import DecimalCalculator.Proofs.Elementary.FractionalPower
import DecimalCalculator.Proofs.Evaluation.Quotients
import DecimalCalculator.Proofs.Arithmetic.CommonMeasure
import DecimalCalculator.Proofs.Arithmetic.CommonMultiple
import DecimalCalculator.Proofs.Evaluation.Reductions
import DecimalCalculator.Proofs.Elementary.OddPowers
import DecimalCalculator.Proofs.Elementary.ScaledLogarithm
import DecimalCalculator.Proofs.Elementary.Logarithm
import DecimalCalculator.Proofs.Elementary.ExactLogarithm
import DecimalCalculator.Proofs.Elementary.Approximation
import DecimalCalculator.Proofs.Elementary.FactorSeries
import DecimalCalculator.Proofs.Elementary.TaylorExponential
import DecimalCalculator.Proofs.Elementary.ArctangentSeries
import DecimalCalculator.Proofs.Elementary.CircularFunctions
import DecimalCalculator.Proofs.Elementary.InverseTangent
import DecimalCalculator.Proofs.Decimal.Opposite
import DecimalCalculator.Proofs.Elementary.Parity
import DecimalCalculator.Proofs.Elementary.InverseSecant
import DecimalCalculator.Proofs.Elementary.Poles
import DecimalCalculator.Proofs.Elementary.Reduction
import DecimalCalculator.Proofs.Elementary.CircularQuotients
import DecimalCalculator.Proofs.Decimal.Operations
import DecimalCalculator.Proofs.Decimal.NearestDigits
import DecimalCalculator.Proofs.Decimal.WholeNumbers
import DecimalCalculator.Proofs.Arithmetic.Factorial
import DecimalCalculator.Proofs.Elementary.TooLarge
import DecimalCalculator.Proofs.Elementary.ExponentialSize
import DecimalCalculator.Proofs.Elementary.RootDomain
import DecimalCalculator.Decimal.Numeral
import DecimalCalculator.Proofs.Decimal.Numerals
import DecimalCalculator.Proofs.Decimal.CanonicalForm
import DecimalCalculator.Proofs.Decimal.ReadBack
import DecimalCalculator.Proofs.Expression.Literals
import DecimalCalculator.Proofs.Evaluation.Literals
import DecimalCalculator.Expression.Defects
import DecimalCalculator.Proofs.Expression.WellNested
import DecimalCalculator.Proofs.Expression.Defects
import DecimalCalculator.Proofs.Expression.Separators
import DecimalCalculator.Proofs.Expression.Calls
import DecimalCalculator.Proofs.Expression.Classes
import DecimalCalculator.Proofs.Value.Composition
import DecimalCalculator.Proofs.Elementary.SeriesLimits
import DecimalCalculator.Proofs.Elementary.SeriesCalls
import DecimalCalculator.Proofs.Elementary.HalfAngle
import DecimalCalculator.Proofs.Elementary.SeriesArguments
