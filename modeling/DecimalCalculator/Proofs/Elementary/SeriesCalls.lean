/-
The sums of odd powers that a function computes.

Every function of the calculator that needs pi, a logarithm or an inverse tangent is repeated
here as a computation that also writes down which sums it asks for.  Without what it writes down
it is the function itself.
-/

import DecimalCalculator.Elementary.AngleUnit
import DecimalCalculator.Elementary.InverseTrigonometry

namespace DecimalCalculator

open Decimal

/-! ### Recorded computations -/

structure SeriesCall where
  signs : Series.Signs
  argument : Decimal
  scale : Int64
  deriving DecidableEq, Repr

structure Recorded (α : Type) where
  calls : List SeriesCall
  outcome : Outcome α

namespace Recorded

variable {α β : Type}

instance : Monad Recorded where
  pure result := ⟨[], .ok result⟩
  bind computed next :=
    { calls := computed.calls ++
        match computed.outcome with
        | .ok result => (next result).calls
        | .error _ => []
      outcome := computed.outcome >>= fun result => (next result).outcome }

instance : MonadLift Outcome Recorded where
  monadLift outcome := ⟨[], outcome⟩

def fail (fault : EvaluationError) : Recorded α :=
  ⟨[], .error fault⟩

def oddPowers (signs : Series.Signs) (argument : Decimal) (scale : Int64) : Recorded Decimal :=
  ⟨[⟨signs, argument, scale⟩], Series.oddPowers signs argument scale⟩

@[simp]
theorem outcome_pure (result : α) : (pure result : Recorded α).outcome = pure result :=
  rfl

@[simp]
theorem outcome_bind (computed : Recorded α) (next : α → Recorded β) :
    (computed >>= next).outcome = computed.outcome >>= fun result => (next result).outcome :=
  rfl

@[simp]
theorem outcome_lift (outcome : Outcome α) : (liftM outcome : Recorded α).outcome = outcome :=
  rfl

@[simp]
theorem outcome_fail (fault : EvaluationError) :
    (fail fault : Recorded α).outcome = throw fault :=
  rfl

@[simp]
theorem outcome_oddPowers (signs : Series.Signs) (argument : Decimal) (scale : Int64) :
    (oddPowers signs argument scale).outcome = Series.oddPowers signs argument scale :=
  rfl

@[simp]
theorem outcome_ite (condition : Prop) [Decidable condition] (first second : Recorded α) :
    (if condition then first else second).outcome =
      if condition then first.outcome else second.outcome :=
  apply_ite outcome condition first second

/-! ### Pi and the trigonometric functions -/

def piAtScale (scale : Int64) : Recorded Decimal := do
  requireWords (IsWord (scale.toInt + 5))
  let inner := scale + 5
  let fifth ← divideAtScale 1 5 inner .halfEven
  let small ← divideAtScale 1 239 inner .halfEven
  let sum := 16 * (← oddPowers .alternating fifth inner) -
    4 * (← oddPowers .alternating small inner)
  return sum.setScale scale .halfEven

def pi (precision : Precision) : Recorded Decimal := do
  requireWords precision.Guards
  return (← piAtScale precision.seriesScale).roundToPrecision precision

def reducedAngle (angle : Decimal) (scale : Int64) : Recorded Decimal := do
  requireWords (Comparable angle.abs 3)
  if angle.abs ≤ 3 then
    return ← Checked.setScale angle scale .halfEven
  let leading ← Checked.leadingExponent angle
  let inner ← Checked.word (scale.toInt + max leading.toInt 0 + 2)
  let turn := 2 * (← piAtScale inner)
  let turns ← angle.divideAtScale turn 0 .halfEven
  Checked.setScale (← Checked.sub angle (turns * turn)) scale .halfEven

def sinAtScale (angle : Decimal) (scale : Int64) : Recorded Decimal := do
  let reduced ← reducedAngle angle scale
  Elementary.circularSeries reduced reduced 2 scale

def cosAtScale (angle : Decimal) (scale : Int64) : Recorded Decimal := do
  Elementary.circularSeries (← reducedAngle angle scale) 1 1 scale

/-! ### Logarithms -/

def doubledArtanhOfReciprocal (integer : Decimal) (scale : Int64) : Recorded Decimal := do
  let reciprocal ← divideAtScale 1 integer scale .halfEven
  return 2 * (← oddPowers .positive reciprocal scale)

def lnOfTwo (scale : Int64) : Recorded Decimal :=
  doubledArtanhOfReciprocal 3 scale

def lnOfTen (scale : Int64) : Recorded Decimal := do
  return 3 * (← lnOfTwo scale) + (← doubledArtanhOfReciprocal 9 scale)

def ln (argument : Decimal) (precision : Precision) : Recorded Decimal := do
  if argument.sign ≤ 0 then
    return ← Checked.refuse (.logarithmOfNonpositive argument) argument
  if ← Checked.sameValue argument 1 then
    return 0
  let decade ← Checked.leadingExponent argument
  let mantissa : Decimal := ⟨argument.unscaled, argument.scale + decade⟩
  let scale ← precision.scaleNear (argument - 1).abs
  let (factor, halvings) ← Series.Checked.halveTo Elementary.nearOneLimit mantissa
  let ratio ← (factor - 1).divideAtScale (factor + 1) scale .halfEven
  let mut result := 2 * (← oddPowers .positive ratio scale)
  if halvings ≠ 0 then
    result := result + ofInt halvings * (← lnOfTwo scale)
  if decade ≠ 0 then
    result := result + ofInt decade.toInt * (← lnOfTen scale)
  return result.roundToPrecision precision

def logToBase (argument base : Decimal) (precision : Precision) : Recorded Decimal := do
  if argument.sign ≤ 0 then
    return ← Checked.refuse (.logarithmOfNonpositive argument) argument
  requireWords precision.Guards
  let lnArgument ← ln argument precision.guarded
  let lnBase ← ln base precision.guarded
  lnArgument.divideToPrecision lnBase precision

def rootOfDegree (radicand degree : Decimal) (precision : Precision) : Recorded Decimal := do
  if degree.isZero then
    fail .divisionByZero
  if radicand.isZero then
    return 0
  match ← Checked.toUInt32? degree.abs with
  | some integerDegree =>
      let result ← Elementary.root radicand integerDegree precision
      if degree.isNegative then
        divideToPrecision 1 result precision
      else
        return result
  | none =>
      requireWords precision.Guards
      let logarithm ← ln radicand precision.guarded
      Elementary.exp (← logarithm.divideToPrecision degree precision.guarded) precision

/-! ### Inverse trigonometric functions -/

def atanOfUnit (tangent : Decimal) (scale : Int64) : Recorded Decimal := do
  let halved ← Elementary.halfAngleTangent tangent scale
  let quartered ← Elementary.halfAngleTangent halved scale
  return 4 * (← oddPowers .alternating quartered scale)

def rightAngle (scale : Int64) : Recorded Decimal := do
  return (← piAtScale scale) * half

def atanAtScale (tangent : Decimal) (scale : Int64) : Recorded Decimal := do
  if tangent.isZero then
    return 0
  let size := tangent.abs
  requireWords (Comparable 1 size)
  if size > 1 then
    let reciprocal ← divideAtScale 1 size scale .halfEven
    return Elementary.withSignOf tangent
      ((← rightAngle scale) - (← atanOfUnit reciprocal scale))
  else
    return Elementary.withSignOf tangent (← atanOfUnit size scale)

def asinAtScale (sine : Decimal) (scale : Int64) : Recorded Decimal := do
  let size := sine.abs
  requireWords (Comparable 1 size)
  if size > 1 then
    fail (.sineOutOfRange sine)
  if size.sameValue 1 then
    return Elementary.withSignOf sine (← rightAngle scale)
  let square ← Checked.mul size size
  let cosine ← Elementary.rootAtScale (← Checked.sub 1 square) 2 scale
  let tangent ← size.divideAtScale cosine scale .halfEven
  return Elementary.withSignOf sine (← atanAtScale tangent scale)

def asin (sine : Decimal) (precision : Precision) : Recorded Decimal := do
  let scale ← precision.scaleNear sine
  return (← asinAtScale sine scale).roundToPrecision precision

def acos (cosine : Decimal) (precision : Precision) : Recorded Decimal := do
  requireWords precision.Guards
  let scale := precision.seriesScale
  return ((← rightAngle scale) - (← asinAtScale cosine scale)).roundToPrecision precision

/-! ### Angle units -/

def halfTurn (unit : AngleUnit) (precision : Precision) : Recorded Decimal :=
  match unit with
  | .degrees => return 180
  | .radians => do
      requireWords precision.Guards
      pi precision.guarded
  | .gradians => return 200

/-! ### Without the record -/

@[simp]
theorem outcome_piAtScale (scale : Int64) :
    (piAtScale scale).outcome = Elementary.piAtScale scale := by
  simp [piAtScale, Elementary.piAtScale]

@[simp]
theorem outcome_pi (precision : Precision) : (pi precision).outcome = Elementary.pi precision := by
  simp [pi, Elementary.pi]

@[simp]
theorem outcome_reducedAngle (angle : Decimal) (scale : Int64) :
    (reducedAngle angle scale).outcome = Elementary.reducedAngle angle scale := by
  simp [reducedAngle, Elementary.reducedAngle]

@[simp]
theorem outcome_sinAtScale (angle : Decimal) (scale : Int64) :
    (sinAtScale angle scale).outcome = Elementary.sinAtScale angle scale := by
  simp [sinAtScale, Elementary.sinAtScale]

@[simp]
theorem outcome_cosAtScale (angle : Decimal) (scale : Int64) :
    (cosAtScale angle scale).outcome = Elementary.cosAtScale angle scale := by
  simp [cosAtScale, Elementary.cosAtScale]

@[simp]
theorem outcome_doubledArtanhOfReciprocal (integer : Decimal) (scale : Int64) :
    (doubledArtanhOfReciprocal integer scale).outcome =
      Elementary.doubledArtanhOfReciprocal integer scale := by
  simp [doubledArtanhOfReciprocal, Elementary.doubledArtanhOfReciprocal]

@[simp]
theorem outcome_lnOfTwo (scale : Int64) :
    (lnOfTwo scale).outcome = Elementary.lnOfTwo scale := by
  simp [lnOfTwo, Elementary.lnOfTwo]

@[simp]
theorem outcome_lnOfTen (scale : Int64) :
    (lnOfTen scale).outcome = Elementary.lnOfTen scale := by
  simp [lnOfTen, Elementary.lnOfTen]

@[simp]
theorem outcome_ln (argument : Decimal) (precision : Precision) :
    (ln argument precision).outcome = Elementary.ln argument precision := by
  simp [ln, Elementary.ln]

@[simp]
theorem outcome_logToBase (argument base : Decimal) (precision : Precision) :
    (logToBase argument base precision).outcome = Elementary.logToBase argument base precision := by
  simp [logToBase, Elementary.logToBase]

@[simp]
theorem outcome_rootOfDegree (radicand degree : Decimal) (precision : Precision) :
    (rootOfDegree radicand degree precision).outcome =
      Elementary.rootOfDegree radicand degree precision := by
  rw [rootOfDegree, Elementary.rootOfDegree]
  cases degree.isZero with
  | true => rfl
  | false =>
      cases radicand.isZero with
      | true => rfl
      | false =>
          refine bind_congr fun found => ?_
          cases found with
          | none => simp
          | some integerDegree => simp

@[simp]
theorem outcome_atanOfUnit (tangent : Decimal) (scale : Int64) :
    (atanOfUnit tangent scale).outcome = Elementary.atanOfUnit tangent scale := by
  simp [atanOfUnit, Elementary.atanOfUnit]

@[simp]
theorem outcome_rightAngle (scale : Int64) :
    (rightAngle scale).outcome = Elementary.rightAngle scale := by
  simp [rightAngle, Elementary.rightAngle]

@[simp]
theorem outcome_atanAtScale (tangent : Decimal) (scale : Int64) :
    (atanAtScale tangent scale).outcome = Elementary.atanAtScale tangent scale := by
  simp [atanAtScale, Elementary.atanAtScale]

@[simp]
theorem outcome_asinAtScale (sine : Decimal) (scale : Int64) :
    (asinAtScale sine scale).outcome = Elementary.asinAtScale sine scale := by
  simp [asinAtScale, Elementary.asinAtScale]

@[simp]
theorem outcome_asin (sine : Decimal) (precision : Precision) :
    (asin sine precision).outcome = Elementary.asin sine precision := by
  simp [asin, Elementary.asin]

@[simp]
theorem outcome_acos (cosine : Decimal) (precision : Precision) :
    (acos cosine precision).outcome = Elementary.acos cosine precision := by
  simp [acos, Elementary.acos]

@[simp]
theorem outcome_halfTurn (unit : AngleUnit) (precision : Precision) :
    (halfTurn unit precision).outcome = unit.halfTurn precision := by
  cases unit with
  | degrees => rfl
  | radians => simp [halfTurn, AngleUnit.halfTurn]
  | gradians => rfl

end Recorded

/-! ### Functions that use the series -/

/-- A call of a function that computes sums of odd powers.  Integer roots, powers, the
exponential function and everything exact get along without them. -/
inductive SeriesFunction where
  | pi
  | ln (argument : Decimal)
  | logToBase (argument base : Decimal)
  | log10 (argument : Decimal)
  | rootOfDegree (radicand degree : Decimal)
  | sin (angle : Decimal)
  | cos (angle : Decimal)
  | tan (angle : Decimal)
  | cot (angle : Decimal)
  | sec (angle : Decimal)
  | csc (angle : Decimal)
  | atan (tangent : Decimal)
  | acot (cotangent : Decimal)
  | asin (sine : Decimal)
  | acos (cosine : Decimal)
  | asec (secant : Decimal)
  | acsc (cosecant : Decimal)
  | convert (source target : AngleUnit) (angle : Decimal)

namespace SeriesFunction

def evaluate (precision : Precision) : SeriesFunction → Outcome Decimal
  | pi => Elementary.pi precision
  | ln argument => Elementary.ln argument precision
  | logToBase argument base => Elementary.logToBase argument base precision
  | log10 argument => Elementary.log10 argument precision
  | rootOfDegree radicand degree => Elementary.rootOfDegree radicand degree precision
  | sin angle => Elementary.sin angle precision
  | cos angle => Elementary.cos angle precision
  | tan angle => Elementary.tan angle precision
  | cot angle => Elementary.cot angle precision
  | sec angle => Elementary.sec angle precision
  | csc angle => Elementary.csc angle precision
  | atan tangent => Elementary.atan tangent precision
  | acot cotangent => Elementary.acot cotangent precision
  | asin sine => Elementary.asin sine precision
  | acos cosine => Elementary.acos cosine precision
  | asec secant => Elementary.asec secant precision
  | acsc cosecant => Elementary.acsc cosecant precision
  | convert source target angle => source.convert target angle precision

def record (precision : Precision) : SeriesFunction → Recorded Decimal
  | pi => Recorded.pi precision
  | ln argument => Recorded.ln argument precision
  | logToBase argument base => Recorded.logToBase argument base precision
  | log10 argument => Recorded.logToBase argument 10 precision
  | rootOfDegree radicand degree => Recorded.rootOfDegree radicand degree precision
  | sin angle => do
      requireWords precision.Guards
      return (← Recorded.sinAtScale angle precision.seriesScale).roundToPrecision precision
  | cos angle => do
      requireWords precision.Guards
      return (← Recorded.cosAtScale angle precision.seriesScale).roundToPrecision precision
  | tan angle => do
      requireWords precision.Guards
      let cosine ← Recorded.cosAtScale angle precision.seriesScale
      if Elementary.vanishes cosine precision then
        Recorded.fail (.tangentPole angle)
      (← Recorded.sinAtScale angle precision.seriesScale).divideToPrecision cosine precision
  | cot angle => do
      requireWords precision.Guards
      let sine ← Recorded.sinAtScale angle precision.seriesScale
      if Elementary.vanishes sine precision then
        Recorded.fail (.cotangentPole angle)
      (← Recorded.cosAtScale angle precision.seriesScale).divideToPrecision sine precision
  | sec angle => do
      requireWords precision.Guards
      let cosine ← Recorded.cosAtScale angle precision.seriesScale
      if Elementary.vanishes cosine precision then
        Recorded.fail (.secantPole angle)
      divideToPrecision 1 cosine precision
  | csc angle => do
      requireWords precision.Guards
      let sine ← Recorded.sinAtScale angle precision.seriesScale
      if Elementary.vanishes sine precision then
        Recorded.fail (.cosecantPole angle)
      divideToPrecision 1 sine precision
  | atan tangent => do
      let scale ← precision.scaleNear tangent
      return (← Recorded.atanAtScale tangent scale).roundToPrecision precision
  | acot cotangent => do
      requireWords precision.Guards
      let scale := precision.seriesScale
      return ((← Recorded.rightAngle scale) -
        (← Recorded.atanAtScale cotangent scale)).roundToPrecision precision
  | asin sine => Recorded.asin sine precision
  | acos cosine => Recorded.acos cosine precision
  | asec secant => do
      Recorded.acos (← Elementary.reciprocalOfSecant secant precision) precision
  | acsc cosecant => do
      Recorded.asin (← Elementary.reciprocalOfSecant cosecant precision) precision
  | convert source target angle => do
      if source = target then
        return angle
      let scaled ← Decimal.Checked.mul angle (← Recorded.halfTurn target precision)
      scaled.divideToPrecision (← Recorded.halfTurn source precision) precision

theorem outcome_record (precision : Precision) (function : SeriesFunction) :
    (function.record precision).outcome = function.evaluate precision := by
  cases function with
  | pi => exact Recorded.outcome_pi precision
  | ln argument => exact Recorded.outcome_ln argument precision
  | logToBase argument base => exact Recorded.outcome_logToBase argument base precision
  | log10 argument => exact Recorded.outcome_logToBase argument 10 precision
  | rootOfDegree radicand degree => exact Recorded.outcome_rootOfDegree radicand degree precision
  | sin angle => simp [record, evaluate, Elementary.sin]
  | cos angle => simp [record, evaluate, Elementary.cos]
  | tan angle => simp [record, evaluate, Elementary.tan]
  | cot angle => simp [record, evaluate, Elementary.cot]
  | sec angle => simp [record, evaluate, Elementary.sec]
  | csc angle => simp [record, evaluate, Elementary.csc]
  | atan tangent => simp [record, evaluate, Elementary.atan]
  | acot cotangent => simp [record, evaluate, Elementary.acot]
  | asin sine => exact Recorded.outcome_asin sine precision
  | acos cosine => exact Recorded.outcome_acos cosine precision
  | asec secant => simp [record, evaluate, Elementary.asec]
  | acsc cosecant => simp [record, evaluate, Elementary.acsc]
  | convert source target angle => simp [record, evaluate, AngleUnit.convert]

end SeriesFunction
end DecimalCalculator
