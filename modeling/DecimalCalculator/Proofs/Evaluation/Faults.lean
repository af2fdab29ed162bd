/-
Computations with numbers never find fault with the shape of an expression.

The faults of a sequence of steps are the faults of its steps, so the faults of a
function are read off its definition.  Standard resolvers blame a symbol only if
it is none of theirs, and a function only if it has neither suffix nor operand.
-/

import DecimalCalculator.Evaluation.Standard
import DecimalCalculator.Evaluation.Walk
import DecimalCalculator.Proofs.Decimal.Checked

namespace DecimalCalculator

attribute [local simp] EvaluationError.blamesShape

/-- Whether a computation succeeds or has a fault other than the shape of the tree. -/
def SparesShape {α : Type} (outcome : Outcome α) : Prop :=
  ∀ error, outcome = .error error → error.blamesShape = false

/-! ### Sequences of steps -/

namespace SparesShape

variable {α β : Type} {outcome : Outcome α} {error : EvaluationError}

@[simp]
theorem of_ok (value : α) : SparesShape (.ok value : Outcome α) :=
  nofun

@[simp]
theorem of_pure (value : α) : SparesShape (pure value : Outcome α) :=
  nofun

@[simp]
theorem error_iff : SparesShape (.error error : Outcome α) ↔ error.blamesShape = false := by
  constructor
  · exact fun spares => spares error rfl
  · rintro numerical _ ⟨⟩
    exact numerical

@[simp]
theorem throw_iff : SparesShape (throw error : Outcome α) ↔ error.blamesShape = false :=
  error_iff

@[simp]
theorem bind_iff {next : α → Outcome β} :
    SparesShape (outcome >>= next) ↔
      SparesShape outcome ∧ ∀ value, outcome = .ok value → SparesShape (next value) := by
  cases outcome with
  | error error => simp [bind, Except.bind]
  | ok value => simp [bind, Except.bind]

@[simp]
theorem map_iff {transform : α → β} : SparesShape (transform <$> outcome) ↔ SparesShape outcome := by
  cases outcome with
  | error error => simp [Functor.map, Except.map]
  | ok value => simp [Functor.map, Except.map]

@[simp]
theorem ite_iff {condition : Prop} [Decidable condition] {first second : Outcome α} :
    SparesShape (if condition then first else second) ↔
      (condition → SparesShape first) ∧ (¬condition → SparesShape second) := by
  split
  · simp [*]
  · simp [*]

@[simp]
theorem resolved_iff {unknown : EvaluationError} {answer : Outcome (Option α)} :
    SparesShape (resolved unknown answer) ↔
      SparesShape answer ∧ (answer = .ok none → unknown.blamesShape = false) := by
  unfold resolved
  rw [bind_iff, and_congr_right_iff]
  intro _
  constructor
  · exact fun spares found => throw_iff.mp (spares none found)
  · intro spares found known
    cases found with
    | none => exact throw_iff.mpr (spares known)
    | some value => exact of_pure value

end SparesShape

@[simp]
theorem sparesShape_unlessOverflow {α : Type} (fits : Prop) [Decidable fits] (result : α) :
    SparesShape (unlessOverflow fits result) := by
  simp [unlessOverflow]

@[simp]
theorem sparesShape_requireWords (fits : Prop) [Decidable fits] :
    SparesShape (requireWords fits) :=
  sparesShape_unlessOverflow fits ()

theorem sparesShape_foldlM {α β : Type} {step : α → β → Outcome α}
    (spares : ∀ total item, SparesShape (step total item)) (items : List β) (first : α) :
    SparesShape (items.foldlM step first) := by
  induction items generalizing first with
  | nil => simp
  | cons item rest ih => simp [spares, ih]

/-! ### Operations on words -/

namespace Decimal.Checked

variable (left right number : Decimal)

@[simp]
theorem sparesShape_add : SparesShape (add left right) :=
  sparesShape_unlessOverflow _ _

@[simp]
theorem sparesShape_sub : SparesShape (sub left right) :=
  sparesShape_unlessOverflow _ _

@[simp]
theorem sparesShape_mul : SparesShape (mul left right) :=
  sparesShape_unlessOverflow _ _

@[simp]
theorem sparesShape_power (base : Decimal) (exponent : Nat) : SparesShape (power base exponent) := by
  simp [power_eq]

@[simp]
theorem sparesShape_sameValue : SparesShape (sameValue left right) := by
  simp [sameValue, compare]

@[simp]
theorem sparesShape_isLess : SparesShape (isLess left right) := by
  simp [isLess, compare]

@[simp]
theorem sparesShape_word (size : Int) : SparesShape (word size) :=
  sparesShape_unlessOverflow _ _

@[simp]
theorem sparesShape_setScale (target : Int64) (mode : RoundingMode) :
    SparesShape (setScale number target mode) :=
  sparesShape_unlessOverflow _ _

@[simp]
theorem sparesShape_floor : SparesShape (floor number) :=
  sparesShape_setScale _ _ _

@[simp]
theorem sparesShape_ceiling : SparesShape (ceiling number) :=
  sparesShape_setScale _ _ _

@[simp]
theorem sparesShape_nearestInteger : SparesShape (nearestInteger number) :=
  sparesShape_setScale _ _ _

@[simp]
theorem sparesShape_leadingExponent : SparesShape (leadingExponent number) :=
  sparesShape_word _

@[simp]
theorem sparesShape_roundToPrecision (precision : UInt32) :
    SparesShape (roundToPrecision number precision) := by
  simp [roundToPrecision]

@[simp]
theorem sparesShape_strip : SparesShape (strip number) :=
  sparesShape_unlessOverflow _ _

@[simp]
theorem sparesShape_toInt : SparesShape (toInt number) := by
  simp [toInt]

@[simp]
theorem sparesShape_refuse_iff {α : Type} {error : EvaluationError} :
    SparesShape (refuse error number : Outcome α) ↔
      (number.Reaches 0 → error.blamesShape = false) := by
  by_cases reaches : number.Reaches 0
  · rw [refuse_of_reaches error reaches, SparesShape.error_iff, imp_iff_right reaches]
  · rw [refuse_of_not_reaches error reaches]
    exact iff_of_true (SparesShape.error_iff.mpr rfl) fun holds => absurd holds reaches

@[simp]
theorem sparesShape_toInt64? : SparesShape (toInt64? number) :=
  sparesShape_unlessOverflow _ _

@[simp]
theorem sparesShape_toUInt32? : SparesShape (toUInt32? number) :=
  sparesShape_unlessOverflow _ _

end Decimal.Checked

/-! ### Division and series -/

namespace Decimal

@[simp]
theorem sparesShape_powerOfTen (exponent : Int64) : SparesShape (powerOfTen exponent) := by
  unfold powerOfTen
  split
  · simp
  · simp

@[simp]
theorem sparesShape_divideAtScale (dividend divisor : Decimal) (scale : Int64)
    (mode : RoundingMode) : SparesShape (dividend.divideAtScale divisor scale mode) := by
  simp [divideAtScale]

@[simp]
theorem sparesShape_divideToPrecision (dividend divisor : Decimal) (precision : UInt32) :
    SparesShape (dividend.divideToPrecision divisor precision) := by
  simp [divideToPrecision]

end Decimal

namespace Series

variable {next : Nat → Decimal → Outcome Decimal}

theorem sparesShape_sumAfter (spares : ∀ index term, SparesShape (next index term)) (index : Nat)
    (term sum : Decimal) : SparesShape (sumAfter next index term sum) := by
  fun_induction sumAfter next index term sum with
  | case1 index term sum later =>
      rw [SparesShape.bind_iff]
      refine ⟨spares index term, fun following _ => ?_⟩
      split
      · simp
      · split
        · exact later following (by assumption)
        · simp

theorem sparesShape_sumFrom (spares : ∀ index term, SparesShape (next index term))
    (first : Decimal) : SparesShape (sumFrom next first) := by
  simp [sumFrom, spares, sparesShape_sumAfter spares]

@[simp]
theorem sparesShape_productAt (left right : Decimal) (scale : Int64) :
    SparesShape (productAt left right scale) := by
  simp [productAt]

@[simp]
theorem sparesShape_oddPowersAfter (signs : Signs) (scale : Int64) (square : Decimal) (index : Nat)
    (power sum : Decimal) : SparesShape (oddPowersAfter signs scale square index power sum) := by
  fun_induction oddPowersAfter signs scale square index power sum with
  | case1 index power sum later =>
      rw [SparesShape.bind_iff]
      refine ⟨by simp, fun higher _ => ?_⟩
      split
      · simp
      · rw [SparesShape.bind_iff]
        refine ⟨by simp, fun term _ => ?_⟩
        split
        · simp
        · split
          · exact later higher term (by assumption)
          · simp

@[simp]
theorem sparesShape_oddPowers (signs : Signs) (argument : Decimal) (scale : Int64) :
    SparesShape (oddPowers signs argument scale) := by
  simp [oddPowers]

end Series

/-! ### Elementary functions -/

@[simp]
theorem sparesShape_scaleNear (precision : Precision) (number : Decimal) :
    SparesShape (precision.scaleNear number) := by
  simp [Precision.scaleNear]

namespace Elementary

@[simp]
theorem sparesShape_exp (argument : Decimal) (precision : Precision) :
    SparesShape (exp argument precision) := by
  have series (reduced : Decimal) (scale : Int64) : SparesShape (expSeries reduced scale) :=
    Series.sparesShape_sumFrom (by simp) 1
  simp [exp, expOfPositive, Series.Checked.halveTo, series]

@[simp]
theorem sparesShape_ln (argument : Decimal) (precision : Precision) :
    SparesShape (ln argument precision) := by
  simp [ln, Series.Checked.halveTo, lnOfTen, lnOfTwo, doubledArtanhOfReciprocal]

@[simp]
theorem sparesShape_logToBase (argument base : Decimal) (precision : Precision) :
    SparesShape (logToBase argument base precision) := by
  simp [logToBase]

@[simp]
theorem sparesShape_rootAtScale (radicand : Decimal) (degree : Nat) (scale : Int64) :
    SparesShape (rootAtScale radicand degree scale) := by
  simp [rootAtScale]

@[simp]
theorem sparesShape_root (radicand : Decimal) (degree : UInt32) (precision : Precision) :
    SparesShape (root radicand degree precision) := by
  simp [root, rootOfPositive]

@[simp]
theorem sparesShape_rootOfDegree (radicand degree : Decimal) (precision : Precision) :
    SparesShape (rootOfDegree radicand degree precision) := by
  rw [rootOfDegree]
  cases degree.isZero with
  | true => simp
  | false =>
      cases radicand.isZero with
      | true => simp
      | false =>
          refine SparesShape.bind_iff.mpr ⟨by simp, fun word _ => ?_⟩
          cases word with
          | none => simp
          | some integerDegree => simp

@[simp]
theorem sparesShape_goldenRatio (precision : Precision) : SparesShape (goldenRatio precision) := by
  simp [goldenRatio, sqrt]

@[simp]
theorem sparesShape_pow (base exponent : Decimal) (precision : Precision) :
    SparesShape (pow base exponent precision) := by
  simp [pow, powerOfNonnegative, powerOfNatural]

@[simp]
theorem sparesShape_piAtScale (scale : Int64) : SparesShape (piAtScale scale) := by
  simp [piAtScale]

@[simp]
theorem sparesShape_sinAtScale (angle : Decimal) (scale : Int64) :
    SparesShape (sinAtScale angle scale) := by
  simp [sinAtScale, reducedAngle, circularSeries, Series.sparesShape_sumFrom]

@[simp]
theorem sparesShape_cosAtScale (angle : Decimal) (scale : Int64) :
    SparesShape (cosAtScale angle scale) := by
  simp [cosAtScale, reducedAngle, circularSeries, Series.sparesShape_sumFrom]

@[simp]
theorem sparesShape_atanAtScale (tangent : Decimal) (scale : Int64) :
    SparesShape (atanAtScale tangent scale) := by
  simp [atanAtScale, rightAngle, atanOfUnit, halfAngleTangent]

@[simp]
theorem sparesShape_asinAtScale (sine : Decimal) (scale : Int64) :
    SparesShape (asinAtScale sine scale) := by
  simp [asinAtScale, rightAngle]

end Elementary

namespace AngleUnit

@[simp]
theorem sparesShape_halfTurn (unit : AngleUnit) (precision : Precision) :
    SparesShape (unit.halfTurn precision) := by
  cases unit <;> simp [halfTurn, Elementary.pi]

@[simp]
theorem sparesShape_convert (source target : AngleUnit) (angle : Decimal) (precision : Precision) :
    SparesShape (source.convert target angle precision) := by
  simp [convert]

end AngleUnit

/-! ### Standard resolvers -/

namespace StandardFunction

@[simp]
theorem sparesShape_apply (function : StandardFunction) (argument : Decimal)
    (precision : Precision) : SparesShape (function.apply argument precision) := by
  cases function <;> simp [apply, Elementary.log10, Elementary.sin, Elementary.cos, Elementary.tan,
    Elementary.cot, Elementary.sec, Elementary.csc, Elementary.asin, Elementary.acos,
    Elementary.atan, Elementary.acot, Elementary.asec, Elementary.acsc,
    Elementary.reciprocalOfSecant, Elementary.rightAngle, Elementary.sqrt]

@[simp]
theorem sparesShape_applyWithSuffix (function : StandardFunction) (suffix operand : Decimal)
    (precision : Precision) : SparesShape (function.applyWithSuffix suffix operand precision) := by
  cases function <;> simp [applyWithSuffix]

end StandardFunction

namespace Decimal

@[simp]
theorem sparesShape_factorial (number : Decimal) (step : Nat) :
    SparesShape (number.factorial step) := by
  rw [factorial]
  refine SparesShape.bind_iff.mpr ⟨by simp, fun large _ => ?_⟩
  cases large with
  | true => simp
  | false =>
      refine SparesShape.bind_iff.mpr ⟨by simp, fun word _ => ?_⟩
      cases word with
      | none => simp
      | some value => simp

@[simp]
theorem sparesShape_gcd (left right : Decimal) : SparesShape (Checked.gcd left right) := by
  rw [Checked.gcd]
  fun_induction Magnitude.checkedDivisor left.magnitude right.magnitude with
  | case1 => simp
  | case2 => simp
  | case3 _ _ _ _ _ ih => exact ih
  | case4 _ _ _ _ _ ih => exact ih

@[simp]
theorem sparesShape_gcdOfList (numbers : List Decimal) : SparesShape (gcdOfList numbers) := by
  unfold gcdOfList
  split
  · simp [sparesShape_foldlM]
  · simp

@[simp]
theorem sparesShape_lcmOfList (numbers : List Decimal) : SparesShape (lcmOfList numbers) := by
  have steps (left right : Decimal) : SparesShape (lcm left right) := by
    simp [lcm]
  unfold lcmOfList
  split
  · simp [steps, sparesShape_foldlM]
  · simp

end Decimal

namespace Value

theorem sparesShape_tryMap {transform : Decimal → Outcome Decimal}
    (spares : ∀ number, SparesShape (transform number)) (value : Value) :
    SparesShape (value.tryMap transform) := by
  induction value with
  | number value => simp [tryMap, spares]
  | list items ih =>
      have every : SparesShape (tryMapItems transform items) := by
        induction items with
        | nil => simp [tryMapItems]
        | cons item rest later =>
            have first := ih item List.mem_cons_self
            have others := later fun other member => ih other (List.mem_cons_of_mem item member)
            simp [tryMapItems, first, others]
      simp [tryMap, every]

end Value

namespace Standard

variable {context : Context} {symbol : Char}

theorem sparesShape_combine (symbol : Char) (left right : Decimal) (context : Context) :
    SparesShape (combine symbol left right context) := by
  unfold combine
  split <;> simp

theorem sparesShape_combinePercent (symbol : Char) (base fraction : Decimal) (context : Context) :
    SparesShape (combinePercent symbol base fraction context) := by
  unfold combinePercent
  split <;> simp

theorem sparesShape_brackets (kind : Nat) (content : Decimal) (context : Context) :
    SparesShape (brackets kind content context) := by
  simp [brackets]

theorem sparesShape_suffixes (symbol : Char) (count : Nat) (operand : Decimal) (context : Context) :
    SparesShape (suffixes symbol count operand context) := by
  have turns (unit : AngleUnit) (precision : Precision) (count : Nat) (angle : Decimal) :
      SparesShape (toRadians unit precision count angle) := by
    induction count generalizing angle with
    | zero => simp [toRadians]
    | succ count ih => simp [toRadians, ih]
  simp [suffixes, turns]

theorem sparesShape_functions (name : String) {nameSuffix operand : Option Decimal}
    (applied : nameSuffix.isSome ∨ operand.isSome) (context : Context) :
    SparesShape (functions name nameSuffix operand context) := by
  unfold functions
  cases StandardFunction.ofName? name with
  | none => simp
  | some function =>
      cases nameSuffix with
      | some nameSuffix => cases operand <;> simp
      | none =>
          cases operand with
          | some operand => simp
          | none => simp at applied

theorem sparesShape_listFunctions (name : String) (nameSuffix : Option Decimal) (operand : Value)
    (context : Context) :
    SparesShape (listFunctions name nameSuffix operand functions context) := by
  have every : SparesShape (operand.tryMap fun number =>
      resolved (.unknownFunction name) (functions name nameSuffix (some number) context)) :=
    operand.sparesShape_tryMap fun number => by simp [sparesShape_functions]
  have summed (numbers : List Decimal) : SparesShape (sum numbers) :=
    sparesShape_foldlM (by simp) numbers 0
  unfold listFunctions
  split <;> simp [average, summed, every]

theorem sparesShape_constants (name : String) (context : Context) :
    SparesShape (constants name context) := by
  unfold constants
  split <;> simp [Elementary.pi, Elementary.e]

/-! ### Known symbols -/

theorem map_some_ne_none (outcome : Outcome Decimal) : some <$> outcome ≠ .ok none := by
  cases outcome with
  | error error => nofun
  | ok value => nofun

theorem combine_ne_none (known : symbol ∈ SymbolTables.standard.operatorSymbols)
    (left right : Decimal) : combine symbol left right context ≠ .ok none := by
  have listed : symbol ∈ ['+', '-', '*', '/', '^'] := known
  simp only [List.mem_cons, List.not_mem_nil, or_false] at listed
  rcases listed with rfl | rfl | rfl | rfl | rfl
  · exact map_some_ne_none _
  · exact map_some_ne_none _
  · exact map_some_ne_none _
  · exact map_some_ne_none _
  · exact map_some_ne_none _

theorem brackets_ne_none {kind : Nat}
    (known : kind ∈ SymbolTables.standard.brackets.map (·.kind)) (content : Decimal) :
    brackets kind content context ≠ .ok none := by
  have listed : kind ∈ [roundBrackets, squareBrackets, floorBrackets, ceilingBrackets] := known
  simp only [List.mem_cons, List.not_mem_nil, or_false] at listed
  rcases listed with rfl | rfl | rfl | rfl
  · nofun
  · exact map_some_ne_none _
  · exact map_some_ne_none _
  · exact map_some_ne_none _

theorem suffixes_ne_none (known : symbol ∈ SymbolTables.standard.suffixes) (count : Nat)
    (operand : Decimal) : suffixes symbol count operand context ≠ .ok none := by
  have listed : symbol ∈ [factorialSign, percentSign, degreeSign, gradianSign] := known
  simp only [List.mem_cons, List.not_mem_nil, or_false] at listed
  rcases listed with rfl | rfl | rfl | rfl
  · exact map_some_ne_none _
  · intro missing
    obtain ⟨part, -, reached⟩ := bind_eq_ok_iff.mp missing
    exact map_some_ne_none (Decimal.Checked.mul operand part) reached
  · exact map_some_ne_none _
  · exact map_some_ne_none _

end Standard
end DecimalCalculator
