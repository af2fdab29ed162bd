/-
Results of evaluation: a number, or a list whose items are results again.

A list that holds exactly one number stands for a scalar.  Evaluation always
produces a list at the top, and operations on a result work number by number
while the nesting of the lists stays as it is.
-/

import DecimalCalculator.Error

namespace DecimalCalculator

inductive Value where
  | number (value : Decimal)
  | list (items : List Value)
  deriving Inhabited, Repr

namespace Value

/-- A property of all values, from the step from the items of a list to the list. -/
@[elab_as_elim, induction_eliminator]
theorem induction {motive : Value → Prop} (number : ∀ value, motive (.number value))
    (list : ∀ items, (∀ item ∈ items, motive item) → motive (.list items))
    (value : Value) : motive value :=
  @Value.rec motive (fun items => ∀ item ∈ items, motive item) number list
    (fun _ absent => nomatch absent)
    (fun _ _ first rest => List.forall_mem_cons.mpr ⟨first, rest⟩)
    value

/-! ### Scalars -/

def scalar (value : Decimal) : Value :=
  .list [.number value]

/-- The number of a scalar.  A bare number is not a scalar. -/
def scalar? : Value → Option Decimal
  | .list [.number value] => some value
  | _ => none

def isScalar (value : Value) : Bool :=
  value.scalar?.isSome

/-! ### Traversal -/

mutual

/-- Applies a function that cannot fail to every number and keeps the nesting. -/
def map (transform : Decimal → Decimal) : Value → Value
  | .number value => .number (transform value)
  | .list items => .list (mapItems transform items)

def mapItems (transform : Decimal → Decimal) : List Value → List Value
  | [] => []
  | item :: rest => item.map transform :: mapItems transform rest

end

mutual

/-- Applies a function to every number, from left to right, and keeps the
nesting.  The first failure is the result. -/
def tryMap {ε : Type} (transform : Decimal → Except ε Decimal) : Value → Except ε Value
  | .number value => do return .number (← transform value)
  | .list items => do return .list (← tryMapItems transform items)

def tryMapItems {ε : Type} (transform : Decimal → Except ε Decimal) :
    List Value → Except ε (List Value)
  | [] => return []
  | item :: rest => do
      let item ← item.tryMap transform
      let rest ← tryMapItems transform rest
      return item :: rest

end

mutual

/-- All numbers of the value and of its nested lists, from left to right. -/
def flatten : Value → List Decimal
  | .number value => [value]
  | .list items => flattenItems items

def flattenItems : List Value → List Decimal
  | [] => []
  | item :: rest => item.flatten ++ flattenItems rest

end

mutual

/-- Equality of shape and of the values of the numbers, whatever their forms. -/
def sameValue : Value → Value → Bool
  | .number left, .number right => left.sameValue right
  | .list left, .list right => sameItems left right
  | .number _, .list _ => false
  | .list _, .number _ => false

def sameItems : List Value → List Value → Bool
  | [], [] => true
  | left :: leftRest, right :: rightRest =>
      left.sameValue right && sameItems leftRest rightRest
  | [], _ :: _ => false
  | _ :: _, [] => false

end

/-! ### Written form -/

mutual

/-- Text of the value with a given text for numbers: a scalar is its number, any
other list is written between round brackets, its items separated by a
semicolon and a space. -/
def render (numberText : Decimal → String) : Value → String
  | .number value => numberText value
  | .list [.number value] => numberText value
  | .list items => "(" ++ "; ".intercalate (renderItems numberText items) ++ ")"

def renderItems (numberText : Decimal → String) : List Value → List String
  | [] => []
  | item :: rest => item.render numberText :: renderItems numberText rest

end

def toText (value : Value) : String :=
  value.render Decimal.toText

instance : ToString Value :=
  ⟨toText⟩

mutual

/-- Text that shows the constructors and so tells a scalar from a bare number. -/
def debugText : Value → String
  | .number value => s!"Number({value})"
  | .list items => "List([" ++ ", ".intercalate (debugItems items) ++ "])"

def debugItems : List Value → List String
  | [] => []
  | item :: rest => item.debugText :: debugItems rest

end

end Value
end DecimalCalculator
