/-
Results as the evaluation leaves them.
-/

import DecimalCalculator.Evaluation.Walk

namespace DecimalCalculator

/-- Whether a number is in its shortest form with at most so many digits after the point. -/
def Decimal.isFinal (displayScale : UInt32) (number : Decimal) : Bool :=
  decide (number.strip = number) && decide (number.scale ≤ Int64.ofNat displayScale.toNat)

namespace Value

/-! ### Shape -/

mutual

/-- Whether a value can stand inside a result: no list in it, itself included, holds a
number alone, because a scalar is its number there. -/
def isItem : Value → Bool
  | .number _ => true
  | .list items => !(Value.list items).isScalar && areItems items

def areItems : List Value → Bool
  | [] => true
  | item :: rest => item.isItem && areItems rest

end

/-- Whether a value is a list of items.  The list of one number is a scalar. -/
def isResult : Value → Bool
  | .number _ => false
  | .list items => areItems items

/-! ### Final form -/

mutual

/-- Whether a value is an item that is told apart in writing: a number in final
form, or a list of at least two such items. -/
def isFinalItem (displayScale : UInt32) : Value → Bool
  | .number value => value.isFinal displayScale
  | .list items => decide (2 ≤ items.length) && areFinalItems displayScale items

def areFinalItems (displayScale : UInt32) : List Value → Bool
  | [] => true
  | item :: rest => item.isFinalItem displayScale && areFinalItems displayScale rest

end

/-- Whether a value is the scalar of a number in final form or a list that is an
item. -/
def isFinal (displayScale : UInt32) : Value → Bool
  | .list [.number value] => value.isFinal displayScale
  | .list items => isFinalItem displayScale (.list items)
  | .number _ => false

end Value
end DecimalCalculator
