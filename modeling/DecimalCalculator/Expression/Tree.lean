/-
Expression trees: what an expression means before any number is computed.
-/

namespace DecimalCalculator

/-- An expression.  A suffix operator or a function may lack its operand, and a
function may carry a suffix of its own, as the base in log2(8). -/
inductive Expression where
  /-- A decimal literal as it is written. -/
  | number (text : String)
  | operator (symbol : Char) (left right : Expression)
  | negative (operand : Expression)
  | brackets (kind : Nat) (content : Expression)
  /-- A suffix operator repeated `count` times, as in 5!!. -/
  | suffix (symbol : Char) (count : Nat) (operand : Option Expression)
  | function (name : String) (suffix operand : Option Expression)
  | constant (name : String)
  | list (items : List Expression)
  deriving Inhabited, Repr

namespace Expression

/-- A property of all trees, from the step from the children of a node to the node. -/
@[elab_as_elim, induction_eliminator]
theorem induction {motive : Expression → Prop} (number : ∀ text, motive (.number text))
    (operator : ∀ symbol left right, motive left → motive right →
      motive (.operator symbol left right))
    (negative : ∀ operand, motive operand → motive (.negative operand))
    (brackets : ∀ kind content, motive content → motive (.brackets kind content))
    (suffix : ∀ symbol count operand, (∀ inner ∈ operand, motive inner) →
      motive (.suffix symbol count operand))
    (function : ∀ name nameSuffix operand, (∀ inner ∈ nameSuffix, motive inner) →
      (∀ inner ∈ operand, motive inner) → motive (.function name nameSuffix operand))
    (constant : ∀ name, motive (.constant name))
    (list : ∀ items, (∀ item ∈ items, motive item) → motive (.list items))
    (expression : Expression) : motive expression :=
  @Expression.rec motive (fun optional => ∀ inner ∈ optional, motive inner)
    (fun items => ∀ item ∈ items, motive item)
    number operator negative brackets suffix function constant list
    (fun _ absent => nomatch absent)
    (fun _ inside _ same => Option.some.inj same ▸ inside)
    (fun _ absent => nomatch absent)
    (fun _ _ first rest => List.forall_mem_cons.mpr ⟨first, rest⟩)
    expression

/-- Whether the outermost node is the given suffix operator. -/
def isSuffix (symbol : Char) : Expression → Bool
  | .suffix outermost _ _ => outermost == symbol
  | _ => false

end Expression
end DecimalCalculator
