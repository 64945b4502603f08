/-!
# Comparisons

A comparison is what a user types to constrain a number: an operator and a number, or two of them
for one field, as in `c>8 c<20`. The number is kept as it was typed; reading it comes later.
-/

namespace SearchCommands

/-- The operators that compare a number with a bound. -/
inductive Operator where
  /-- No operator was given. -/
  | absent
  | less
  | lessOrEqual
  | equal
  | greater
  | greaterOrEqual
  deriving DecidableEq, Repr

namespace Operator

/-- The operator that a symbol stands for; a text that is no symbol stands for none. -/
def ofSymbol : String → Operator
  | "<" => less
  | "<=" => lessOrEqual
  | "=" => equal
  | ">" => greater
  | ">=" => greaterOrEqual
  | _ => absent

/-- The symbol of the operator, empty for an absent one. -/
def symbol : Operator → String
  | absent => ""
  | less => "<"
  | lessOrEqual => "<="
  | equal => "="
  | greater => ">"
  | greaterOrEqual => ">="

/-- The name of the operator in documents. -/
def name : Operator → String
  | absent => "none"
  | less => "less"
  | lessOrEqual => "less_or_equal"
  | equal => "equal"
  | greater => "greater"
  | greaterOrEqual => "greater_or_equal"

/-- Whether the operator bounds a number from above. -/
def boundsAbove : Operator → Bool
  | less | lessOrEqual => true
  | _ => false

/-- Whether the operator bounds a number from below. -/
def boundsBelow : Operator → Bool
  | greater | greaterOrEqual => true
  | _ => false

/-- Whether the operator asks for one number alone. -/
def isExact : Operator → Bool
  | absent | equal => true
  | _ => false

theorem ofSymbol_symbol (operator : Operator) : ofSymbol operator.symbol = operator := by
  cases operator <;> rfl

end Operator

instance : Inhabited Operator := ⟨.absent⟩

/-- An operator with the value that it compares with. -/
structure Bound (α : Type) where
  operator : Operator
  value : α
  deriving DecidableEq, Repr

/-- The text of a bound, as in `<=5`. -/
def Bound.text [ToString α] (bound : Bound α) : String :=
  bound.operator.symbol ++ toString bound.value

instance [ToString α] : ToString (Bound α) := ⟨Bound.text⟩

/-- One bound, or two that were typed for one field, in the order of typing. -/
inductive Comparison where
  | single (bound : Bound String)
  | pair (first second : Bound String)
  deriving DecidableEq, Repr

namespace Comparison

/-- The bound that was typed first. -/
def primary : Comparison → Bound String
  | single bound => bound
  | pair first _ => first

/-- Whether there are two bounds. -/
def isRange : Comparison → Bool
  | single _ => false
  | pair _ _ => true

/-- The bounds in the order of typing. -/
def bounds : Comparison → List (Bound String)
  | single bound => [bound]
  | pair first second => [first, second]

/-- The bounds, as they were typed. -/
def text (comparison : Comparison) : String :=
  " ".intercalate (comparison.bounds.map Bound.text)

end Comparison

end SearchCommands
