import SearchCommands.FieldValue
import SearchCommands.Number.Shortest
import SearchCommands.Text.Blank

/-!
# Filters

A filter constrains a number by one bound or by a range of two. A range holds its bounds in the
order of their values, whatever order they were given in. Building a filter from a typed comparison
checks first that the operators can be combined and then that the numbers are finite numbers.

A consumer puts filters into a query as conditions on the columns of a relation. A bound is one
condition, and the conditions of a filter are joined to one clause.
-/

namespace SearchCommands

open Number

instance : BEq (Bound Binary32) :=
  ⟨fun a b => a.operator == b.operator && a.value == b.value⟩

/-- Two bounds, the upper one not below the lower one. -/
structure Range where
  lower : Bound Binary32
  upper : Bound Binary32
  ordered : ¬ upper.value < lower.value
  deriving DecidableEq

namespace Range

/-- The range of two bounds. They are exchanged unless the first value is at most the second. -/
def of (first second : Bound Binary32) : Range :=
  if atMost : first.value ≤ second.value then
    ⟨first, second, Binary32.not_lt_of_le atMost⟩
  else
    ⟨second, first, fun less => atMost (Binary32.le_of_lt less)⟩

/-- The bounds, the lower one first. -/
def bounds (range : Range) : List (Bound Binary32) := [range.lower, range.upper]

/-- The bounds as they stand in a command. -/
def text (range : Range) : String := " ".intercalate (range.bounds.map Bound.text)

instance : BEq Range := ⟨fun a b => a.lower == b.lower && a.upper == b.upper⟩

end Range

/-- A constraint on a number. -/
inductive Filter where
  | single (bound : Bound Binary32)
  | between (range : Range)
  deriving DecidableEq

namespace Filter

/-- The bounds of the filter, the lower one first. -/
def bounds : Filter → List (Bound Binary32)
  | single bound => [bound]
  | between range => range.bounds

/-- Whether the filter is a range. -/
def isRange : Filter → Bool
  | single _ => false
  | between _ => true

/-- The bounds as they stand in a command. -/
def text (filter : Filter) : String := " ".intercalate (filter.bounds.map Bound.text)

instance : BEq Filter where
  beq
    | single left, single right => left == right
    | between left, between right => left == right
    | _, _ => false

/-- Why the operators of two bounds cannot be combined, if they cannot. -/
def operatorFault? (first second : Bound String) : Option Rejection :=
  if first.operator.isExact || second.operator.isExact then some (.exactInRange first second)
  else if first.operator.boundsAbove && second.operator.boundsAbove then
    some (.bothAbove first second)
  else if first.operator.boundsBelow && second.operator.boundsBelow then
    some (.bothBelow first second)
  else none

/-- Reads the number of a typed bound, which has to be finite. Blanks around it do not count. -/
def readBound (bound : Bound String) : Except Rejection (Bound Binary32) :=
  let text := String.ofList (Text.trim bound.value.toList)
  match Binary32.read? text with
  | some value =>
      if value.isFinite then .ok ⟨bound.operator, value⟩ else .error (.notANumber text)
  | none => .error (.notANumber text)

/-- The filter that a typed comparison asks for, or the first reason why there is none: operators
that cannot be combined, then the first number, then the second. -/
def ofComparison : Comparison → Except Rejection Filter
  | .single bound => do
      let bound ← readBound bound
      return single bound
  | .pair first second =>
      match operatorFault? first second with
      | some fault => .error fault
      | none => do
          let first ← readBound first
          let second ← readBound second
          return between (Range.of first second)

end Filter

/-- A condition on a column of a relation. -/
structure Condition where
  relation : String
  column : String
  bound : Bound Number.Binary32

/-- The symbol of the operator in a query, where a bare value asks for equality. -/
def Operator.querySymbol : Operator → String
  | .absent => "="
  | operator => operator.symbol

/-- The condition as it stands in a query. -/
def Condition.text (condition : Condition) : String :=
  condition.relation ++ "." ++ condition.column ++ " " ++
    condition.bound.operator.querySymbol ++ " " ++ condition.bound.value.text

namespace Filter

/-- The conditions of the filter on a column, the lower bound first. -/
def conditions (filter : Filter) (relation column : String) : List Condition :=
  filter.bounds.map fun bound => ⟨relation, column, bound⟩

/-- The conditions of the filter on a column, joined to one clause. -/
def clause (filter : Filter) (relation column : String) : String :=
  " AND ".intercalate ((filter.conditions relation column).map Condition.text)

/-- The clause of a filter that may be absent; an absent filter has an empty clause. -/
def clauseOf (filter : Option Filter) (relation column : String) : String :=
  (filter.map fun filter => filter.clause relation column).getD ""

end Filter

end SearchCommands
