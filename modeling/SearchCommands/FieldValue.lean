import SearchCommands.Comparison
import SearchCommands.Error

/-!
# Values of fields

What the input gave for one field. A binding that only understands one sort of value asks for that
sort and is refused with a reason if the value is of another.
-/

namespace SearchCommands

/-- The value of a field. -/
inductive FieldValue where
  /-- The input had nothing for the field. -/
  | missing
  /-- A flag was present. -/
  | flag
  /-- A text, without the quotation marks and blanks around it. -/
  | text (text : String)
  /-- One or two bounds. -/
  | comparison (comparison : Comparison)
  deriving DecidableEq, Repr

namespace FieldValue

/-- The sort of a value. -/
def sort : FieldValue → ValueSort
  | missing => .missing
  | flag => .flag
  | text _ => .text
  | comparison _ => .comparison

/-- Whether the input had anything for the field. -/
def isPresent : FieldValue → Bool
  | missing => false
  | _ => true

/-- The text, if the value is one. -/
def text? : FieldValue → Option String
  | text value => some value
  | _ => none

/-- The comparison, if the value is one. -/
def comparison? : FieldValue → Option Comparison
  | comparison value => some value
  | _ => none

/-- The value as a text, or the reason why it is none. -/
def requireText (value : FieldValue) (field : String) : Except Rejection String :=
  match value with
  | text content => .ok content
  | other => .error (.mismatch .text field other.sort)

/-- The value as a comparison, or the reason why it is none. -/
def requireComparison (value : FieldValue) (field : String) : Except Rejection Comparison :=
  match value with
  | comparison content => .ok content
  | other => .error (.mismatch .comparison field other.sort)

/-- Whether a flag was present, or the reason why the value is no flag. -/
def requireFlag (value : FieldValue) (field : String) : Except Rejection Bool :=
  match value with
  | flag => .ok true
  | missing => .ok false
  | other => .error (.mismatch .flag field other.sort)

/-- The value of a field with the given captured values, in the order of the input. Two comparisons
make a range; of everything else the first one counts. -/
def ofCaptured : List FieldValue → FieldValue
  | [] => missing
  | comparison first :: second :: _ =>
      match second.comparison? with
      | some other => comparison (.pair first.primary other.primary)
      | none => comparison first
  | first :: _ => first

end FieldValue

end SearchCommands
