import SearchCommands.FieldValue

/-!
# Captures

A capture is one occurrence of a field in the input: the field, the bytes that it covers and the
value that they give.
-/

namespace SearchCommands

/-- One occurrence of a field. -/
structure Capture where
  /-- The name of the field. -/
  field : String
  /-- The number of bytes before the occurrence, which includes the blanks that introduce it. -/
  start : Nat
  /-- The number of bytes up to the end of the occurrence. -/
  stop : Nat
  /-- The value of this occurrence alone. -/
  value : FieldValue
  deriving DecidableEq, Repr

/-- The occurrences of all fields, in the order of the input. -/
abbrev Captures := List Capture

namespace Captures

/-- The number of occurrences of a field. -/
def countOf (captures : Captures) (field : String) : Nat :=
  captures.countP fun capture => capture.field == field

/-- Whether a field occurs. -/
def has (captures : Captures) (field : String) : Bool :=
  captures.any fun capture => capture.field == field

/-- The values of the occurrences of a field. -/
def valuesOf (captures : Captures) (field : String) : List FieldValue :=
  (captures.filter fun capture => capture.field == field).map Capture.value

theorem has_iff_countOf_pos {captures : Captures} {field : String} :
    captures.has field = true ↔ 0 < captures.countOf field := by
  simp [has, countOf, List.countP_pos_iff]

end Captures

end SearchCommands
