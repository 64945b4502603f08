import SearchCommands.Grammar.Scan

/-!
# Reading an input

Reading finds the occurrences of all fields, checks the rules of every field against them and then
gives each field its value. The leftover is what no occurrence covers, with or without success.
-/

namespace SearchCommands

/-- What an input gives for the fields of a grammar. -/
structure Reading where
  /-- The value of every field, in the order of declaration. -/
  values : List (String × FieldValue)
  /-- The occurrences of the fields, in the order of the input. -/
  captures : Captures
  /-- The text that no occurrence covers, trimmed. -/
  leftover : String
  deriving DecidableEq, Repr

namespace Reading

/-- The value of a field, if the field is declared. -/
def value? (reading : Reading) (field : String) : Option FieldValue :=
  reading.values.lookup field

/-- Whether the input has anything for a field. -/
def isMatched (reading : Reading) (field : String) : Bool :=
  (reading.value? field).any FieldValue.isPresent

/-- The fields for which the input has anything, with their values. -/
def matched (reading : Reading) : List (String × FieldValue) :=
  reading.values.filter fun entry => entry.2.isPresent

end Reading

namespace Grammar

/-- The occurrences of fields in an input, in bytes. -/
def captures (grammar : Grammar) (input : String) : Captures :=
  (grammar.tokens input).map Token.capture

/-- The text of an input that no occurrence covers, trimmed. -/
def leftover (grammar : Grammar) (input : String) : String :=
  String.ofList (Text.trim (Token.uncovered (Cursor.ofText input.toList) (grammar.tokens input)))

/-- The reason of the first rule that does not hold: fields in the order of declaration, the rules
of a field in the order in which they were attached. -/
def rejection? (grammar : Grammar) (captures : Captures) : Option Rejection :=
  grammar.fields.findSome? fun field => field.rejection? captures

/-- The value of every field, given all occurrences. -/
def values (grammar : Grammar) (captures : Captures) : List (String × FieldValue) :=
  grammar.fields.map fun field =>
    (field.name, FieldValue.ofCaptured (captures.valuesOf field.name))

/-- Reads an input, or refuses it for the first rule that does not hold. -/
def read (grammar : Grammar) (input : String) : Except Failure Reading :=
  let captures := grammar.captures input
  let leftover := grammar.leftover input
  match grammar.rejection? captures with
  | some reason => .error ⟨.rejected reason, leftover⟩
  | none => .ok ⟨grammar.values captures, captures, leftover⟩

end Grammar

end SearchCommands
