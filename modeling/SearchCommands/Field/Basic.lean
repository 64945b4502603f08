import SearchCommands.Capture
import SearchCommands.Text.Alphanumeric
import SearchCommands.Text.Blank

/-!
# Fields

A field is declared with a name, what it reads, the aliases that introduce it and the rules that
guard it. A text field without aliases is positional: it reads the start of the input. Rules are
checked against the captures of all fields, before any value is read, and a rule that does not hold
says why the command is refused.
-/

namespace SearchCommands

/-- A rule of a field. -/
inductive Rule where
  /-- The field occurs at most so often. A range is two occurrences. -/
  | atMost (limit : Nat)
  /-- The field and the other one do not both occur. -/
  | excludes (other : String)
  /-- A rule of the developer's own, given what it asks of a field and of the captures, what it
  says when it does not hold, and the other fields that it looks at. -/
  | custom (holds : String → Captures → Bool) (message : String → String)
      (references : List String)

namespace Rule

/-- Whether the rule holds for a field. -/
def holds : Rule → String → Captures → Bool
  | atMost limit, field, captures => captures.countOf field ≤ limit
  | excludes other, field, captures => !(captures.has field && captures.has other)
  | custom holds _ _, field, captures => holds field captures

/-- Why a command is refused for which the rule does not hold. -/
def rejection : Rule → String → Rejection
  | atMost limit, field => .tooMany field limit
  | excludes other, field => .conflict field other
  | custom _ message _, field => .stated (message field)

/-- The other fields that the rule looks at. -/
def references : Rule → List String
  | atMost _ => []
  | excludes other => [other]
  | custom _ _ references => references

end Rule

/-- What a field reads. -/
inductive FieldKind where
  /-- One of the aliases alone. -/
  | flag
  /-- An alias and a word, or a text in quotation marks if `quotable` is set. -/
  | text (quotable : Bool)
  /-- An alias, an operator and a number; with a minus sign only if `signed` is set, and with
  digits after a point unless `whole` is set. -/
  | number (signed whole : Bool)
  deriving DecidableEq, Repr

/-- The kind with its options, as it is shown to developers. -/
def FieldKind.debugText : FieldKind → String
  | flag => "Flag"
  | text quotable => "FreeText \x7b allow_quoted_multi_word: " ++ toString quotable ++ " \x7d"
  | number signed whole =>
      "NumberComparison \x7b sign: " ++ (if signed then "Signed" else "PositiveOnly") ++
        ", integer_only: " ++ toString whole ++ " \x7d"

/-- A declared field. -/
structure Field where
  name : String
  kind : FieldKind
  aliases : List String
  rules : List Rule

namespace Field

/-- Whether the field has no aliases and so reads the start of the input. -/
def isPositional (field : Field) : Bool := field.aliases.isEmpty

/-- The reason of the first rule of the field that does not hold. -/
def rejection? (field : Field) (captures : Captures) : Option Rejection :=
  (field.rules.find? fun rule => !rule.holds field.name captures).map fun rule =>
    rule.rejection field.name

/-- Whether two underscores follow each other. -/
def hasDoubleUnderscore : List Char → Bool
  | '_' :: '_' :: _ => true
  | _ :: rest => hasDoubleUnderscore rest
  | [] => false

/-- Whether a text can name a field: an ASCII identifier without two underscores in a row, which
are reserved for the names of the parts of a field. -/
def isName (name : String) : Bool :=
  match name.toList with
  | [] => false
  | first :: rest =>
      (first.isAlpha || first == '_') && rest.all (fun c => c.isAlphanum || c == '_') &&
        !hasDoubleUnderscore (first :: rest)

/-- Whether a text can introduce a field: it has no blank and is not empty. -/
def isAlias (name : String) : Bool :=
  !name.toList.isEmpty && !name.toList.any Text.isBlank

/-- The first mistake in a field, given all fields of the declaration and those before this one. -/
def fault? (all earlier : List Field) (field : Field) : Option DeclarationError :=
  if !isName field.name then some (.invalidFieldName field.name)
  else if earlier.any (fun other => other.name == field.name) then
    some (.duplicateField field.name)
  else if field.isPositional && !(field.kind matches .text _) then some (.missingAlias field.name)
  else
    match field.aliases.find? fun name => !isAlias name with
    | some name => some (.invalidAlias name field.name)
    | none =>
        ((field.rules.flatMap Rule.references).find? fun name =>
          !all.any fun other => other.name == name).map (.unknownField .validationRule)

/-- The first mistake in the fields that follow the earlier ones. -/
def faultAfter? (all : List Field) (earlier : List Field) : List Field → Option DeclarationError
  | [] => none
  | field :: rest => (field.fault? all earlier).or (faultAfter? all (earlier ++ [field]) rest)

/-- The first mistake in a declaration, field by field. -/
def firstFault? (fields : List Field) : Option DeclarationError := faultAfter? fields [] fields

end Field

end SearchCommands
