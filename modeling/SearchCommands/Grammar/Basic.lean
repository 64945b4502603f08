import SearchCommands.Field.Pattern

/-!
# Grammars

A grammar is a list of fields without mistakes. Its pattern is the choice among the patterns of its
fields: fields with aliases come first, so that `c>10` at the start of the input is a number rather
than a positional text.
-/

namespace SearchCommands

/-- A declaration of fields without mistakes. -/
structure Grammar where
  /-- The fields in the order of declaration. -/
  fields : List Field
  /-- There is no mistake in the declaration. -/
  accepted : Field.firstFault? fields = none

namespace Grammar

/-- The grammar of the given fields, or the first mistake in them. -/
def ofFields (fields : List Field) : Except DeclarationError Grammar :=
  match accepted : Field.firstFault? fields with
  | none => .ok ⟨fields, accepted⟩
  | some fault => .error fault

/-- The field of a name. -/
def field? (grammar : Grammar) (name : String) : Option Field :=
  grammar.fields.find? fun field => field.name == name

/-- The fields in the order in which they are tried at a place. -/
def tried (fields : List Field) : List Field :=
  fields.filter (fun field => !field.isPositional) ++ fields.filter Field.isPositional

/-- The choice among the patterns of all fields. -/
def pattern (grammar : Grammar) : Pattern :=
  Pattern.anyOf ((tried grammar.fields).map Field.pattern)

/-- The pattern in the notation of regular expressions. -/
def source (grammar : Grammar) : String := grammar.pattern.source

end Grammar

end SearchCommands
