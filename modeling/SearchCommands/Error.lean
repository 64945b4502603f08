import SearchCommands.Comparison
import SearchCommands.Text.Quoted

/-!
# Errors

There are two families of errors. A command that a user typed can be refused; the failure keeps the
part of the command that nothing consumed. A declaration of fields can be wrong; that is found when
the declaration is made, before any command is read. In both families an error is a cause, and one
function gives its wording.
-/

namespace SearchCommands

/-- The sorts of values that a field can have. -/
inductive ValueSort where
  | missing
  | flag
  | text
  | comparison
  deriving DecidableEq, Repr

/-- What a value of the sort is called in messages. -/
def ValueSort.description : ValueSort → String
  | missing => "no match"
  | flag => "a flag"
  | text => "a text value"
  | comparison => "a number comparison"

/-- Why a command is refused. -/
inductive Rejection where
  /-- A field was captured more often than allowed. -/
  | tooMany (field : String) (limit : Nat)
  /-- Two fields were captured that exclude each other. -/
  | conflict (field other : String)
  /-- A field has a value of another sort than expected. -/
  | mismatch (expected : ValueSort) (field : String) (found : ValueSort)
  /-- One of two bounds asks for one number alone. -/
  | exactInRange (first second : Bound String)
  /-- Two bounds bound a number from above. -/
  | bothAbove (first second : Bound String)
  /-- Two bounds bound a number from below. -/
  | bothBelow (first second : Bound String)
  /-- A text is no finite number. -/
  | notANumber (text : String)
  /-- A reason given in words. -/
  | stated (message : String)
  deriving DecidableEq, Repr

/-- The wording of a reason. -/
def Rejection.message : Rejection → String
  | tooMany field limit =>
      s!"Number of matches for '{field}' exceeded the maximum amount: {limit}"
  | conflict field other => s!"A match for both groups '{field}' and '{other}' isn't allowed"
  | mismatch expected field found =>
      s!"Expected {expected.description} for '{field}', found {found.description}"
  | exactInRange first second =>
      s!"'{first}' and '{second}' can't be combined: '=' only works on its own"
  | bothAbove first second => s!"'{first}' and '{second}' can't be combined: both contain '<'"
  | bothBelow first second => s!"'{first}' and '{second}' can't be combined: both contain '>'"
  | notANumber text => s!"'{text}' is not a valid number"
  | stated message => message

/-- Why handling a command failed. Reading a command only ever rejects it; the other errors are for
the bindings that act on what was read. -/
inductive CommandError where
  /-- Nothing is known about the cause. -/
  | unspecified
  /-- Something that the command asks for does not exist. -/
  | notFound
  /-- The command was called with wrong arguments. -/
  | invalidArguments (message : String)
  /-- A failure from elsewhere: its cause, and the circumstances that were added to it one after
  the other. -/
  | exceptional (cause : String) (circumstances : List String)
  /-- The command is refused. -/
  | rejected (reason : Rejection)
  deriving DecidableEq, Repr

namespace CommandError

/-- The outermost description of a failure from elsewhere: what was added last. -/
def outermost (cause : String) (circumstances : List String) : String :=
  circumstances.getLast?.getD cause

/-- All descriptions of a failure from elsewhere, the outermost first. -/
def chain (cause : String) (circumstances : List String) : String :=
  ": ".intercalate (cause :: circumstances).reverse

/-- The wording of an error. -/
def message : CommandError → String
  | unspecified => "unspecified error"
  | notFound => "not found"
  | invalidArguments message => s!"invalid arguments: {message}"
  | exceptional cause circumstances => s!"exceptional error: {outermost cause circumstances}"
  | rejected reason => reason.message

/-- The wording of the reason, if the command is refused. -/
def rejection? : CommandError → Option String
  | rejected reason => some reason.message
  | _ => none

/-- The description of the failure behind the error, if there is one. -/
def source? : CommandError → Option String
  | exceptional cause circumstances => some (outermost cause circumstances)
  | _ => none

/-- Whether two errors are of one kind and say the same. -/
def saysSame : CommandError → CommandError → Bool
  | unspecified, unspecified => true
  | notFound, notFound => true
  | invalidArguments left, invalidArguments right => left == right
  | exceptional cause circumstances, exceptional cause' circumstances' =>
      chain cause circumstances == chain cause' circumstances'
  | rejected left, rejected right => left.message == right.message
  | _, _ => false

end CommandError

/-- An error together with the text that nothing consumed. -/
structure Failure where
  error : CommandError
  leftover : String
  deriving DecidableEq, Repr

/-- The wording of a failure is that of its error. -/
def Failure.message (failure : Failure) : String := failure.error.message

/-- What a declaration refers to a field for. -/
inductive ReferenceContext where
  | validationRule
  | setter
  deriving DecidableEq, Repr

/-- What a reference is called in messages. -/
def ReferenceContext.description : ReferenceContext → String
  | validationRule => "validation rule"
  | setter => "setter"

/-- A mistake in a declaration. -/
inductive DeclarationError where
  /-- A field name is no identifier. -/
  | invalidFieldName (field : String)
  /-- Two fields have one name. -/
  | duplicateField (field : String)
  /-- A field that is no text has no alias. -/
  | missingAlias (field : String)
  /-- An alias is empty or contains a blank. -/
  | invalidAlias (name field : String)
  /-- A rule or a setter is for a field that is not declared. -/
  | unknownField (context : ReferenceContext) (field : String)
  /-- A field has two setters. -/
  | duplicateSetter (field : String)
  deriving DecidableEq, Repr

/-- The wording of a mistake. Names stand in quotation marks, so that blanks and controls show. -/
def DeclarationError.message : DeclarationError → String
  | invalidFieldName field =>
      s!"field name {Text.quoted field} must be a non-empty ASCII identifier"
  | duplicateField field => s!"field {Text.quoted field} is declared twice"
  | missingAlias field => s!"field {Text.quoted field} needs at least one alias"
  | invalidAlias name field =>
      s!"alias {Text.quoted name} of field {Text.quoted field} must not be empty or contain whitespace"
  | unknownField context field =>
      s!"{context.description} refers to unknown field {Text.quoted field}"
  | duplicateSetter field => s!"field {Text.quoted field} already has a setter"

end SearchCommands
