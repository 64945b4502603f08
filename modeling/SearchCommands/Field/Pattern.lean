import SearchCommands.Field.Basic
import SearchCommands.Pattern

/-!
# The pattern of a field

A field occurs at the start of the input or after blanks, and before a blank or at the end. The
blanks before an occurrence belong to it, the one after it does not, so that the next occurrence
finds its own. The parts of an occurrence are captured under the name of the field with a suffix
that no field name can have.
-/

namespace SearchCommands

open Pattern

namespace FieldPattern

/-- The start of the input or blanks. -/
def opening : Pattern := grouped (orElse inputStart (oneOrMore .blank))

/-- A blank or the end of the input. -/
def closing : Pattern := grouped (orElse (one .blank) inputEnd)

/-- The order in which aliases are tried: the longest in bytes first, equally long ones in the order
of their code points. -/
def precedes (left right : String) : Bool :=
  Text.byteLength right.toList < Text.byteLength left.toList ||
    (Text.byteLength left.toList == Text.byteLength right.toList && left ≤ right)

/-- Puts an alias where it belongs among aliases in that order. -/
def insertAlias (name : String) : List String → List String
  | [] => [name]
  | other :: rest =>
      if precedes name other then name :: other :: rest else other :: insertAlias name rest

theorem insertAlias_perm (name : String) (names : List String) :
    (insertAlias name names).Perm (name :: names) := by
  induction names with
  | nil => exact .refl _
  | cons other rest ih =>
      unfold insertAlias
      split
      · exact .refl _
      · exact (ih.cons other).trans (.swap ..)

/-- The aliases in the order in which they are tried. -/
def sortAliases (names : List String) : List String := names.foldr insertAlias []

/-- Each of the aliases is tried as often as it is declared, and nothing else is. -/
theorem sortAliases_perm (names : List String) : (sortAliases names).Perm names := by
  induction names with
  | nil => exact .refl _
  | cons name rest ih => exact (insertAlias_perm name (sortAliases rest)).trans (ih.cons name)

/-- One alias. Where it ends in a letter or a number, a word has to end with it. -/
def oneAlias (name : String) : Pattern :=
  if name.toList.getLast?.any fun c => Text.isAlphanumeric c || c == '_' then
    andThen (literal name.toList) wordEdge
  else literal name.toList

/-- Any of the aliases, in any letter case. -/
def anyAlias (names : List String) : Pattern :=
  anyCase (anyOf ((sortAliases names).map oneAlias))

/-- A word that starts with no minus sign. -/
def bareWord : Pattern := andThen (one .bareStart) (anyNumber .bare)

/-- A text in quotation marks. -/
def quotedText : Pattern :=
  inOrder [literal ['"'], anyNumber .betweenQuotes, literal ['"']]

/-- The value of a text field. -/
def textValue (quotable : Bool) : Pattern :=
  if quotable then orElse quotedText bareWord else bareWord

/-- The operators; where one starts with another, the longer one is tried first. -/
def operators : Pattern :=
  anyOf ([['<', '='], ['>', '='], ['<'], ['>'], ['=']].map literal)

/-- A point and digits. -/
def pointDigits : Pattern := andThen (literal ['.']) (oneOrMore .digit)

/-- The number of a number field. -/
def numberValue (signed whole : Bool) : Pattern :=
  let digits := oneOrMore .digit
  let unsigned :=
    if whole then digits
    else grouped (orElse (andThen digits (optional (grouped pointDigits))) pointDigits)
  if signed then andThen (optional (one .minus)) unsigned else unsigned

end FieldPattern

namespace Field

/-- The name under which the text of a field is captured. -/
def textGroup (name : String) : String := name ++ "__text"

/-- The name under which the operator of a field is captured. -/
def operatorGroup (name : String) : String := name ++ "__op"

/-- The name under which the number of a field is captured. -/
def numberGroup (name : String) : String := name ++ "__value"

open FieldPattern

/-- What the field captures under its name. -/
def body (field : Field) : Pattern :=
  match field.kind with
  | .flag => andThen opening (anyAlias field.aliases)
  | .text quotable =>
      let value := captured (textGroup field.name) (textValue quotable)
      if field.isPositional then inOrder [inputStart, anyNumber .blank, value]
      else inOrder [opening, anyAlias field.aliases, oneOrMore .blank, value]
  | .number signed whole =>
      inOrder [opening, anyAlias field.aliases, captured (operatorGroup field.name) operators,
        captured (numberGroup field.name) (numberValue signed whole)]

/-- The pattern of the field. -/
def pattern (field : Field) : Pattern := andThen (captured field.name field.body) closing

/-- The text that a match captured under a name, empty if it captured none. -/
def capturedText (way : Way) (name : String) : List Char :=
  ((way.group? name).map Group.text).getD []

/-- The value of an occurrence of the field. -/
def valueOf (field : Field) (way : Way) : FieldValue :=
  match field.kind with
  | .flag => .flag
  | .text _ => .text (String.ofList (Text.unquote (capturedText way (textGroup field.name))))
  | .number _ _ =>
      .comparison (.single
        ⟨Operator.ofSymbol (String.ofList (capturedText way (operatorGroup field.name))),
          String.ofList (capturedText way (numberGroup field.name))⟩)

end Field

end SearchCommands
