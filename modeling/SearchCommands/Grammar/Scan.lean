import SearchCommands.Grammar.Basic

/-!
# Scanning

The pattern of a grammar is tried at every place of the input, from left to right. A match is an
occurrence of the field under whose name it was captured, unless it starts inside a pair of
quotation marks: what stands between quotation marks belongs to the field that captures the marks
themselves. After an occurrence the next place is its end, after a match inside quotation marks it
is behind the pair. No field reads an empty text, so nothing is left to try at the end.
-/

namespace SearchCommands

/-- An occurrence of a field, with the places where it starts and stops. -/
structure Token where
  field : String
  start : Cursor
  stop : Cursor
  value : FieldValue

namespace Token

/-- The occurrence in bytes of the input. -/
def capture (token : Token) : Capture :=
  ⟨token.field, token.start.offset, token.stop.offset, token.value⟩

/-- The text from a place on that no occurrence covers. -/
def uncovered (cursor : Cursor) : List Token → List Char
  | [] => cursor.after
  | token :: rest => cursor.textTo token.start ++ uncovered token.stop rest

end Token

namespace Grammar

/-- The first declared field that a match captured, and the part of the input that it covers. -/
def occurrence? (grammar : Grammar) (way : Way) : Option (Field × Group) :=
  grammar.fields.findSome? fun field => (way.group? field.name).map fun group => (field, group)

/-- The occurrence of a field that starts at a place, if the pattern of the grammar matches there. -/
def tokenAt? (grammar : Grammar) (cursor : Cursor) : Option Token :=
  (grammar.pattern.match? cursor).bind fun way =>
    (grammar.occurrence? way).map fun (field, group) =>
      ⟨field.name, group.start, group.stop, field.valueOf way⟩

/-- The occurrences of fields from a place on, after passing over the given number of characters. -/
def tokensFrom (grammar : Grammar) (before : List Char) : Nat → List Char → List Token
  | _, [] => []
  | skipped + 1, c :: after => grammar.tokensFrom (c :: before) skipped after
  | 0, c :: after =>
      match grammar.tokenAt? ⟨before, c :: after⟩ with
      | none => grammar.tokensFrom (c :: before) 0 after
      | some token =>
          if token.start.insideQuotes then
            grammar.tokensFrom (c :: before)
              (after.length - token.start.pastQuote.after.length) after
          else
            token ::
              grammar.tokensFrom (c :: before) (after.length - token.stop.after.length) after

/-- The occurrences of fields in an input. -/
def tokens (grammar : Grammar) (input : String) : List Token :=
  grammar.tokensFrom [] 0 input.toList

end Grammar

end SearchCommands
