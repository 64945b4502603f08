import SearchCommands.Proofs.Grammar.Leftover
import SearchCommands.Search.Command

/-!
# What a capture says

A capture is no more than what its field was declared for.  This file says so without the pattern of
the field: `Field.Denotes` lists the texts of a field with the value of each of them, and
`Field.Justifies` puts such a text at a place of the input.  The main statement is that every
capture is justified by the field of its name, whatever the input and the other fields are.
-/

namespace SearchCommands

open Text FieldPattern

/-- No pair of quotation marks of the text is open after so many bytes of it. -/
def Text.OutsideQuotes (text : List Char) (offset : Nat) : Prop :=
  ∀ pair ∈ quotedTexts text, ¬ (pair.start < offset ∧ offset < pair.stop)

theorem Cursor.insideQuotes_eq_false_iff_outsideQuotes {before after : List Char} :
    (Cursor.mk before after).insideQuotes = false ↔
      OutsideQuotes (before.reverse ++ after) (byteLength before) := by
  rw [← Bool.not_eq_true, insideQuotes_iff]
  simp [OutsideQuotes]

namespace Field

/-- One of the aliases of the field in any letter case. -/
def IsNamedBy (field : Field) (found : List Char) : Prop :=
  ∃ name ∈ field.aliases, SpelledAs name.toList found

/-- What stands between the blanks of an occurrence and the value of a text field: an alias and
blanks, or nothing if the field has no aliases. -/
def LeadsToText (field : Field) (lead : List Char) : Prop :=
  if field.isPositional then lead = []
  else ∃ found blanks, lead = found ++ blanks ∧ field.IsNamedBy found ∧ blanks ≠ [] ∧
    AllBlank blanks

/-- The texts of a field, each of them with the value that it gives. -/
inductive Denotes (field : Field) : List Char → FieldValue → Prop where
  | flag {found : List Char} (kind : field.kind = .flag) (named : field.IsNamedBy found) :
      Denotes field found .flag
  | quoted {lead inside : List Char} (kind : field.kind = .text true)
      (leads : field.LeadsToText lead) (plain : '"' ∉ inside) :
      Denotes field (lead ++ enclosed inside) (.text (String.ofList (trim inside)))
  | bare {quotable : Bool} {lead word : List Char} (kind : field.kind = .text quotable)
      (leads : field.LeadsToText lead) (bare : BareWord word) :
      Denotes field (lead ++ word) (.text (String.ofList word))
  | number {signed whole : Bool} {found digits : List Char} {operator : Operator}
      (kind : field.kind = .number signed whole) (named : field.IsNamedBy found)
      (given : operator ≠ .absent) (inside : NumberText signed whole digits) :
      Denotes field (found ++ (operator.symbol.toList ++ digits))
        (.comparison (.single ⟨operator, String.ofList digits⟩))

/-- The field accounts for a capture in a text: one of its texts stands there, after blanks or at
the start, before a blank or at the end, and outside of all quotation marks. -/
structure Justifies (field : Field) (capture : Capture) (text left blanks own right : List Char) :
    Prop where
  field_eq : capture.field = field.name
  divides : capture.Divides text left (blanks ++ own) right
  blank : AllBlank blanks
  place : left = [] ∨ field.isPositional = false ∧ blanks ≠ []
  ends : EndsWord right
  outside : OutsideQuotes text capture.start
  denotes : field.Denotes own capture.value

variable {field : Field} {text : List Char} {value : FieldValue}

theorem Introduces.isNamedBy (introduced : field.Introduces text) : field.IsNamedBy text := by
  rcases introduced with ⟨name, member, spelled, _⟩
  exact ⟨name, member, spelled⟩

/-- The value of a text field is what the quotation marks enclose, or the word. -/
theorem denotes_of_textValue {quotable : Bool} {lead : List Char}
    (kind : field.kind = .text quotable) (leads : field.LeadsToText lead)
    (inside : TextValue quotable text) : field.Denotes (lead ++ text) (textOf text) := by
  rcases inside with ⟨rfl, inside, plain, rfl⟩ | bare
  · unfold textOf
    rw [unquote_enclosed]
    exact .quoted kind leads plain
  · unfold textOf
    rw [unquote_word bare.2.1 bare.2.2.1]
    exact .bare kind leads bare

theorem Spells.denotes (spells : field.Spells text value) : field.Denotes text value := by
  cases spells with
  | flag kind introduced => exact .flag kind introduced.isNamedBy
  | @text quotable found blanks word kind aliased introduced nonempty blank inside =>
      rw [← List.append_assoc]
      apply denotes_of_textValue kind _ inside
      simp only [LeadsToText, aliased, Bool.false_eq_true, if_false]
      exact ⟨found, blanks, rfl, introduced.isNamedBy, nonempty, blank⟩
  | positional kind positional inside =>
      have leads : field.LeadsToText [] := by simp only [LeadsToText, positional, if_true]
      exact denotes_of_textValue kind leads inside
  | number kind introduced given inside => exact .number kind introduced.isNamedBy given inside

/-- A text that is captured has no quotation mark in it and no blank around it. -/
theorem Denotes.text_plain (denotes : field.Denotes text value) {content : String}
    (isText : value = .text content) : '"' ∉ content.toList ∧ Trimmed content.toList := by
  cases denotes with
  | flag | number => cases isText
  | quoted _ _ plain =>
      cases isText
      rw [String.toList_ofList]
      exact ⟨fun member => plain (mem_of_mem_trim member), trimmed_trim _⟩
  | bare _ _ bare =>
      cases isText
      rw [String.toList_ofList]
      exact ⟨bare.2.2.1, bare.2.1.trimmed⟩

end Field

namespace Grammar

/-- Every capture is accounted for by a declared field: its place, its text and its value are as the
declaration of that field says.  A text that is captured has no quotation mark in it and no blank
around it. -/
theorem captures_justified (grammar : Grammar) (input : String) :
    ∀ capture ∈ grammar.captures input, ∃ field ∈ grammar.fields,
      (∃ left blanks own right, field.Justifies capture input.toList left blanks own right) ∧
        ∀ content, capture.value = .text content →
          '"' ∉ content.toList ∧ Trimmed content.toList := by
  intro capture member
  rcases exists_token_of_mem_captures member with
    ⟨token, same, outside, ⟨field, fieldMember, name, occurs⟩, divides⟩
  have value : token.value = capture.value := congrArg Capture.value same
  have through := (reaches_of_occursAt occurs).after_eq
  rcases occurs with ⟨blanks, own, rest, split, blank, spells, ends, place, stop⟩
  have covered : token.start.textTo token.stop = blanks ++ own := by
    apply Cursor.textTo_eq
    rw [split, stop, List.append_assoc]
  have denotes := spells.denotes
  rw [value] at denotes
  rw [covered] at divides
  refine ⟨field, fieldMember, ⟨_, blanks, own, _, name, divides, blank, ?_, ?_, ?_, denotes⟩,
    fun content => denotes.text_plain⟩
  · exact place.imp_left fun start => by simp [start]
  · rw [stop]
    exact ends
  · rw [divides.text_eq, divides.start_eq, byteLength_reverse, ← covered, ← through]
    exact Cursor.insideQuotes_eq_false_iff_outsideQuotes.mp outside

/-- In `mrekk -t "sky high" c>=5` the text in quotation marks is the title. -/
theorem captures_justified_title :
    let input := "mrekk -t \"sky high\" c>=5"
    let title : Capture := ⟨"title", 5, 19, .text "sky high"⟩
    title ∈ Search.grammar.captures input ∧ ∃ field ∈ Search.grammar.fields,
      (∃ left blanks own right, field.Justifies title input.toList left blanks own right) ∧
        ∀ content, title.value = .text content →
          '"' ∉ content.toList ∧ Trimmed content.toList := by
  intro input title
  have captured : title ∈ Search.grammar.captures input := by decide +kernel
  exact ⟨captured, captures_justified Search.grammar input title captured⟩

end Grammar

end SearchCommands
