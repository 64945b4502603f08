import SearchCommands.Proofs.Grammar.Positional
import SearchCommands.Proofs.Search.Invariant

/-!
# The name of the player

A search names a player if the text that the criteria left over starts with the name.  The name is
stored as it was typed, but one name stands for the player of searches that name none: who types it
has named nobody (`hasUsername_iff_of_read`).
-/

namespace SearchCommands

open Text FieldPattern

namespace Search

open Beatmap

/-- The text starts with the name of a player: with a text in quotation marks or a word without
them that starts with no minus sign, before a blank or at the end, and no field with aliases occurs
there. -/
structure StartsWithName (text : String) (name : List Char) : Prop where
  noAlias : ∀ field ∈ grammar.fields, field.isPositional = false →
    field.pattern.match? (Cursor.ofText text.toList) = none
  isName : QuotedText name ∨ BareWord name
  starts : ∃ rest, text.toList = name ++ rest ∧ EndsWord rest

theorem declaration_isPositional : Part.username.declaration.isPositional = true := rfl

theorem filter_isPositional :
    grammar.fields.filter Field.isPositional = [Part.username.declaration] := rfl

theorem tokenAt?_username_iff {text : String} (inked : StartsInked text.toList) {token : Token}
    (own : token.field = "username") :
    grammar.tokenAt? (Cursor.ofText text.toList) = some token ↔
      ∃ name rest, StartsWithName text name ∧ text.toList = name ++ rest ∧ token =
        ⟨"username", Cursor.ofText text.toList, ⟨name.reverse, rest⟩, Field.textOf name⟩ := by
  have member := declaration_mem .username
  rw [Grammar.tokenAt?_eq_some_iff_of_positional member declaration_isPositional own,
    filter_isPositional, List.findSome?_singleton,
    Field.tokenAt?_eq_some_iff_of_positional (Grammar.isProper member) rfl
      declaration_isPositional inked]
  constructor
  · rintro ⟨noAlias, name, rest, split, inside, ends, same⟩
    exact ⟨name, rest, ⟨noAlias, by simpa [TextValue] using inside, rest, split, ends⟩, split, same⟩
  · rintro ⟨name, rest, ⟨noAlias, inside, rest', split', ends⟩, split, same⟩
    obtain rfl : rest = rest' := List.append_cancel_left (split.symm.trans split')
    exact ⟨noAlias, name, rest, split, by simpa [TextValue] using inside, ends, same⟩

/-- The name is captured exactly if the text starts with one. -/
theorem has_username_iff {text : String} (inked : StartsInked text.toList) :
    (grammar.captures text).has "username" = true ↔ ∃ name, StartsWithName text name := by
  have captured := Grammar.has_iff_of_positional (declaration_mem .username)
    declaration_isPositional text
  simp only [Part.declaration, Part.field] at captured
  rw [captured]
  constructor
  · rintro ⟨token, own, found⟩
    obtain ⟨name, _, starts, _, _⟩ := (tokenAt?_username_iff inked own).mp found
    exact ⟨name, starts⟩
  · rintro ⟨name, starts⟩
    obtain ⟨rest, split, _⟩ := starts.starts
    exact ⟨_, rfl, (tokenAt?_username_iff inked rfl).mpr ⟨name, rest, starts, split, rfl⟩⟩

/-- The name with which the text starts is the one that is captured. -/
theorem textsOf_username_of_startsWithName {text : String} (inked : StartsInked text.toList)
    {name : List Char} (starts : StartsWithName text name) :
    (grammar.captures text).textsOf "username" = [String.ofList (unquote name)] := by
  obtain ⟨rest, split, _⟩ := starts.starts
  have found := (tokenAt?_username_iff inked rfl).mpr ⟨name, rest, starts, split, rfl⟩
  have values := Grammar.valuesOf_of_positional (declaration_mem .username)
    declaration_isPositional rfl found
  simp only [Part.declaration, Part.field] at values
  simp [Captures.textsOf, values, Field.textOf, FieldValue.text?]

/-- A search has the name with which the text starts, without its quotation marks, and it names a
player exactly if there is such a name and it is not the one that stands for no player. -/
theorem hasUsername_iff_of_read {input : String} {outcome : Outcome Search}
    (done : read input = .ok outcome) :
    let rest := Criteria.grammar.leftover input
    ((grammar.captures rest).has "username" = true ↔ ∃ name, StartsWithName rest name) ∧
      (∀ name, StartsWithName rest name →
        outcome.value.username = String.ofList (unquote name)) ∧
      (outcome.value.hasUsername = true ↔
        ∃ name, StartsWithName rest name ∧ String.ofList (unquote name) ≠ unspecifiedName) := by
  intro rest
  obtain ⟨criteria, criteriaDone, _, filter, _, rfl⟩ := read_eq_ok_iff.mp done
  have left : criteria.leftover = rest := (Criteria.read_eq_ok_iff.mp criteriaDone).2.2
  have inked : StartsInked rest.toList := (Criteria.grammar.trimmed_leftover input).1
  have named (name : List Char) (starts : StartsWithName rest name) :
      (captured criteria.value (grammar.captures criteria.leftover) filter).username =
        String.ofList (unquote name) := by
    simp [captured, left, textsOf_username_of_startsWithName inked starts]
  refine ⟨has_username_iff inked, named, ?_⟩
  simp only [hasUsername, bne_iff_ne, ne_eq]
  constructor
  · intro given
    have present : (grammar.captures rest).has "username" = true := by
      by_contra absent
      have nothing := (has_eq_false_iff .username rfl).mp (Bool.not_eq_true _ ▸ absent)
      simp only [Part.field] at nothing
      apply given
      simp [captured, left, nothing]
    obtain ⟨name, starts⟩ := (has_username_iff inked).mp present
    exact ⟨name, starts, named name starts ▸ given⟩
  · rintro ⟨name, starts, different⟩
    rw [named name starts]
    exact different

/-- The mixed command has its name behind a bound, which the criteria take. -/
theorem hasUsername_of_mixedCommand :
    read "AR>9 mrekk -e -t\t\" ar<1 -q\" \npc>=-10 ar<=.5 " =
        .ok ⟨Composition.mixedCommand.search, ""⟩ ∧
      ∃ name, StartsWithName (Criteria.grammar.leftover
          "AR>9 mrekk -e -t\t\" ar<1 -q\" \npc>=-10 ar<=.5 ") name ∧
        String.ofList (unquote name) ≠ unspecifiedName ∧
        Composition.mixedCommand.search.username = String.ofList (unquote name) := by
  have done := Composition.read_text Composition.mixedCommand_isValid
    Composition.mixedCommand_isConsistent
  obtain ⟨_, named, given⟩ := hasUsername_iff_of_read done
  obtain ⟨name, starts, different⟩ := given.mp (by decide +kernel)
  exact ⟨done, name, starts, different, named name starts⟩

/-- Who types the name that stands for no player has typed a name and named nobody. -/
theorem unspecifiedName_names_nobody :
    ∃ outcome, read "unspecified" = .ok outcome ∧
      (grammar.captures (Criteria.grammar.leftover "unspecified")).has "username" = true ∧
      outcome.value.hasUsername = false := by
  have succeeded : (read "unspecified").isOk = true := by decide +kernel
  have nobody : ((read "unspecified").toOption.map fun outcome => outcome.value.hasUsername) =
      some false := by decide +kernel
  obtain ⟨outcome, done⟩ := exists_of_isOk succeeded
  refine ⟨outcome, done, by decide +kernel, ?_⟩
  simpa [done, Except.toOption] using nobody

end Search

end SearchCommands
