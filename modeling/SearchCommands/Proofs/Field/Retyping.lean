import SearchCommands.Proofs.Grammar.Preference
import SearchCommands.Proofs.Field.QuoteWise
import SearchCommands.Proofs.Text.Places

/-!
# Occurrences before a word

An occurrence that starts before a word ends before it, is an occurrence of the word itself, or
reads the word as the value of a text.  In each case the occurrence stays one when another word of
the same kind is typed, and what stands behind the word matters only as far as the word ends there
(`Field.OccursAt.meetsWord`).
-/

namespace SearchCommands

open Text FieldPattern

/-- What an occurrence has to do with a word that stands behind the given text, and that it stays an
occurrence elsewhere, with another word or with another text behind it. -/
inductive Field.MeetsWord (field : Field) (word right before left : List Char) (stop : Cursor)
    (value : FieldValue) : Prop where
  | before {near rest : List Char} (split : left = near ++ rest) (ahead : rest ≠ [])
      (starts : StartsWord rest) (stopEq : stop = ⟨near.reverse ++ before, rest ++ (word ++ right)⟩)
      (elsewhere : ∀ before' tail, (before = [] → before' = []) →
        field.OccursAt ⟨before', left ++ tail⟩ ⟨near.reverse ++ before', rest ++ tail⟩ value)
  | word (blank : AllBlank left) (spells : field.Spells word value)
      (stopEq : stop = ⟨word.reverse ++ (left.reverse ++ before), right⟩)
      (elsewhere : ∀ before' word' right' value', (before = [] → before' = []) →
        field.Spells word' value' → EndsWord right' →
        field.OccursAt ⟨before', left ++ (word' ++ right')⟩
          ⟨word'.reverse ++ (left.reverse ++ before'), right'⟩ value')
  | operand {quotable : Bool} (kind : field.kind = .text quotable)
      (stopEq : stop = ⟨word.reverse ++ (left.reverse ++ before), right⟩)
      (elsewhere : ∀ before' word' right', (before = [] → before' = []) → BareWord word' →
        EndsWord right' → ∃ value', field.OccursAt ⟨before', left ++ (word' ++ right')⟩
          ⟨word'.reverse ++ (left.reverse ++ before'), right'⟩ value')

namespace FieldPattern.TextValue

variable {quotable : Bool} {value rest left word right : List Char}

/-- A pair of quotation marks does not reach over a place behind which a word can start, unless it
opens before this place and closes behind it. -/
theorem count_of_enclosed {text more : List Char} (plain : '"' ∉ text) (starts : StartsWord left)
    (some : left ≠ []) (whole : enclosed text = left ++ more) :
    left.count '"' = 1 ∧ '"' ∈ more := by
  have total := count_enclosed plain
  rw [whole, List.count_append] at total
  have opens : 0 < left.count '"' := by
    rcases List.exists_cons_of_ne_nil some with ⟨c, near, rfl⟩
    rw [enclosed, List.cons_append, List.cons.injEq] at whole
    rw [List.count_pos_iff, whole.1]
    exact List.mem_cons_self
  have closes : '"' ∈ more := by
    rcases List.eq_nil_or_concat more with rfl | ⟨near, c, rfl⟩
    · rw [List.append_nil] at whole
      have blank := starts '"' (by simp [← whole, enclosed, List.getLast?_cons])
      rw [isBlank_quote] at blank
      cases blank
    · have last : '"' = c := by
        simpa [enclosed, List.getLast?_cons] using congrArg List.getLast? whole
      simp [← last]
  have closing := List.count_pos_iff.mpr closes
  exact ⟨by omega, closes⟩

/-- The value of a text ends before a later word starts, unless the word stands in quotation
marks. -/
theorem split_before_word (inside : TextValue quotable value) (starts : StartsWord left)
    (some : left ≠ []) (outside : left.count '"' % 2 = 0 ∨ '"' ∉ right) (plain : '"' ∉ word)
    (same : value ++ rest = left ++ (word ++ right)) :
    ∃ left', left = value ++ left' ∧ left' ≠ [] ∧ StartsWord left' ∧
      rest = left' ++ (word ++ right) := by
  rcases inside with ⟨_, text, textPlain, rfl⟩ | ⟨_, inked, _⟩
  · rcases List.append_eq_append_iff.mp same with ⟨left', rfl, rfl⟩ | ⟨more, whole, behind⟩
    · refine ⟨left', rfl, ?_, starts.of_append, rfl⟩
      rintro rfl
      rw [List.append_nil] at starts some
      have closes := (count_of_enclosed textPlain starts some (List.append_nil _).symm).2
      cases closes
    · rcases count_of_enclosed textPlain starts some whole with ⟨opens, closes⟩
      have ahead : '"' ∈ word ++ right := behind ▸ List.mem_append_left rest closes
      rw [List.mem_append] at ahead
      rcases outside with even | none
      · omega
      · exact absurd ahead (not_or.mpr ⟨plain, none⟩)
  · exact Text.split_before_word inked starts some same

end FieldPattern.TextValue

namespace Field

variable {field : Field} {word right left : List Char}

/-- A word of a field at the start of a text ends before a later word starts, or reads the later
word as the value of a text. -/
theorem Spells.split_before_word (proper : field.IsProper) {own rest : List Char} {value : FieldValue}
    (spells : field.Spells own value) (ends : EndsWord rest) (starts : StartsWord left)
    (some : left ≠ [])
    (outside : (∀ quotable, field.kind ≠ .text quotable) ∨ left.count '"' % 2 = 0 ∨ '"' ∉ right)
    (quoteFree : field.IsQuoteFree) (bare : BareWord word) (wordEnds : EndsWord right)
    (same : own ++ rest = left ++ (word ++ right)) :
    (∃ left', left = own ++ left' ∧ left' ≠ [] ∧ StartsWord left' ∧
        rest = left' ++ (word ++ right)) ∨
      ∃ quotable, field.kind = .text quotable ∧ field.isPositional = false ∧
        own = left ++ word ∧ rest = right ∧
        ∀ word', BareWord word' → ∃ value', field.Spells (left ++ word') value' := by
  by_cases noText : ∀ quotable, field.kind ≠ .text quotable
  · left
    exact Text.split_before_word (spells.noBlank proper noText) starts some same
  · have outside := outside.resolve_left noText
    cases spells with
    | flag kind => simp [kind] at noText
    | number kind => simp [kind] at noText
    | positional kind positional inside =>
        left
        exact inside.split_before_word starts some outside bare.2.2.1 same
    | @text quotable name blanks value kind aliased introduced nonempty blank inside =>
        rw [List.append_assoc, List.append_assoc] at same
        rcases Text.split_before_word (introduced.noBlank proper) starts some same with
          ⟨behind, rfl, behindSome, behindStarts, afterName⟩
        rcases exists_blanks behind with ⟨gap, near, rfl, gapBlank, nearInked⟩
        rw [List.append_assoc] at afterName
        have wordInked : StartsInked (word ++ right) := bare.2.1.startsInked.append bare.1
        by_cases nearSome : near = []
        · -- the word is the value
          subst nearSome
          right
          rcases blanks_unique blank gapBlank (inside.startsInked rest) wordInked afterName with
            ⟨rfl, operand⟩
          rcases textValue_unique inside (Or.inr bare) ends wordEnds operand with ⟨rfl, rfl⟩
          refine ⟨quotable, kind, aliased, by simp, rfl, ?_⟩
          intro word' bare'
          refine ⟨textOf word', ?_⟩
          have spells := Field.Spells.text kind aliased introduced nonempty blank (Or.inr bare')
          simpa using spells
        · left
          have nearStarts : StartsInked (near ++ (word ++ right)) := nearInked.append nearSome
          rcases blanks_unique blank gapBlank (inside.startsInked rest) nearStarts afterName with
            ⟨rfl, fromValue⟩
          have outside' : near.count '"' % 2 = 0 ∨ '"' ∉ right := by
            have count : (name ++ (blanks ++ near)).count '"' = near.count '"' := by
              rw [List.count_append, List.count_append, blank.count_quote,
                List.count_eq_zero.mpr (quoteFree.introduces introduced)]
              omega
            rwa [count] at outside
          rcases inside.split_before_word behindStarts.of_append nearSome outside' bare.2.2.1
            fromValue with ⟨left', rfl, leftSome, leftStarts, restEq⟩
          exact ⟨left', by simp, leftSome, leftStarts, restEq⟩

/-- A word of a field that starts where a bare word does is this word. -/
theorem Spells.eq_word (proper : field.IsProper) {own rest : List Char} {value : FieldValue}
    (spells : field.Spells own value) (ends : EndsWord rest) (bare : BareWord word)
    (wordEnds : EndsWord right)
    (noName : ∀ quotable, field.kind = .text quotable → ¬ field.Introduces word)
    (same : own ++ rest = word ++ right) : own = word ∧ rest = right := by
  by_cases noText : ∀ quotable, field.kind ≠ .text quotable
  · exact Text.word_unique (spells.noBlank proper noText) bare.2.1 ends wordEnds same
  · cases spells with
    | flag kind => simp [kind] at noText
    | number kind => simp [kind] at noText
    | positional _ _ inside => exact textValue_unique inside (Or.inr bare) ends wordEnds same
    | @text quotable name blanks value kind aliased introduced nonempty blank inside =>
        rw [List.append_assoc, List.append_assoc] at same
        rcases Text.word_unique (introduced.noBlank proper) bare.2.1
          (EndsWord.append_of_ne_nil nonempty blank _) wordEnds same with ⟨rfl, _⟩
        exact absurd introduced (noName quotable kind)

/-- An occurrence before a word ends before it, is the word, or reads it as a text. -/
theorem OccursAt.meetsWord (proper : field.IsProper) (quoteFree : field.IsQuoteFree)
    (bare : BareWord word) (wordEnds : EndsWord right) (starts : StartsWord left)
    (outside : (∀ quotable, field.kind ≠ .text quotable) ∨ left.count '"' % 2 = 0 ∨ '"' ∉ right)
    (noName : ∀ quotable, field.kind = .text quotable → ¬ field.Introduces word)
    {before : List Char} {stop : Cursor} {value : FieldValue}
    (occurs : field.OccursAt ⟨before, left ++ (word ++ right)⟩ stop value) :
    field.MeetsWord word right before left stop value := by
  have wordInked : StartsInked (word ++ right) := bare.2.1.startsInked.append bare.1
  rcases exists_blanks left with ⟨gap, near, rfl, gapBlank, nearInked⟩
  rw [List.append_assoc] at occurs
  by_cases nearSome : near = []
  · subst nearSome
    rcases occurs.after_blanks proper gapBlank wordInked with
      ⟨own, rest, same, spells, ends, place, stopEq⟩
    rcases spells.eq_word proper ends bare wordEnds noName same.symm with ⟨rfl, rfl⟩
    rw [List.append_nil]
    refine .word gapBlank spells stopEq ?_
    intro before' word' right' value' start spells' ends'
    exact ⟨gap, word', right', rfl, gapBlank, spells', ends', place.imp_left start, rfl⟩
  · rcases occurs.after_blanks proper gapBlank (nearInked.append nearSome) with
      ⟨own, rest, same, spells, ends, place, stopEq⟩
    have outside' : (∀ quotable, field.kind ≠ .text quotable) ∨ near.count '"' % 2 = 0 ∨
        '"' ∉ right := by
      rwa [List.count_append, gapBlank.count_quote, Nat.zero_add] at outside
    rcases spells.split_before_word proper ends starts.of_append nearSome outside' quoteFree bare
      wordEnds same.symm with
      ⟨left', rfl, leftSome, leftStarts, rfl⟩ | ⟨quotable, kind, aliased, rfl, rfl, operands⟩
    · have split : gap ++ (own ++ left') = (gap ++ own) ++ left' := by simp
      refine .before split leftSome leftStarts (by simp [stopEq]) ?_
      intro before' tail start
      rcases List.exists_cons_of_ne_nil leftSome with ⟨c, more, rfl⟩
      exact ⟨gap, own, c :: more ++ tail, by simp, gapBlank, spells, ends, place.imp_left start,
        by simp⟩
    · refine .operand kind (by simp [stopEq]) ?_
      intro before' word' right' start bare' ends'
      rcases operands word' bare' with ⟨value', spells'⟩
      exact ⟨value', gap, near ++ word', right', by simp, gapBlank, spells', ends',
        place.imp_left start, by simp⟩

end Field

end SearchCommands
