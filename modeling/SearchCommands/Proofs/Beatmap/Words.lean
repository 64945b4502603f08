import SearchCommands.Proofs.Beatmap.Reading
import SearchCommands.Proofs.Grammar.Layout

/-!
# The words of measures

Every word of a measure is an alias, an operator and a number without a sign.  The first phase of a
search command takes these words and leaves every other piece of the command alone.
-/

namespace SearchCommands.Beatmap

open Text FieldPattern

namespace Criteria

theorem isPlain : grammar.IsPlain where
  noMark := by decide +kernel
  steady := by decide +kernel
  distinct := by decide +kernel

theorem noText : ∀ field ∈ grammar.fields, ∀ quotable, field.kind ≠ .text quotable := by
  intro field member quotable text
  rcases exists_measure member with ⟨measure, rfl⟩
  cases text

/-- A piece is left by the first phase if no measure spells it. -/
theorem fits_none {gap text : List Char} (piece : IsPiece text)
    (foreign : ∀ measure : Measure, ∀ value, ¬ measure.declaration.Spells text value) :
    grammar.Fits ⟨gap, text, none⟩ := by
  refine ⟨piece, ?_⟩
  rintro field member before blanks rest stop value blank ends
    ⟨blanks', word, rest', split, blank', spells, ends', _, _⟩
  rcases exists_measure member with ⟨measure, rfl⟩
  have proper := Grammar.isProper member
  have startsInked : StartsInked (text ++ rest) := by
    rcases piece with ⟨nonempty, inked, _⟩ | ⟨inside, _, rfl⟩
    · exact inked.startsInked.append nonempty
    · exact (trimmed_enclosed inside).1.append (by simp [enclosed])
  have startsInked' : StartsInked (word ++ rest') :=
    (spells.startsInked proper).append (spells.ne_nil proper)
  have same := (blanks_unique blank blank' startsInked startsInked' split).2
  have noText := noText _ member
  rcases piece with ⟨_, inked, _⟩ | ⟨quoted, _, rfl⟩
  · have words := (word_unique inked (spells.noBlank proper noText) ends ends' same).1
    exact foreign measure _ (words ▸ spells)
  · -- a word of a number has no quotation mark
    have plain := (isPlain.quoteFree member).noQuote_spells noText spells
    rcases List.exists_cons_of_ne_nil (spells.ne_nil proper) with ⟨c, more, rfl⟩
    simp only [enclosed, List.cons_append, List.cons.injEq] at same
    exact plain (same.1 ▸ List.mem_cons_self)

/-- The piece of a measure is taken by the first phase. -/
theorem fits_some {measure : Measure} {gap text : List Char} {value : FieldValue}
    (spells : measure.declaration.Spells text value) :
    grammar.Fits ⟨gap, text, some (measure.field, value)⟩ := by
  refine ⟨measure.declaration, declaration_mem measure, ?_, rfl, spells⟩
  cases measure <;> rfl

end Criteria

/-- A word that is typed for a measure: an alias in any letter case, an operator and a number
without a sign. -/
theorem Measure.spells {measure : Measure} {name : String} (member : name ∈ measure.aliases)
    {found digits : List Char} (spelled : SpelledAs name.toList found) {operator : Operator}
    (given : operator ≠ .absent) (number : Unsigned false digits) :
    measure.declaration.Spells (found ++ (operator.symbol.toList ++ digits))
      (Field.boundOf operator digits) :=
  .number rfl (Criteria.isPlain.introduces (Criteria.declaration_mem measure) member spelled) given
    (Or.inl number)

end SearchCommands.Beatmap
