import SearchCommands.Proofs.Pattern.Alike
import SearchCommands.Proofs.Text.LetterCase

/-!
# Patterns and letter case

Aliases are read in any letter case, and nothing else that a field asks for is a letter.  So the
pattern of a field has the same ways, in the same order, to read two texts that differ in their
letter case alone.
-/

namespace SearchCommands

open Text FieldPattern

/-- The same place in two texts that differ in their letter case alone. -/
structure Cursor.SameButCase (cursor cursor' : Cursor) : Prop where
  before : Text.SameButCase cursor.before cursor'.before
  after : Text.SameButCase cursor.after cursor'.after

namespace Cursor.SameButCase

variable {cursor cursor' : Cursor} (same : cursor.SameButCase cursor')

include same

theorem insideQuotes_eq : cursor.insideQuotes = cursor'.insideQuotes := by
  have closed : cursor.after.contains '"' = cursor'.after.contains '"' := by
    rw [Bool.eq_iff_iff, List.contains_iff_mem, List.contains_iff_mem, same.after.mem_quote_iff]
  rw [Cursor.insideQuotes, Cursor.insideQuotes, same.before.count_quote, closed]

theorem offset_eq : cursor.offset = cursor'.offset := same.before.byteLength_eq

theorem atWordEdge_eq : cursor.atWordEdge = cursor'.atWordEdge := by
  rw [Cursor.atWordEdge, Cursor.atWordEdge, same.before.any_head? isWordCharacter_congr,
    same.after.any_head? isWordCharacter_congr]

theorem textTo {stop stop' : Cursor} (sameStop : stop.SameButCase stop') :
    Text.SameButCase (cursor.textTo stop) (cursor'.textTo stop') := by
  rw [Cursor.textTo, Cursor.textTo, same.after.length_eq, sameStop.after.length_eq]
  exact List.forall₂_take _ same.after

theorem read? {agrees : Char → Char → Bool} {text : List Char}
    (respects : ∀ e ∈ text, ∀ {c d : Char}, c.toLower = d.toLower → agrees e c = agrees e d) :
    Option.Rel Cursor.SameButCase (cursor.read? agrees text) (cursor'.read? agrees text) := by
  induction text generalizing cursor cursor' with
  | nil => exact .some same
  | cons expected more ih =>
      rcases cursor with ⟨before, after⟩
      rcases cursor' with ⟨before', after'⟩
      rcases same with ⟨sameBefore, sameAfter⟩
      cases sameAfter with
      | nil => exact .none
      | cons first rest =>
          rw [Cursor.read?, Cursor.read?, respects expected List.mem_cons_self first]
          split
          · exact ih ⟨.cons first sameBefore, rest⟩
              fun e member => respects e (List.mem_cons_of_mem expected member)
          · exact .none

end Cursor.SameButCase

theorem Cursor.placesOf_sameButCase (set : CharSet) {before before' after after' : List Char}
    (sameBefore : Text.SameButCase before before') (sameAfter : Text.SameButCase after after') :
    List.Forall₂ Cursor.SameButCase (placesOf set.contains before after)
      (placesOf set.contains before' after') := by
  induction sameAfter generalizing before before' with
  | nil => exact .cons ⟨sameBefore, .nil⟩ .nil
  | cons first rest ih =>
      rw [placesOf, placesOf, contains_congr first]
      refine .cons ⟨sameBefore, .cons first rest⟩ ?_
      split
      · exact ih (.cons first sameBefore)
      · exact .nil

namespace Pattern.Preserves

variable {folding : Bool}

theorem inputStart_case : inputStart.Preserves Cursor.SameButCase folding :=
  fun _ _ same => alike_test same.before.isEmpty_eq same

theorem inputEnd_case : inputEnd.Preserves Cursor.SameButCase folding :=
  fun _ _ same => alike_test same.after.isEmpty_eq same

theorem wordEdge_case : wordEdge.Preserves Cursor.SameButCase folding :=
  fun _ _ same => alike_test same.atWordEdge_eq same

theorem one_case (set : CharSet) : (one set).Preserves Cursor.SameButCase folding := by
  rintro ⟨before, after⟩ ⟨before', after'⟩ ⟨sameBefore, sameAfter⟩
  cases sameAfter with
  | nil => exact .nil
  | @cons c d after after' first rest =>
      have step : Cursor.SameButCase ⟨c :: before, after⟩ ⟨d :: before', after'⟩ :=
        ⟨.cons first sameBefore, rest⟩
      exact alike_test (contains_congr first set) step

theorem oneOrMore_case (set : CharSet) : (oneOrMore set).Preserves Cursor.SameButCase folding :=
  fun _ _ same => alike_tail_places (Cursor.placesOf_sameButCase set same.before same.after)

theorem anyNumber_case (set : CharSet) : (anyNumber set).Preserves Cursor.SameButCase folding :=
  fun _ _ same => alike_places (Cursor.placesOf_sameButCase set same.before same.after)

/-- A literal in any letter case agrees with a capital letter where it agrees with the small one. -/
theorem letters_case (text : List Char) : (literal text).Preserves Cursor.SameButCase true := by
  intro cursor cursor' same
  refine alike_read (same.read? ?_)
  intro e _ c d sameLetters
  simp only [if_true, sameLetter, foldCase_congr sameLetters]

/-- A literal without letters has no letter case. -/
theorem literal_case {text : List Char} (noLetter : ∀ c ∈ text, c.isAlpha = false) :
    (literal text).Preserves Cursor.SameButCase false := by
  intro cursor cursor' same
  refine alike_read (same.read? ?_)
  intro e member c d sameLetters
  rw [Bool.eq_iff_iff]
  simp only [Bool.false_eq_true, if_false, beq_iff_eq]
  constructor
  · rintro rfl
    exact (eq_of_toLower_eq sameLetters (noLetter e member)).symm
  · rintro rfl
    exact (eq_of_toLower_eq sameLetters.symm (noLetter e member)).symm

theorem opening_case : opening.Preserves Cursor.SameButCase false :=
  (inputStart_case.orElse (oneOrMore_case .blank)).grouped

theorem closing_case : closing.Preserves Cursor.SameButCase false :=
  ((one_case .blank).orElse inputEnd_case).grouped

theorem anyAlias_case (names : List String) :
    (FieldPattern.anyAlias names).Preserves Cursor.SameButCase false :=
  anyAlias (fun _ _ => letters_case _) wordEdge_case

theorem textValue_case (quotable : Bool) :
    (textValue quotable).Preserves Cursor.SameButCase false := by
  have word : bareWord.Preserves Cursor.SameButCase false :=
    (one_case .bareStart).andThen (anyNumber_case .bare)
  have quote : (literal ['"']).Preserves Cursor.SameButCase false := literal_case (by decide)
  cases quotable with
  | false => exact word
  | true => exact (quote.andThen ((anyNumber_case .betweenQuotes).andThen quote)).orElse word

theorem operators_case : FieldPattern.operators.Preserves Cursor.SameButCase false := by
  apply operators
  intro text symbols
  apply literal_case
  intro c member
  rcases symbols c member with rfl | rfl | rfl <;> rfl

theorem numberValue_case (signed whole : Bool) :
    (FieldPattern.numberValue signed whole).Preserves Cursor.SameButCase false :=
  numberValue signed whole (oneOrMore_case .digit) (one_case .minus) (literal_case (by decide))

/-- A field is read in the same ways in any letter case. -/
theorem field_case (field : Field) : field.pattern.Preserves Cursor.SameButCase false := by
  refine Preserves.andThen (Preserves.captured _ ?_) closing_case
  unfold Field.body
  split
  · exact opening_case.andThen (anyAlias_case _)
  · rename_i quotable _
    have value := (textValue_case quotable).captured (Field.textGroup field.name)
    split
    · exact inputStart_case.andThen ((anyNumber_case .blank).andThen value)
    · exact opening_case.andThen ((anyAlias_case _).andThen ((oneOrMore_case .blank).andThen value))
  · exact opening_case.andThen ((anyAlias_case _).andThen ((operators_case.captured _).andThen
      ((numberValue_case _ _).captured _)))

end Pattern.Preserves

end SearchCommands
