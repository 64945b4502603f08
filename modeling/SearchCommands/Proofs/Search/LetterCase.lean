import SearchCommands.Proofs.Grammar.LetterCase
import SearchCommands.Proofs.Search.Isolation

/-!
# Letter case in commands

Criteria and play counts are numbers and flags have no value, so they are the same in any letter
case.  A search keeps the letter case of its texts and of nothing else
(`Search.letter_case_insignificant`).
-/

namespace SearchCommands

open Text Beatmap

namespace FieldValue.SameButCase

variable {value value' : FieldValue} (same : value.SameButCase value')

include same

theorem isPresent_eq : value.isPresent = value'.isPresent := by
  cases same <;> rfl

theorem requireComparison_eq (field : String) :
    value.requireComparison field = value'.requireComparison field := by
  cases same <;> rfl

theorem requireFlag_eq (field : String) : value.requireFlag field = value'.requireFlag field := by
  cases same <;> rfl

theorem requireText_alike (field : String) :
    ResultsAlike Eq EqualUpToCase (value.requireText field) (value'.requireText field) := by
  cases same with
  | text same => exact .done (sameButCase_iff.mp same)
  | missing | flag | comparison => exact .failed rfl

end FieldValue.SameButCase

namespace Beatmap

theorem Measure.respects_letter_case (measure : Measure) :
    measure.setter.Respects FieldValue.SameButCase Eq := by
  rintro value value' criteria _ same rfl
  have assigned : measure.setter.assign value criteria = measure.setter.assign value' criteria := by
    simp only [setter, same.requireComparison_eq]
  rw [assigned]
  cases measure.setter.assign value' criteria with
  | error reason => exact .failed rfl
  | ok filled => exact .done rfl

/-- Criteria do not depend on letter case. -/
theorem Criteria.read_sameButCase {input input' : String} (same : EqualUpToCase input input') :
    ResultsAlike (Failure.Alike EqualUpToCase) (Outcome.Alike Eq EqualUpToCase)
      (Criteria.read input) (Criteria.read input') := by
  have readings := Search.criteria_hasBuiltInRules.readings_sameButCase same
  refine Grammar.fill_alike ?_ FieldValue.SameButCase.isPresent_eq readings rfl
  intro setter member
  rcases List.mem_map.mp member with ⟨measure, _, rfl⟩
  exact measure.respects_letter_case

end Beatmap

namespace Search

/-- The searches differ at most in the letter case of the player and of the texts. -/
structure SameButCase (search search' : Search) : Prop where
  username : EqualUpToCase search.username search'.username
  exact : search.exact = search'.exact
  query : Option.Rel EqualUpToCase search.query search'.query
  artist : Option.Rel EqualUpToCase search.artist search'.artist
  title : Option.Rel EqualUpToCase search.title search'.title
  playcount : search.playcount = search'.playcount
  beatmap : search.beatmap = search'.beatmap

theorem SameButCase.refl (search : Search) : search.SameButCase search := by
  have text (text : Option String) : Option.Rel EqualUpToCase text text := by
    cases text with
    | none => exact .none
    | some text => exact .some rfl
  exact ⟨rfl, rfl, text _, text _, text _, rfl, rfl⟩

/-- A text that is put into two searches, or refused for both. -/
theorem sameButCase_of_text {found found' : Except Rejection String}
    (texts : ResultsAlike Eq EqualUpToCase found found') {put put' : String → Search}
    (puts : ∀ {text text'}, EqualUpToCase text text' → (put text).SameButCase (put' text')) :
    ResultsAlike Eq SameButCase (Except.mapError CommandError.rejected (do return put (← found)))
      (Except.mapError CommandError.rejected (do return put' (← found'))) := by
  cases texts with
  | failed same =>
      subst same
      exact .failed rfl
  | done same => exact .done (puts same)

theorem Part.respects_letter_case (part : Part) :
    part.setter.Respects FieldValue.SameButCase SameButCase := by
  intro value value' search search' same alike
  cases part with
  | username =>
      exact sameButCase_of_text (same.requireText_alike _)
        fun text => { alike with username := text }
  | exact =>
      simp only [setter, put, same.requireFlag_eq]
      cases value'.requireFlag Part.exact.field with
      | error reason => exact .failed rfl
      | ok present => exact .done { alike with exact := rfl }
  | query =>
      exact sameButCase_of_text (same.requireText_alike _)
        fun text => { alike with query := .some text }
  | artist =>
      exact sameButCase_of_text (same.requireText_alike _)
        fun text => { alike with artist := .some text }
  | title =>
      exact sameButCase_of_text (same.requireText_alike _)
        fun text => { alike with title := .some text }
  | playcount =>
      simp only [setter, put, same.requireComparison_eq]
      cases value'.requireComparison Part.playcount.field with
      | error reason => exact .failed rfl
      | ok comparison =>
          show ResultsAlike Eq SameButCase (Except.mapError CommandError.rejected
              (do return { search with playcount := some (← Filter.ofComparison comparison) }))
            (Except.mapError CommandError.rejected
              (do return { search' with playcount := some (← Filter.ofComparison comparison) }))
          cases Filter.ofComparison comparison with
          | error reason => exact .failed rfl
          | ok filter => exact .done { alike with playcount := rfl }

/-- Letter case does not matter, in searches as in every grammar with built-in rules: the fields and
the bytes they are captured from are the same, so are numbers, flags and errors, and texts and
leftovers differ in their letter case alone. -/
theorem letter_case_insignificant {input input' : String} (same : EqualUpToCase input input') :
    (∀ grammar : Grammar, grammar.HasBuiltInRules →
      List.Forall₂ Capture.SameButCase (grammar.captures input) (grammar.captures input') ∧
      ResultsAlike (Failure.Alike EqualUpToCase)
        (Reading.Alike FieldValue.SameButCase Capture.SameButCase EqualUpToCase)
        (grammar.read input) (grammar.read input')) ∧
    ResultsAlike (Failure.Alike EqualUpToCase) (Outcome.Alike SameButCase EqualUpToCase)
      (read input) (read input') := by
  refine ⟨?_, ?_⟩
  · intro grammar builtIn
    exact ⟨(grammar.captures_sameButCase (sameButCase_iff.mpr same)).1,
      builtIn.readings_sameButCase same⟩
  · rw [read_eq, read_eq]
    have criteria := Criteria.read_sameButCase same
    generalize Criteria.read input = result, Criteria.read input' = result' at criteria
    cases criteria with
    | failed alike => exact .failed alike
    | @done outcome outcome' alike =>
        have readings := hasBuiltInRules.readings_sameButCase alike.leftover
        refine Grammar.fill_alike ?_ FieldValue.SameButCase.isPresent_eq readings ?_
        · intro setter member
          rcases List.mem_map.mp member with ⟨part, _, rfl⟩
          exact part.respects_letter_case
        · rw [alike.value]
          exact .refl _

theorem letter_case_of_freedom :
    EqualUpToCase "mrekk -Q \"Freedom Dive\" CS>4 c>=5" "MREKK -q \"freedom dive\" cs>4 C>=5" ∧
      ResultsAlike (Failure.Alike EqualUpToCase) (Outcome.Alike SameButCase EqualUpToCase)
        (read "mrekk -Q \"Freedom Dive\" CS>4 c>=5")
        (read "MREKK -q \"freedom dive\" cs>4 C>=5") := by
  have same : EqualUpToCase "mrekk -Q \"Freedom Dive\" CS>4 c>=5"
      "MREKK -q \"freedom dive\" cs>4 C>=5" := by decide
  exact ⟨same, (letter_case_insignificant same).2⟩

end Search

end SearchCommands
