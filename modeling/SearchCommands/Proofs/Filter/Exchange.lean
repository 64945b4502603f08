import SearchCommands.Proofs.Grammar.Alike
import SearchCommands.Proofs.Search.Order

/-!
# The order of two bounds

A range puts its bounds in the order of their values, so two bounds ask for the same filter in
either order of typing.  There is one exception: bounds of one value stay in the order of typing
(`Filter.ofComparison_tied`), and then the two filters are alike but not equal.
-/

namespace SearchCommands

open Number

/-- Results are alike if each of them succeeds whenever the other one does. -/
theorem ResultsAlike.of_succeeds {ε α : Type} {values : α → α → Prop} {result result' : Except ε α}
    (forwards : ∀ value, result = .ok value → ∃ value', result' = .ok value' ∧ values value value')
    (backwards : ∀ value', result' = .ok value' → ∃ value, result = .ok value) :
    ResultsAlike (fun _ _ => True) values result result' := by
  cases result with
  | ok value =>
      rcases forwards value rfl with ⟨value', rfl, alike⟩
      exact .done alike
  | error reason =>
      cases result' with
      | error reason' => exact .failed trivial
      | ok value' =>
          rcases backwards value' rfl with ⟨value, impossible⟩
          cases impossible

/-- Bounds with different values make one range, in whichever order they are given. -/
theorem Range.of_comm {first second : Bound Binary32} (firstFinite : first.value.isFinite = true)
    (secondFinite : second.value.isFinite = true)
    (apart : (first.value == second.value) = false) :
    Range.of first second = Range.of second first := by
  by_cases forwards : first.value ≤ second.value
  · have notBackwards : ¬ second.value ≤ first.value := by
      intro backwards
      have tied := Binary32.beq_of_le_of_le forwards backwards
      simp [apart] at tied
    simp [Range.of, forwards, notBackwards]
  · have backwards : second.value ≤ first.value := by
      apply Binary32.le_of_not_lt secondFinite firstFinite
      intro less
      exact forwards (Binary32.le_of_lt less)
    simp [Range.of, forwards, backwards]

namespace Filter

/-- The two typed bounds are read as numbers with the same value. -/
def Ties (first second : Bound String) : Prop :=
  ∃ bound bound', Reads first bound ∧ Reads second bound' ∧ (bound.value == bound'.value) = true

/-- The same filters, up to the order of the given bounds if these tie. -/
structure ExchangeAlike (first second : Bound String) (filter filter' : Filter) : Prop where
  alike : filter.Alike filter'
  same : ¬ Ties first second → filter = filter'

theorem exists_ofComparison_exchange {first second : Bound String} {filter : Filter}
    (asked : ofComparison (.pair first second) = .ok filter) :
    ∃ filter', ofComparison (.pair second first) = .ok filter' ∧
      ExchangeAlike first second filter filter' := by
  rcases ofComparison_pair_iff.mp asked with ⟨opposes, bound, bound', reads, reads', rfl⟩
  refine ⟨.between (Range.of bound' bound), ?_, ?_, ?_⟩
  · apply ofComparison_pair_iff.mpr
    exact ⟨opposes.symm, bound', bound, reads', reads, rfl⟩
  · exact Range.of_alike reads.2.2 reads'.2.2
  · intro apart
    apply congrArg between
    apply Range.of_comm reads.2.2 reads'.2.2
    rw [← Bool.not_eq_true]
    intro tied
    exact apart ⟨bound, bound', reads, reads', tied⟩

/-- Two comparisons ask for no range in either order, or for the same one in both. -/
theorem ofComparison_exchange (first second : Bound String) :
    ResultsAlike (fun _ _ => True) (ExchangeAlike first second)
      (ofComparison (.pair first second)) (ofComparison (.pair second first)) := by
  apply ResultsAlike.of_succeeds
  · intro filter
    exact exists_ofComparison_exchange
  · intro filter' asked
    rcases exists_ofComparison_exchange asked with ⟨filter, backAgain, _⟩
    exact ⟨filter, backAgain⟩

/-- Bounds of one value stay as they were typed, so `<=5 >=5` and `>=5 <=5` are different filters,
with different texts. -/
theorem ofComparison_tied :
    ∃ filter filter', ofComparison (.pair ⟨.lessOrEqual, "5"⟩ ⟨.greaterOrEqual, "5"⟩) = .ok filter ∧
      ofComparison (.pair ⟨.greaterOrEqual, "5"⟩ ⟨.lessOrEqual, "5"⟩) = .ok filter' ∧
      (filter == filter') = false ∧ filter.text = "<=5 >=5" ∧ filter'.text = ">=5 <=5" := by
  have evaluated : (match ofComparison (.pair ⟨.lessOrEqual, "5"⟩ ⟨.greaterOrEqual, "5"⟩),
      ofComparison (.pair ⟨.greaterOrEqual, "5"⟩ ⟨.lessOrEqual, "5"⟩) with
      | .ok filter, .ok filter' =>
          !(filter == filter') && filter.text == "<=5 >=5" && filter'.text == ">=5 <=5"
      | _, _ => false) = true := by decide +kernel
  split at evaluated
  · simp only [Bool.and_eq_true, Bool.not_eq_true', beq_iff_eq] at evaluated
    exact ⟨_, _, ‹_›, ‹_›, evaluated.1.1, evaluated.1.2, evaluated.2⟩
  · cases evaluated

end Filter

end SearchCommands
