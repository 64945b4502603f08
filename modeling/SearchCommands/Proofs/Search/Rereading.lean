import SearchCommands.Proofs.Command.Commuting
import SearchCommands.Proofs.Grammar.Rereading
import SearchCommands.Proofs.Search.Isolation

/-!
# Reading what a command left over

The criteria leave nothing over that they would read, so reading them a second time gives the empty
criteria.  The second phase of a search takes more words out of what the criteria left over, quoted
texts among them, and still no constraint on the beatmap comes up in the leftover of a search.
-/

namespace SearchCommands

open Text

namespace Beatmap.Criteria

/-- A text in which no bounds are captured gives the empty criteria and is left over as a whole. -/
theorem read_of_findsNothingIn {text : String} (nothing : grammar.FindsNothingIn text) :
    read text = .ok ⟨empty, text⟩ := by
  have typed (measure : Measure) : measure.typed text = [] := by
    rw [Measure.typed, nothing.captures]
    rfl
  refine read_eq_ok_iff.mpr ⟨?_, ?_, nothing.leftover.symm⟩
  · intro measure
    simp [typed]
  · intro measure
    rw [typed]
    rfl

theorem leftoverOfResult_read (input : String) :
    leftoverOfResult (read input) = grammar.leftover input :=
  grammar.leftover_fill (Measure.all.map Measure.setter) empty input

end Beatmap.Criteria

namespace Search

open Beatmap

/-- No bounds on a measure are left over by a search. -/
theorem findsNothingIn_of_read {input : String} {outcome : Outcome Search}
    (done : read input = .ok outcome) : Criteria.grammar.FindsNothingIn outcome.leftover := by
  rcases read_eq_ok_iff.mp done with ⟨criteria, criteriaDone, _, _, _, rfl⟩
  have left : criteria.leftover = Criteria.grammar.leftover input :=
    (Criteria.read_eq_ok_iff.mp criteriaDone).2.2
  rw [left]
  have nothing := Criteria.isWordwise.findsNothingIn_leftover input
  exact Criteria.isWordwise.findsNothingIn_leftover_of isPlain.isQuoteFree nothing.captures

end Search

namespace Grammar

/-- What a grammar of flags and numbers leaves over, with or without success, is read by it as
nothing and left over again.  So the criteria for a beatmap read their leftover as the empty
criteria, and no bounds outside of quotation marks are in the leftover of a search. -/
theorem leftover_unrecognised {grammar : Grammar} (wordwise : grammar.IsWordwise) (input : String) :
    ((∀ reading, grammar.read input = .ok reading → grammar.FindsNothingIn reading.leftover) ∧
      ∀ failure, grammar.read input = .error failure →
        grammar.FindsNothingIn failure.leftover) ∧
    Beatmap.Criteria.read (leftoverOfResult (Beatmap.Criteria.read input)) =
      .ok ⟨Beatmap.Criteria.empty, leftoverOfResult (Beatmap.Criteria.read input)⟩ ∧
    ∀ outcome, Search.read input = .ok outcome →
      Beatmap.Criteria.grammar.FindsNothingIn outcome.leftover ∧
        ∀ (measure : Beatmap.Measure) (offset : Nat),
          measure.declaration.MatchesAt outcome.leftover.toList offset →
            ¬ OutsideQuotes outcome.leftover.toList offset := by
  refine ⟨⟨?_, ?_⟩, ?_, ?_⟩
  · intro reading done
    rcases read_eq_ok_iff.mp done with ⟨_, rfl⟩
    exact wordwise.findsNothingIn_leftover input
  · intro failure refused
    rw [leftover_of_error refused]
    exact wordwise.findsNothingIn_leftover input
  · apply Beatmap.Criteria.read_of_findsNothingIn
    rw [Beatmap.Criteria.leftoverOfResult_read]
    exact Beatmap.Criteria.isWordwise.findsNothingIn_leftover input
  · intro outcome done
    have nothing := Search.findsNothingIn_of_read done
    exact ⟨nothing, fun measure _ here =>
      nothing.not_matchesAt (Beatmap.Criteria.declaration_mem measure) here⟩

/-- In `mrekk ar>9 -t "x cs>3" b cs<4` the quoted bounds are in the title, and only `b` is left
over. -/
theorem leftover_unrecognised_title :
    let input := "mrekk ar>9 -t \"x cs>3\" b cs<4"
    Beatmap.Criteria.grammar.IsWordwise ∧
      Beatmap.Criteria.read "mrekk -t \"x cs>3\" b" =
        .ok ⟨Beatmap.Criteria.empty, "mrekk -t \"x cs>3\" b"⟩ ∧
      ∃ outcome, Search.read input = .ok outcome ∧ outcome.leftover = "b" ∧
        Beatmap.Criteria.grammar.FindsNothingIn outcome.leftover := by
  intro input
  rcases leftover_unrecognised Beatmap.Criteria.isWordwise input with ⟨_, again, settled⟩
  have left : leftoverOfResult (Beatmap.Criteria.read input) = "mrekk -t \"x cs>3\" b" := by
    rw [Beatmap.Criteria.leftoverOfResult_read]
    decide +kernel
  rw [left] at again
  have succeeded : (Search.read input).isOk = true := by decide +kernel
  rcases Search.exists_of_isOk succeeded with ⟨outcome, done⟩
  have rest : (Search.read input).toOption.map Outcome.leftover = some "b" := by decide +kernel
  refine ⟨Beatmap.Criteria.isWordwise, again, outcome, done, ?_, (settled outcome done).1⟩
  simpa [done, Except.toOption] using rest

end Grammar

end SearchCommands
