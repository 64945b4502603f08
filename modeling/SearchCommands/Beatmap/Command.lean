import SearchCommands.Beatmap.Criteria
import SearchCommands.Command

/-!
# Criteria in commands

In a command every measure is a number without a sign, introduced by one of the aliases of the
measure, at most twice.
-/

namespace SearchCommands.Beatmap

namespace Measure

/-- The declaration of the measure as a field. -/
def declaration (measure : Measure) : Field :=
  ⟨measure.field, .number false false, measure.aliases, [.atMost 2]⟩

/-- Puts the filter that was typed for the measure into the criteria. -/
def setter (measure : Measure) : Setter Criteria where
  field := measure.field
  assign value criteria :=
    match value.requireComparison measure.field with
    | .error reason => .error (.rejected reason)
    | .ok comparison =>
        match Filter.ofComparison comparison with
        | .error reason => .error (.rejected reason)
        | .ok filter => .ok (criteria.set measure filter)

end Measure

namespace Criteria

/-- The fields of criteria. -/
def grammar : Grammar := ⟨Measure.all.map Measure.declaration, by decide +kernel⟩

/-- The command that reads criteria. -/
def command : Command Criteria :=
  .mk grammar (Measure.all.map Measure.setter) (by decide +kernel) .done

/-- Reads criteria from an input. -/
def read (input : String) : Except Failure (Outcome Criteria) := command.run empty input

end Criteria

end SearchCommands.Beatmap
