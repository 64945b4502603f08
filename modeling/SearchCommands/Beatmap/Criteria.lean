import SearchCommands.Json

/-!
# Criteria for beatmaps

A beatmap has seven numbers that tell how difficult it is. Criteria constrain any of them by a
filter.
-/

namespace SearchCommands.Beatmap

/-- The numbers of a beatmap that can be constrained. -/
inductive Measure where
  | circleSize
  | bpm
  | length
  | drain
  | overallDifficulty
  | approachRate
  | starRating
  deriving DecidableEq, Repr

namespace Measure

/-- All measures, in the order in which they are listed everywhere. -/
def all : List Measure :=
  [circleSize, bpm, length, drain, overallDifficulty, approachRate, starRating]

/-- The name of the measure as a field of commands and as a column of queries. -/
def field : Measure → String
  | circleSize => "circle_size"
  | bpm => "bpm"
  | length => "length"
  | drain => "drain"
  | overallDifficulty => "overall_difficulty"
  | approachRate => "approach_rate"
  | starRating => "star_rating"

/-- The aliases of the measure in commands. -/
def aliases : Measure → List String
  | circleSize => ["cs"]
  | bpm => ["bpm"]
  | length => ["length", "len"]
  | drain => ["hp", "drain"]
  | overallDifficulty => ["od"]
  | approachRate => ["ar"]
  | starRating => ["sr", "stars"]

/-- The alias with which the measure is written, the first one. -/
def firstAlias (measure : Measure) : String := measure.aliases.headD ""

theorem mem_all (measure : Measure) : measure ∈ all := by
  cases measure <;> decide

end Measure

/-- Filters for the measures of a beatmap. -/
structure Criteria where
  /-- The filter of a measure, if it is constrained. -/
  filter? : Measure → Option Filter

namespace Criteria

/-- No constraint at all. -/
def empty : Criteria := ⟨fun _ => none⟩

instance : Inhabited Criteria := ⟨empty⟩

/-- Constrains one measure and leaves the others as they are. -/
def set (criteria : Criteria) (measure : Measure) (filter : Filter) : Criteria :=
  ⟨fun other => if other = measure then some filter else criteria.filter? other⟩

instance : BEq Criteria :=
  ⟨fun a b => Measure.all.all fun measure => a.filter? measure == b.filter? measure⟩

/-- The constrained measures with their filters, in the order of the measures. -/
def present (criteria : Criteria) : List (Measure × Filter) :=
  Measure.all.filterMap fun measure =>
    (criteria.filter? measure).map fun filter => (measure, filter)

/-- Whether nothing is constrained. -/
def isEmpty (criteria : Criteria) : Bool := criteria.present.isEmpty

/-- The criteria as they stand in a command. -/
def text (criteria : Criteria) : String :=
  " ".intercalate (criteria.present.flatMap fun (measure, filter) =>
    filter.bounds.map fun bound => measure.firstAlias ++ bound.text)

/-- The conditions on the columns of a relation, measure by measure. -/
def conditions (criteria : Criteria) (relation : String) : List Condition :=
  criteria.present.flatMap fun (measure, filter) => filter.conditions relation measure.field

/-- One clause for each constrained measure. -/
def clauses (criteria : Criteria) (relation : String) : List String :=
  criteria.present.map fun (measure, filter) => filter.clause relation measure.field

/-- The document of the criteria has a member for every measure. -/
def toJson (criteria : Criteria) : Json :=
  .object (Measure.all.map fun measure =>
    (measure.field, Json.ofOption Filter.toJson (criteria.filter? measure)))

@[simp]
theorem filter?_set_self (criteria : Criteria) (measure : Measure) (filter : Filter) :
    (criteria.set measure filter).filter? measure = some filter := by
  simp [set]

theorem filter?_set_of_ne (criteria : Criteria) {measure other : Measure} (filter : Filter)
    (different : other ≠ measure) :
    (criteria.set measure filter).filter? other = criteria.filter? other := by
  simp [set, different]

end Criteria

end SearchCommands.Beatmap
