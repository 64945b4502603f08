import SearchCommands.Beatmap.Command
import SearchCommands.Proofs.Grammar.Values

/-!
# Reading criteria

Reading criteria succeeds exactly if every measure has at most two bounds and these ask for a
filter.  The criteria then have this filter for the measure.
-/

namespace SearchCommands.Beatmap

/-- The typed bounds of a measure. -/
def Measure.typed (measure : Measure) (input : String) : List (Bound String) :=
  ((Criteria.grammar.captures input).boundsOf measure.field)

namespace Criteria

theorem declaration_mem (measure : Measure) : measure.declaration ∈ grammar.fields :=
  List.mem_map_of_mem (Measure.mem_all measure)

theorem exists_measure {field : Field} (member : field ∈ grammar.fields) :
    ∃ measure : Measure, field = measure.declaration := by
  rcases List.mem_map.mp member with ⟨measure, _, rfl⟩
  exact ⟨measure, rfl⟩

theorem find?_setter (measure : Measure) :
    (Measure.all.map Measure.setter).find? (fun other => other.field == measure.field) =
      some measure.setter := by
  cases measure <;> rfl

theorem values_eq (input : String) :
    grammar.values (grammar.captures input) = Measure.all.map fun measure =>
      (measure.field, FieldValue.ofCaptured ((measure.typed input).map fun bound =>
        FieldValue.comparison (.single bound))) := by
  simp only [Grammar.values, grammar, List.map_map]
  apply List.map_congr_left
  intro measure _
  have values := Grammar.valuesOf_number input (declaration_mem measure) rfl
  exact congrArg (fun values => (measure.field, FieldValue.ofCaptured values)) values

theorem length_typed (measure : Measure) (input : String) :
    (measure.typed input).length = (grammar.captures input).countOf measure.field := by
  have values := Grammar.valuesOf_number input (declaration_mem measure) rfl
  rw [← Captures.length_valuesOf]
  change _ = ((grammar.captures input).valuesOf measure.declaration.name).length
  rw [values, List.length_map]
  rfl

theorem rejection?_eq_none_iff {input : String} :
    grammar.rejection? (grammar.captures input) = none ↔
      ∀ measure : Measure, (measure.typed input).length ≤ 2 := by
  rw [Grammar.rejection?_eq_none_iff]
  simp only [length_typed]
  constructor
  · intro holds measure
    have rule := holds measure.declaration (declaration_mem measure) (.atMost 2)
      (by simp [Measure.declaration])
    exact of_decide_eq_true rule
  · intro few field member rule ruleMember
    rcases exists_measure member with ⟨measure, rfl⟩
    simp only [Measure.declaration, List.mem_singleton] at ruleMember
    subst ruleMember
    exact decide_eq_true (few measure)

theorem isEmpty_iff {criteria : Criteria} :
    criteria.isEmpty = true ↔ ∀ measure, criteria.filter? measure = none := by
  rw [isEmpty, List.isEmpty_iff, present, List.filterMap_eq_nil_iff]
  simp only [Option.map_eq_none_iff]
  exact ⟨fun nothing measure => nothing measure measure.mem_all,
    fun nothing measure _ => nothing measure⟩

theorem filter?_of_mem_present {criteria : Criteria} {entry : Measure × Filter}
    (member : entry ∈ criteria.present) : criteria.filter? entry.1 = some entry.2 := by
  rcases List.mem_filterMap.mp member with ⟨measure, _, own⟩
  rcases Option.map_eq_some_iff.mp own with ⟨filter, constrained, rfl⟩
  exact constrained

/-- Puts a filter for a measure into the criteria, if there is one. -/
def put (criteria : Criteria) (measure : Measure) : Option Filter → Criteria
  | none => criteria
  | some filter => criteria.set measure filter

theorem filter?_put (criteria : Criteria) (measure other : Measure) (filter : Option Filter) :
    (criteria.put measure filter).filter? other =
      if other = measure then filter.or (criteria.filter? measure) else criteria.filter? other := by
  cases filter with
  | none =>
      split
      · rename_i same
        subst same
        rfl
      · rfl
  | some filter =>
      split
      · rename_i same
        subst same
        exact filter?_set_self criteria other filter
      · rename_i different
        exact filter?_set_of_ne criteria filter different

/-- The setter of a measure puts the filter for which the typed bounds ask. -/
theorem assignPresent_eq (measure : Measure) (typed : List (Bound String)) (criteria : Criteria) :
    measure.setter.assignPresent (FieldValue.ofCaptured (typed.map fun bound =>
        FieldValue.comparison (.single bound))) criteria =
      ((Filter.ofBounds typed).map (criteria.put measure)).mapError .rejected := by
  have assigned (comparison : Comparison) :
      measure.setter.assignPresent (.comparison comparison) criteria =
        (((Filter.ofComparison comparison).map some).map (criteria.put measure)).mapError
          .rejected := by
    simp only [Setter.assignPresent, FieldValue.isPresent, if_true, Measure.setter,
      FieldValue.requireComparison]
    cases Filter.ofComparison comparison <;> rfl
  rw [FieldValue.ofCaptured_bounds]
  rcases typed with _ | ⟨first, _ | ⟨second, rest⟩⟩
  · rfl
  · exact assigned (.single first)
  · exact assigned (.pair first second)

theorem assignPresent_iff {measure : Measure} {typed : List (Bound String)}
    {criteria criteria' : Criteria} :
    measure.setter.assignPresent (FieldValue.ofCaptured (typed.map fun bound =>
        FieldValue.comparison (.single bound))) criteria = .ok criteria' ↔
      ∃ filter, Filter.ofBounds typed = .ok filter ∧ criteria' = criteria.put measure filter := by
  rw [assignPresent_eq]
  cases Filter.ofBounds typed <;> simp [Except.map, Except.mapError, eq_comm]

theorem assignEach_iff {typed : Measure → List (Bound String)} {parts : List Measure}
    (distinct : parts.Nodup) {criteria criteria' : Criteria} :
    Setter.assignEach Measure.setter (fun measure => FieldValue.ofCaptured
        ((typed measure).map fun bound => FieldValue.comparison (.single bound))) parts criteria =
        .ok criteria' ↔
      ∀ measure, if measure ∈ parts then
          ∃ filter, Filter.ofBounds (typed measure) = .ok filter ∧
            criteria'.filter? measure = filter.or (criteria.filter? measure)
        else criteria'.filter? measure = criteria.filter? measure := by
  induction parts generalizing criteria with
  | nil =>
      simp only [Setter.assignEach, Except.ok.injEq, List.not_mem_nil, if_false]
      constructor
      · rintro rfl measure
        rfl
      · intro same
        rcases criteria with ⟨filters⟩
        rcases criteria' with ⟨filters'⟩
        rw [show filters' = filters from funext same]
  | cons part rest ih =>
      rw [List.nodup_cons] at distinct
      rw [Setter.assignEach_cons_iff]
      constructor
      · rintro ⟨next, assigned, filled⟩ measure
        rcases assignPresent_iff.mp assigned with ⟨filter, asked, rfl⟩
        have tail := (ih distinct.2).mp filled measure
        rw [filter?_put] at tail
        by_cases same : measure = part
        · subst same
          rw [if_neg distinct.1, if_pos rfl] at tail
          rw [if_pos (by simp)]
          exact ⟨filter, asked, tail⟩
        · rw [if_neg same] at tail
          simpa [same] using tail
      · intro each
        have own := each part
        rw [if_pos (by simp)] at own
        rcases own with ⟨filter, asked, ownFilter⟩
        refine ⟨_, assignPresent_iff.mpr ⟨filter, asked, rfl⟩, (ih distinct.2).mpr ?_⟩
        intro measure
        rw [filter?_put]
        by_cases same : measure = part
        · subst same
          rw [if_neg distinct.1, if_pos rfl]
          exact ownFilter
        · rw [if_neg same]
          simpa [same] using each measure

/-- Reading criteria: what succeeds, and with which filters. -/
theorem read_eq_ok_iff {input : String} {outcome : Outcome Criteria} :
    read input = .ok outcome ↔
      (∀ measure : Measure, (measure.typed input).length ≤ 2) ∧
        (∀ measure : Measure, Filter.ofBounds (measure.typed input) =
          .ok (outcome.value.filter? measure)) ∧
        outcome.leftover = grammar.leftover input := by
  have unfolded : read input = grammar.fill (Measure.all.map Measure.setter) empty input := rfl
  rw [unfolded, Grammar.fill_eq_ok_iff, rejection?_eq_none_iff, values_eq,
    Setter.assignAll_eq_assignEach find?_setter, assignEach_iff (by decide)]
  simp only [Measure.mem_all, if_true, empty, Option.or_none]
  constructor
  · rintro ⟨few, filters, leftover⟩
    refine ⟨few, ?_, leftover⟩
    intro measure
    rcases filters measure with ⟨filter, asked, same⟩
    rw [asked, same]
  · rintro ⟨few, filters, leftover⟩
    exact ⟨few, fun measure => ⟨_, filters measure, rfl⟩, leftover⟩

end Criteria

end SearchCommands.Beatmap
