import Mathlib.Data.List.Perm.Basic
import SearchCommands.Proofs.Filter.Clauses
import SearchCommands.Proofs.Search.Invariant

/-!
# What a search demands of a row

A search becomes clauses on the columns of two relations.  What the clauses say is what was typed:
the comparisons captured for the measures by the first phase and for the play count by the second
one, each with its operator and the number that its digits are read as.  None is lost, none is there
twice and none is changed; only the two bounds of a range can be exchanged.
-/

namespace SearchCommands

open Text FieldPattern Number

/-- What a typed bound demands of a column. -/
def Bound.demand (relation column : String) (bound : Bound String) : Demand :=
  ⟨relation, column, bound.operator, Binary32.read? bound.value⟩

/-- What the captured comparisons demand of the columns that are named like their fields, in the
order of the input. -/
def Captures.demands (captures : Captures) (relation : String) : List Demand :=
  captures.filterMap fun capture =>
    capture.value.comparison?.map fun comparison => comparison.primary.demand relation capture.field

namespace Filter

/-- The conditions of a filter demand what the typed bounds demand. -/
theorem perm_demands {typed : List (Bound String)} (few : typed.length ≤ 2)
    (inked : ∀ bound ∈ typed, NoBlank bound.value.toList) {filter : Option Filter}
    (asked : ofBounds typed = .ok filter) (relation column : String) :
    ((filter.toList.flatMap fun filter => filter.conditions relation column).map
        Condition.demand).Perm (typed.map (Bound.demand relation column)) := by
  rcases exists_reads few asked with ⟨read, reads, same⟩
  have conditions : (filter.toList.flatMap fun filter => filter.conditions relation column) =
      (filter.toList.flatMap bounds).map fun bound => ⟨relation, column, bound⟩ := by
    rw [List.map_flatMap]
    rfl
  have demanded : (read.map fun bound => Condition.demand ⟨relation, column, bound⟩) =
      typed.map (Bound.demand relation column) := by
    clear asked same
    induction reads with
    | nil => rfl
    | @cons bound number more numbers own _ ih =>
        rcases own with ⟨operator, value, _⟩
        rw [trim_eq_self_iff.mpr (inked bound List.mem_cons_self).trimmed, String.ofList_toList]
          at value
        have tail := ih (by simp only [List.length_cons] at few; omega)
          fun other member => inked other (List.mem_cons_of_mem bound member)
        rw [List.map_cons, List.map_cons, tail]
        simp only [Condition.demand, Bound.demand, operator, value]
  rw [conditions, List.map_map, ← demanded]
  exact same.map _

end Filter

/-- Choosing entries part by part puts them in the order of the parts and loses none. -/
theorem perm_flatMap_filter {ι α : Type} (key : α → String) {name : ι → String} {parts : List ι}
    (distinct : (parts.map name).Nodup) {entries : List α}
    (known : ∀ entry ∈ entries, ∃ part ∈ parts, key entry = name part) :
    entries.Perm
      (parts.flatMap fun part => entries.filter fun entry => key entry == name part) := by
  induction parts generalizing entries with
  | nil =>
      have empty : entries = [] := by
        apply List.eq_nil_iff_forall_not_mem.mpr
        intro entry member
        rcases known entry member with ⟨part, impossible, _⟩
        cases impossible
      rw [empty]
      rfl
  | cons part rest ih =>
      rw [List.map_cons, List.nodup_cons] at distinct
      let others := entries.filter fun entry => !(key entry == name part)
      have restKnown : ∀ entry ∈ others, ∃ other ∈ rest, key entry = name other := by
        intro entry member
        rcases List.mem_filter.mp member with ⟨inside, different⟩
        rcases known entry inside with ⟨other, otherMember, same⟩
        rcases List.mem_cons.mp otherMember with rfl | otherMember
        · simp [same] at different
        · exact ⟨other, otherMember, same⟩
      have chosen : (rest.flatMap fun other => others.filter fun entry => key entry == name other) =
          rest.flatMap fun other => entries.filter fun entry => key entry == name other := by
        apply List.flatMap_congr
        intro other member
        rw [List.filter_filter]
        apply List.filter_congr
        intro entry _
        by_cases same : key entry = name other
        · have different : name other ≠ name part := fun equal =>
            distinct.1 (equal ▸ List.mem_map_of_mem member)
          simp [same, different]
        · simp [same]
      rw [List.flatMap_cons, ← chosen]
      exact (List.filter_append_perm _ entries).symm.trans
        ((ih distinct.2 restKnown).append_left _)

namespace Captures

/-- The demands on one column are those of the bounds of its field. -/
theorem filter_demands (captures : Captures) (relation field : String) :
    ((captures.demands relation).filter fun demand => demand.column == field) =
      (captures.boundsOf field).map (Bound.demand relation field) := by
  rw [demands, boundsOf, valuesOf, List.filter_filterMap, List.filterMap_map, List.filterMap_filter,
    List.map_filterMap]
  apply List.filterMap_congr
  intro capture _
  by_cases own : capture.field = field
  · subst own
    cases typed : capture.value.comparison? <;> simp [typed, Bound.demand]
  · cases capture.value.comparison? <;> simp [Bound.demand, own]

theorem exists_of_mem_demands {captures : Captures} {relation : String} {demand : Demand}
    (member : demand ∈ captures.demands relation) :
    ∃ capture ∈ captures, demand.column = capture.field ∧
      ∃ comparison, capture.value = .comparison comparison := by
  rcases List.mem_filterMap.mp member with ⟨capture, inside, asked⟩
  rcases Option.map_eq_some_iff.mp asked with ⟨comparison, typed, rfl⟩
  refine ⟨capture, inside, rfl, comparison, ?_⟩
  cases value : capture.value with
  | comparison content =>
      rw [value] at typed
      exact congrArg _ (Option.some.inj typed)
  | missing | flag | text => rw [value] at typed; cases typed

end Captures

namespace Beatmap.Criteria

theorem length_demands (input relation : String) :
    ((grammar.captures input).demands relation).length = (grammar.captures input).length := by
  apply List.filterMap_length_eq_length.mpr
  intro capture captured
  rcases Grammar.exists_field_of_mem_captures captured with ⟨field, fieldMember, name⟩
  rcases exists_measure fieldMember with ⟨measure, rfl⟩
  have inside : capture.value ∈ (grammar.captures input).valuesOf measure.declaration.name :=
    Captures.mem_valuesOf_iff.mpr ⟨capture, captured, name, rfl⟩
  rw [Grammar.valuesOf_number input fieldMember rfl, List.mem_map] at inside
  rcases inside with ⟨bound, _, value⟩
  rw [← value]
  rfl

theorem conditions_eq (criteria : Criteria) (relation : String) :
    criteria.conditions relation = Measure.all.flatMap fun measure =>
      (criteria.filter? measure).toList.flatMap fun filter =>
        filter.conditions relation measure.field := by
  rw [conditions, present, List.filterMap_eq_flatMap_toList, List.flatMap_assoc]
  apply List.flatMap_congr
  intro measure _
  cases criteria.filter? measure <;> simp

/-- The constrained measures are in order, and none is there twice. -/
theorem present_sublist (criteria : Criteria) :
    (criteria.present.map fun (measure, _) => measure.field).Sublist
      (Measure.all.map Measure.field) := by
  rw [present, List.map_filterMap]
  induction Measure.all with
  | nil => exact .slnil
  | cons measure rest ih =>
      cases own : criteria.filter? measure with
      | none =>
          rw [List.filterMap_cons_none (by simp [own])]
          exact ih.cons measure.field
      | some filter =>
          rw [List.filterMap_cons_some (by simp [own]; rfl)]
          exact ih.cons_cons measure.field

theorem conditions_of_isEmpty {criteria : Criteria} (empty : criteria.isEmpty = true)
    (relation : String) : criteria.conditions relation = [] := by
  rw [conditions_eq, List.flatMap_eq_nil_iff]
  intro measure _
  rw [isEmpty_iff.mp empty measure]
  rfl

theorem perm_demands {input : String} {criteria : Outcome Criteria}
    (done : read input = .ok criteria) (relation : String) :
    ((criteria.value.conditions relation).map Condition.demand).Perm
      ((grammar.captures input).demands relation) := by
  rcases read_eq_ok_iff.mp done with ⟨few, asked, _⟩
  have known : ∀ demand ∈ (grammar.captures input).demands relation,
      ∃ measure ∈ Measure.all, demand.column = measure.field := by
    intro demand member
    rcases Captures.exists_of_mem_demands member with ⟨capture, captured, column, _⟩
    rcases Grammar.exists_field_of_mem_captures captured with ⟨field, fieldMember, name⟩
    rcases exists_measure fieldMember with ⟨measure, rfl⟩
    exact ⟨measure, measure.mem_all, column.trans name⟩
  have parts := perm_flatMap_filter Demand.column (by decide) known
  have each (measure : Measure) :
      (((criteria.value.filter? measure).toList.flatMap fun filter =>
          filter.conditions relation measure.field).map Condition.demand).Perm
        (((grammar.captures input).demands relation).filter fun demand =>
          demand.column == measure.field) := by
    rw [Captures.filter_demands]
    exact Filter.perm_demands (few measure)
      (Grammar.noBlank_of_mem_boundsOf (declaration_mem measure) rfl) (asked measure) _ _
  rw [conditions_eq, List.map_flatMap]
  exact (List.Perm.flatMap_left _ fun measure _ => each measure).trans parts.symm

end Beatmap.Criteria

namespace Search

open Beatmap

/-- Of the second phase, the play count alone has comparisons. -/
theorem demands_eq (input relation : String) :
    (grammar.captures input).demands relation =
      ((grammar.captures input).boundsOf "playcount").map (Bound.demand relation "playcount") := by
  rw [← Captures.filter_demands, eq_comm, List.filter_eq_self]
  intro demand member
  rcases Captures.exists_of_mem_demands member with ⟨capture, captured, column, comparison, value⟩
  rcases Grammar.exists_field_of_mem_captures captured with ⟨field, fieldMember, name⟩
  have inside : capture.value ∈ (grammar.captures input).valuesOf field.name :=
    Captures.mem_valuesOf_iff.mpr ⟨capture, captured, name, rfl⟩
  rcases Grammar.spells_of_mem_valuesOf fieldMember inside with ⟨word, spells⟩
  rw [value] at spells
  generalize isComparison : FieldValue.comparison comparison = own at spells
  cases spells with
  | flag | text | positional => cases isComparison
  | number kind =>
      rcases exists_part fieldMember with ⟨part, rfl⟩
      cases part with
      | playcount => simp [column, name, Part.declaration, Part.field]
      | username | exact | query | artist | title => cases kind

/-- The columns that a search can constrain: the play count and then the measures in their order. -/
def columns : List String := "playcount" :: Measure.all.map Measure.field

/-- The relation that has a column: scores have the play count, beatmaps have the measures. -/
def relationOf (scoreRelation beatmapRelation column : String) : String :=
  if column = "playcount" then scoreRelation else beatmapRelation

theorem relationOf_measure (scoreRelation beatmapRelation : String) (measure : Measure) :
    relationOf scoreRelation beatmapRelation measure.field = beatmapRelation := by
  have different : measure.field ≠ "playcount" := by cases measure <;> decide
  exact if_neg different

/-- The constrained columns of a search with their filters, in the order of the columns. -/
def constraints (search : Search) : List (String × Filter) :=
  (search.playcount.toList.map fun filter => ("playcount", filter)) ++
    search.beatmap.toList.flatMap fun criteria => criteria.present.map fun (measure, filter) =>
      (measure.field, filter)

/-- There is one clause for each constrained column. -/
theorem clauses_eq (search : Search) (scoreRelation beatmapRelation : String) :
    search.clauses scoreRelation beatmapRelation = search.constraints.map fun (column, filter) =>
      filter.clause (relationOf scoreRelation beatmapRelation column) column := by
  rw [clauses, constraints, List.map_append, List.map_map, List.map_flatMap]
  congr 1
  apply List.flatMap_congr
  intro criteria _
  rw [Criteria.clauses, List.map_map]
  apply List.map_congr_left
  rintro ⟨measure, filter⟩ _
  simp only [Function.comp_apply, relationOf_measure]

theorem conditions_eq (search : Search) (scoreRelation beatmapRelation : String) :
    search.conditions scoreRelation beatmapRelation = search.constraints.flatMap
      fun (column, filter) =>
        filter.conditions (relationOf scoreRelation beatmapRelation column) column := by
  rw [conditions, constraints, List.flatMap_append, List.flatMap_map, List.flatMap_assoc]
  congr 1
  apply List.flatMap_congr
  intro criteria _
  rw [Criteria.conditions, List.flatMap_map]
  apply List.flatMap_congr
  rintro ⟨measure, filter⟩ _
  simp only [relationOf_measure]

/-- The columns of the constraints are in order, and none is there twice. -/
theorem constraints_sublist (search : Search) :
    (search.constraints.map Prod.fst).Sublist columns := by
  have playcount : (search.playcount.toList.map fun _ => "playcount").Sublist ["playcount"] := by
    cases search.playcount with
    | none => exact List.nil_sublist _
    | some filter => exact List.Sublist.refl _
  have beatmap : (search.beatmap.toList.flatMap fun criteria =>
      criteria.present.map fun (measure, _) => measure.field).Sublist
        (Measure.all.map Measure.field) := by
    cases search.beatmap with
    | none => exact List.nil_sublist _
    | some criteria =>
        rw [Option.toList_some, List.flatMap_singleton]
        exact criteria.present_sublist
  rw [constraints, List.map_append, List.map_map, List.map_flatMap]
  simp only [List.map_map]
  exact playcount.append beatmap

/-- The constraints of a faithful search can be read from clauses. -/
theorem IsFaithful.isReadable {search : Search} (faithful : search.IsFaithful)
    (scoreRelation beatmapRelation : String) :
    ∀ constraint ∈ search.constraints, ∀ condition ∈ constraint.2.conditions
      (relationOf scoreRelation beatmapRelation constraint.1) constraint.1,
        condition.IsReadable (relationOf scoreRelation beatmapRelation) := by
  intro constraint member condition inside
  rcases List.mem_map.mp inside with ⟨bound, bounds, rfl⟩
  have noPoint : ∀ column ∈ columns, '.' ∉ column.toList := by decide
  have column := search.constraints_sublist.subset (List.mem_map_of_mem member)
  have sound : bound.operator ≠ .absent ∧ bound.value.isFinite = true := by
    rcases List.mem_append.mp member with member | member
    · rcases List.mem_map.mp member with ⟨filter, asked, rfl⟩
      have given := (faithful.playcount filter (Option.mem_toList.mp asked)).bounds bound bounds
      exact ⟨given.1, given.2.isFinite⟩
    · rcases List.mem_flatMap.mp member with ⟨criteria, asked, member⟩
      rcases List.mem_map.mp member with ⟨⟨measure, filter⟩, present, rfl⟩
      have filters := (faithful.beatmap criteria (Option.mem_toList.mp asked)).filters
      have given := (filters measure filter (Criteria.filter?_of_mem_present present)).bounds bound
        bounds
      exact ⟨given.1, given.2.isFinite⟩
  exact ⟨rfl, noPoint _ column, sound.1, sound.2⟩

/-- What the filters of a search demand, constraint by constraint. -/
def demandGroups (search : Search) (scoreRelation beatmapRelation : String) :
    List (List Demand) :=
  search.constraints.map fun (column, filter) =>
    (filter.conditions (relationOf scoreRelation beatmapRelation column) column).map
      Condition.demand

theorem flatten_demandGroups (search : Search) (scoreRelation beatmapRelation : String) :
    (search.demandGroups scoreRelation beatmapRelation).flatten =
      (search.conditions scoreRelation beatmapRelation).map Condition.demand := by
  rw [conditions_eq, List.map_flatMap]
  rfl

/-- Every constraint demands something of its own column. -/
theorem demandGroups_columns (search : Search) (scoreRelation beatmapRelation : String) :
    List.Forall₂ (fun column group => group ≠ [] ∧ ∀ demand ∈ group, demand.column = column ∧
        demand.relation = relationOf scoreRelation beatmapRelation column)
      (search.constraints.map Prod.fst) (search.demandGroups scoreRelation beatmapRelation) := by
  rw [demandGroups, List.forall₂_map_left_iff, List.forall₂_map_right_iff, List.forall₂_same]
  rintro ⟨column, filter⟩ _
  constructor
  · cases filter with
    | single bound => exact List.cons_ne_nil _ _
    | between range => exact List.cons_ne_nil _ _
  · intro demand member
    rcases List.mem_map.mp member with ⟨condition, inside, rfl⟩
    rcases List.mem_map.mp inside with ⟨bound, _, rfl⟩
    exact ⟨rfl, rfl⟩

/-- The clauses of a faithful search say what its filters demand. -/
theorem IsFaithful.read_clauses {search : Search} (faithful : search.IsFaithful)
    (scoreRelation beatmapRelation : String) :
    (search.clauses scoreRelation beatmapRelation).map
        (Demand.ofClause? (relationOf scoreRelation beatmapRelation)) =
      (search.demandGroups scoreRelation beatmapRelation).map some := by
  rw [clauses_eq, demandGroups, List.map_map, List.map_map]
  apply List.map_congr_left
  intro constraint member
  apply Filter.ofClause?_clause
  exact faithful.isReadable scoreRelation beatmapRelation constraint member

/-- The numbers that a faithful search demands are finite. -/
theorem IsFaithful.finite_demands {search : Search} (faithful : search.IsFaithful)
    (scoreRelation beatmapRelation : String) :
    ∀ demand ∈ (search.demandGroups scoreRelation beatmapRelation).flatten,
      ∃ value, demand.value = some value ∧ value.isFinite = true := by
  intro demand member
  rcases List.mem_flatten.mp member with ⟨group, groupMember, inside⟩
  rcases List.mem_map.mp groupMember with ⟨constraint, constrained, rfl⟩
  rcases List.mem_map.mp inside with ⟨condition, conditionMember, rfl⟩
  have readable := faithful.isReadable scoreRelation beatmapRelation constraint constrained
    condition conditionMember
  exact ⟨_, rfl, readable.number⟩

/-- The comparisons captured in the two phases: those for the play count from what the first phase
left over, those for the measures from the input. -/
def demanded (input scoreRelation beatmapRelation : String) : List Demand :=
  (grammar.captures (Criteria.grammar.leftover input)).demands scoreRelation ++
    (Criteria.grammar.captures input).demands beatmapRelation

/-- Every capture for the play count and for a measure is there once. -/
theorem length_demanded (input scoreRelation beatmapRelation : String) :
    (demanded input scoreRelation beatmapRelation).length =
      (grammar.captures (Criteria.grammar.leftover input)).countOf "playcount" +
        (Criteria.grammar.captures input).length := by
  rw [demanded, List.length_append, demands_eq, List.length_map, countOf_playcount,
    Criteria.length_demands]

/-- The conditions of a search that was read demand what was captured. -/
theorem perm_demanded {input : String} {outcome : Outcome Search}
    (done : read input = .ok outcome) (scoreRelation beatmapRelation : String) :
    ((outcome.value.conditions scoreRelation beatmapRelation).map Condition.demand).Perm
      (demanded input scoreRelation beatmapRelation) := by
  rcases read_eq_ok_iff.mp done with ⟨criteria, criteriaRead, within, filter, asked, rfl⟩
  have rest := (Criteria.read_eq_ok_iff.mp criteriaRead).2.2
  have few := within.few .playcount
  rw [Part.field, countOf_playcount] at few
  have beatmap : ((if criteria.value.isEmpty then none else some criteria.value).toList.flatMap
      fun criteria => criteria.conditions beatmapRelation) =
        criteria.value.conditions beatmapRelation := by
    cases empty : criteria.value.isEmpty with
    | true => exact (Criteria.conditions_of_isEmpty empty beatmapRelation).symm
    | false => simp
  rw [demanded, ← rest, conditions, captured, beatmap, List.map_append, demands_eq]
  exact (Filter.perm_demands few (Grammar.noBlank_of_mem_boundsOf (declaration_mem .playcount) rfl)
    asked _ _).append (Criteria.perm_demands criteriaRead _)

/-- No comparison is lost, duplicated or changed between what is typed and the clauses.  What the
clauses say, read from their texts, are the conditions of the search and the captured comparisons,
each with its column, its operator and its number.  There is one clause for each column, in the
order of the columns.  So the clauses hold of the rows of which all captured comparisons hold,
whatever numbers the rows have. -/
theorem clauses_demand_what_was_captured {input : String} {outcome : Outcome Search}
    (done : read input = .ok outcome) (scoreRelation beatmapRelation : String) :
    let clauses := outcome.value.clauses scoreRelation beatmapRelation
    let relation := relationOf scoreRelation beatmapRelation
    let captured := demanded input scoreRelation beatmapRelation
    ∃ said : List (List Demand),
      clauses.map (Demand.ofClause? relation) = said.map some ∧
      (outcome.value.conditions scoreRelation beatmapRelation).map Condition.demand =
        said.flatten ∧
      said.flatten.Perm captured ∧
      captured.length = (grammar.captures (Criteria.grammar.leftover input)).countOf "playcount" +
        (Criteria.grammar.captures input).length ∧
      (∀ demand ∈ captured, ∃ value, demand.value = some value ∧ value.isFinite = true) ∧
      (∃ asked : List String, asked.Sublist columns ∧
        List.Forall₂ (fun column group => group ≠ [] ∧ ∀ demand ∈ group,
          demand.column = column ∧ demand.relation = relation column) asked said) ∧
      ∀ (ν : Type) (compares : Operator → ν → Binary32 → Prop) (row : String → String → ν),
        (∀ clause ∈ clauses, ClauseHolds compares row relation clause) ↔
          ∀ demand ∈ captured, demand.Holds compares row := by
  intro clauses relation captured
  have faithful := isFaithful_of_read done
  have clausesRead := faithful.read_clauses scoreRelation beatmapRelation
  have flat := flatten_demandGroups outcome.value scoreRelation beatmapRelation
  have same : (outcome.value.demandGroups scoreRelation beatmapRelation).flatten.Perm captured := by
    rw [flat]
    exact perm_demanded done scoreRelation beatmapRelation
  refine ⟨_, clausesRead, flat.symm, same, length_demanded _ _ _, ?_,
    ⟨_, outcome.value.constraints_sublist, demandGroups_columns _ _ _⟩, ?_⟩
  · intro demand member
    exact faithful.finite_demands _ _ demand (same.mem_iff.mpr member)
  · intro ν compares row
    rw [clausesHold_iff clausesRead]
    apply forall_congr'
    intro demand
    rw [same.mem_iff]

/-- Two ranges whose bounds are typed apart become two clauses that say what was typed. -/
theorem clauses_demand_ranges :
    ∃ outcome, ∃ said : List (List Demand), read "mrekk ar<9.75 c>=5 -e ar>9.5 c<20" = .ok outcome ∧
      (outcome.value.clauses "score" "beatmap").map
        (Demand.ofClause? (relationOf "score" "beatmap")) = said.map some ∧
      said.flatten.Perm
        [⟨"score", "playcount", .greaterOrEqual, Binary32.read? "5"⟩,
          ⟨"score", "playcount", .less, Binary32.read? "20"⟩,
          ⟨"beatmap", "approach_rate", .less, Binary32.read? "9.75"⟩,
          ⟨"beatmap", "approach_rate", .greater, Binary32.read? "9.5"⟩] := by
  have succeeded : (read "mrekk ar<9.75 c>=5 -e ar>9.5 c<20").isOk = true := by decide +kernel
  rcases exists_of_isOk succeeded with ⟨outcome, done⟩
  rcases clauses_demand_what_was_captured done "score" "beatmap" with
    ⟨said, clauses, _, same, _⟩
  have typed : demanded "mrekk ar<9.75 c>=5 -e ar>9.5 c<20" "score" "beatmap" =
      [⟨"score", "playcount", .greaterOrEqual, Binary32.read? "5"⟩,
        ⟨"score", "playcount", .less, Binary32.read? "20"⟩,
        ⟨"beatmap", "approach_rate", .less, Binary32.read? "9.75"⟩,
        ⟨"beatmap", "approach_rate", .greater, Binary32.read? "9.5"⟩] := by
    decide +kernel
  rw [typed] at same
  exact ⟨outcome, said, done, clauses, same⟩

end Search

end SearchCommands
