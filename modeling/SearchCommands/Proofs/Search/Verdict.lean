import SearchCommands.Proofs.Grammar.Objections
import SearchCommands.Proofs.Grammar.Spans
import SearchCommands.Proofs.Search.Reading

/-!
# Why searches are refused

A search is refused for the first objection that applies, and for nothing else.  First come the
objections to the criteria: a measure is captured too often, or its bounds ask for no filter.  What
the criteria leave over is read next, and again the objections to the number of captures come before
those to the bounds.
-/

namespace SearchCommands

namespace Beatmap.Criteria

/-- The objections to the criteria in an input. -/
def objections (input : String) : List Objection :=
  let captures := grammar.captures input
  let rest := grammar.leftover input
  (Measure.all.map fun measure => .tooMany captures rest measure.field 2) ++
    Measure.all.flatMap fun measure => Filter.boundObjections rest (measure.typed input)

theorem ruleObjections_eq (captures : Captures) (leftover : String) :
    grammar.ruleObjections captures leftover =
      Measure.all.map fun measure => .tooMany captures leftover measure.field 2 := by
  rw [Grammar.ruleObjections, grammar, List.flatMap_map, List.map_eq_flatMap]
  apply List.flatMap_congr
  intro measure _
  exact congrArg (fun objection => [objection])
    (Rule.objection_atMost captures leftover measure.declaration 2)

/-- The setters refuse criteria for the first measure whose bounds ask for no filter. -/
theorem assignEach_eq (typed : Measure → List (Bound String)) (parts : List Measure)
    (criteria : Criteria) :
    ∃ filled, Setter.assignEach Measure.setter (fun measure => FieldValue.ofCaptured
        ((typed measure).map fun bound => FieldValue.comparison (.single bound))) parts criteria =
      match parts.findSome? fun measure => Filter.rejection? (typed measure) with
      | some reason => .error (.rejected reason)
      | none => .ok filled := by
  induction parts generalizing criteria with
  | nil => exact ⟨criteria, rfl⟩
  | cons part rest ih =>
      rw [Setter.assignEach, assignPresent_eq, List.findSome?_cons, Filter.rejection?]
      cases Filter.ofBounds (typed part) with
      | error reason => exact ⟨criteria, rfl⟩
      | ok filter => exact ih (criteria.put part filter)

/-- Reading criteria fails for the first objection that applies. -/
theorem exists_read_eq (input : String) :
    ∃ criteria, read input = match Objection.first? (objections input) with
      | some failure => .error failure
      | none => .ok ⟨criteria, grammar.leftover input⟩ := by
  have unfolded : read input = grammar.fill (Measure.all.map Measure.setter) empty input := rfl
  have rules := grammar.first?_ruleObjections (grammar.captures input) (grammar.leftover input)
  rw [ruleObjections_eq] at rules
  rw [unfolded, Grammar.fill_eq, objections, Objection.first?_append, rules]
  cases accepted : grammar.rejection? (grammar.captures input) with
  | some reason => exact ⟨empty, rfl⟩
  | none =>
      have few := rejection?_eq_none_iff.mp accepted
      have each (measure : Measure) :=
        Filter.first?_boundObjections (few measure)
          (Grammar.isNumber_of_mem_boundsOf (declaration_mem measure) rfl) (grammar.leftover input)
      have bounds : Objection.first? (Measure.all.flatMap fun measure =>
            Filter.boundObjections (grammar.leftover input) (measure.typed input)) =
          (Measure.all.findSome? fun measure => Filter.rejection? (measure.typed input)).map
            fun reason => ⟨.rejected reason, grammar.leftover input⟩ := by
        rw [Objection.first?_flatMap, List.map_findSome?]
        simp only [each]
        rfl
      rcases assignEach_eq (fun measure => measure.typed input) Measure.all empty with
        ⟨filled, assigned⟩
      refine ⟨filled, ?_⟩
      rw [values_eq, Setter.assignAll_eq_assignEach find?_setter, assigned, bounds]
      cases Measure.all.findSome? fun measure => Filter.rejection? (measure.typed input) <;> rfl

end Beatmap.Criteria

namespace Search

open Beatmap

/-- The objections to what a search reads itself, in the text that the criteria left over. -/
def ownObjections (input : String) : List Objection :=
  let captures := grammar.captures input
  let rest := grammar.leftover input
  [.tooMany captures rest "exact" 1, .tooMany captures rest "query" 1,
    .conflict captures rest "query" "artist", .conflict captures rest "query" "title",
    .tooMany captures rest "artist" 1, .tooMany captures rest "title" 1,
    .tooMany captures rest "playcount" 2] ++
    Filter.boundObjections rest (captures.boundsOf "playcount")

/-- The objections to a search, in the order of their priority. -/
def objections (input : String) : List Objection :=
  Criteria.objections input ++ ownObjections (Criteria.grammar.leftover input)

theorem ruleObjections_eq (captures : Captures) (leftover : String) :
    grammar.ruleObjections captures leftover =
      [.tooMany captures leftover "username" 1, .tooMany captures leftover "exact" 1,
        .tooMany captures leftover "query" 1, .conflict captures leftover "query" "artist",
        .conflict captures leftover "query" "title", .tooMany captures leftover "artist" 1,
        .conflict captures leftover "artist" "query", .tooMany captures leftover "title" 1,
        .conflict captures leftover "title" "query", .tooMany captures leftover "playcount" 2] := by
  simp only [Grammar.ruleObjections, grammar, Part.all, Part.declaration, Part.rules, Part.field,
    List.map_cons, List.map_nil, List.flatMap_cons, List.flatMap_nil, Rule.objection_atMost,
    Rule.objection_excludes, List.cons_append, List.nil_append]

/-- The player starts the text and is captured at most once, and a query excludes an artist or a
title before these exclude the query.  So three of the rules are never the first to fail. -/
theorem first?_ruleObjections_eq (input leftover : String) :
    let captures := grammar.captures input
    Objection.first? (grammar.ruleObjections captures leftover) =
      Objection.first? [.tooMany captures leftover "exact" 1, .tooMany captures leftover "query" 1,
        .conflict captures leftover "query" "artist", .conflict captures leftover "query" "title",
        .tooMany captures leftover "artist" 1, .tooMany captures leftover "title" 1,
        .tooMany captures leftover "playcount" 2] := by
  intro captures
  have once : captures.countOf "username" ≤ 1 :=
    Grammar.countOf_le_one_of_isPositional (declaration_mem .username) rfl input
  have noUsername : (Objection.tooMany captures leftover "username" 1).applies = true →
      ∃ earlier ∈ ([] : List Objection), earlier.applies = true := by
    intro applies
    exact absurd (of_decide_eq_true applies) (Nat.not_lt.mpr once)
  have swapped (field other : String) {before : List Objection}
      (member : Objection.conflict captures leftover other field ∈ before) :
      (Objection.conflict captures leftover field other).applies = true →
        ∃ earlier ∈ before, earlier.applies = true := by
    intro applies
    refine ⟨_, member, ?_⟩
    rw [Objection.conflict, Bool.and_comm]
    exact applies
  let ahead : List Objection := [.tooMany captures leftover "exact" 1,
    .tooMany captures leftover "query" 1, .conflict captures leftover "query" "artist",
    .conflict captures leftover "query" "title", .tooMany captures leftover "artist" 1]
  have noArtist : Objection.first? (ahead ++ .conflict captures leftover "artist" "query" ::
        [.tooMany captures leftover "title" 1, .conflict captures leftover "title" "query",
          .tooMany captures leftover "playcount" 2]) =
      Objection.first? (ahead ++ [.tooMany captures leftover "title" 1,
        .conflict captures leftover "title" "query", .tooMany captures leftover "playcount" 2]) :=
    Objection.first?_drop (swapped "artist" "query" (by simp [ahead]))
  have noTitle : Objection.first? ((ahead ++ [.tooMany captures leftover "title" 1]) ++
        .conflict captures leftover "title" "query" ::
          [.tooMany captures leftover "playcount" 2]) =
      Objection.first? ((ahead ++ [.tooMany captures leftover "title" 1]) ++
        [.tooMany captures leftover "playcount" 2]) :=
    Objection.first?_drop (swapped "title" "query" (by simp [ahead]))
  rw [ruleObjections_eq]
  exact (Objection.first?_drop noUsername).trans (noArtist.trans noTitle)

/-- Filling a search fails for the first objection to what it reads itself. -/
theorem exists_fill_eq (input : String) (search : Search) :
    ∃ filled, grammar.fill (Part.all.map Part.setter) search input =
      match Objection.first? (ownObjections input) with
      | some failure => .error failure
      | none => .ok ⟨filled, grammar.leftover input⟩ := by
  have rules := grammar.first?_ruleObjections (grammar.captures input) (grammar.leftover input)
  rw [first?_ruleObjections_eq] at rules
  rw [fill_eq, ownObjections, Objection.first?_append, rules]
  cases accepted : grammar.rejection? (grammar.captures input) with
  | some reason => exact ⟨search, rfl⟩
  | none =>
      have few := (rejection?_eq_none_iff.mp accepted).few .playcount
      rw [Part.field, countOf_playcount] at few
      have bounds := Filter.first?_boundObjections few
        (Grammar.isNumber_of_mem_boundsOf (declaration_mem .playcount) rfl)
        (grammar.leftover input)
      rw [bounds, Filter.rejection?]
      cases Filter.ofBounds ((grammar.captures input).boundsOf "playcount") with
      | error reason => exact ⟨search, rfl⟩
      | ok filter => exact ⟨_, rfl⟩

/-- Reading a search fails for the first objection that applies. -/
theorem exists_read_eq (input : String) :
    ∃ search, read input = match Objection.first? (objections input) with
      | some failure => .error failure
      | none => .ok ⟨search, grammar.leftover (Criteria.grammar.leftover input)⟩ := by
  rcases Criteria.exists_read_eq input with ⟨criteria, criteriaRead⟩
  rw [read_eq, objections, Objection.first?_append, criteriaRead]
  cases Objection.first? (Criteria.objections input) with
  | some failure => exact ⟨empty, rfl⟩
  | none =>
      simp only [Option.none_or]
      exact exists_fill_eq (Criteria.grammar.leftover input) (putCriteria criteria empty)

/-- A search is refused exactly if an objection applies: for the first one that does, with its
reason and with what is left over then.  Otherwise it is read. -/
theorem read_verdict (input : String) :
    (∃ search, read input = match (objections input).find? Objection.applies with
      | some objection => .error ⟨.rejected objection.reason, objection.leftover⟩
      | none => .ok ⟨search, grammar.leftover (Criteria.grammar.leftover input)⟩) ∧
    ((∃ failure, read input = .error failure) ↔
      ∃ objection ∈ objections input, objection.applies = true) := by
  rcases exists_read_eq input with ⟨search, verdict⟩
  rw [Objection.first?] at verdict
  cases found : (objections input).find? Objection.applies with
  | some objection =>
      rw [found] at verdict
      refine ⟨⟨search, verdict⟩, fun _ => ?_, fun _ => ⟨_, verdict⟩⟩
      exact ⟨objection, List.mem_of_find?_eq_some found, List.find?_some found⟩
  | none =>
      rw [found] at verdict
      refine ⟨⟨search, verdict⟩, ?_, ?_⟩
      · rintro ⟨failure, refused⟩
        rw [verdict] at refused
        cases refused
      · rintro ⟨objection, member, applies⟩
        exact absurd applies (List.find?_eq_none.mp found objection member)

example : ((objections "-e -e c>1 c=2 ar>1 ar>2 cs<1 cs<2").find? Objection.applies).map
    Objection.reason = some (.bothAbove ⟨.less, "1"⟩ ⟨.less, "2"⟩) := by
  decide +kernel

end Search

end SearchCommands
