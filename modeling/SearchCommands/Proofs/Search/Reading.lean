import SearchCommands.Proofs.Beatmap.Reading
import SearchCommands.Search.Command

/-!
# Reading searches

Reading a search succeeds exactly if the criteria for the beatmap can be read and, in what they left
over, the rules hold and the bounds of the play count ask for a filter.  The search then has what
was captured for each field.
-/

namespace SearchCommands.Search

open Beatmap

namespace Part

theorem mem_all (part : Part) : part ∈ all := by
  cases part <;> decide

/-- How often the field may occur. -/
def limit : Part → Nat
  | playcount => 2
  | _ => 1

end Part

theorem declaration_mem (part : Part) : part.declaration ∈ grammar.fields :=
  List.mem_map_of_mem part.mem_all

theorem exists_part {field : Field} (member : field ∈ grammar.fields) :
    ∃ part : Part, field = part.declaration := by
  rcases List.mem_map.mp member with ⟨part, _, rfl⟩
  exact ⟨part, rfl⟩

theorem find?_setter (part : Part) :
    (Part.all.map Part.setter).find? (fun other => other.field == part.field) =
      some part.setter := by
  cases part <;> rfl

theorem exists_of_isOk {ε α : Type} {result : Except ε α} (succeeded : result.isOk = true) :
    ∃ value, result = .ok value := by
  cases result with
  | error reason => cases succeeded
  | ok value => exact ⟨value, rfl⟩

/-- The rules of searches: no field too often, and no query beside an artist or a title. -/
structure WithinRules (captures : Captures) : Prop where
  few : ∀ part : Part, captures.countOf part.field ≤ part.limit
  noArtist : captures.has "query" = true → captures.has "artist" = false
  noTitle : captures.has "query" = true → captures.has "title" = false

theorem excludes_holds_iff {captures : Captures} {field other : String} :
    (Rule.excludes other).holds field captures = true ↔
      (captures.has field = true → captures.has other = false) := by
  simp only [Rule.holds]
  cases captures.has field <;> cases captures.has other <;> simp

/-- A field excludes another one if the other one excludes it. -/
theorem excludes_holds_comm {captures : Captures} {field other : String}
    (holds : (Rule.excludes other).holds field captures = true) :
    (Rule.excludes field).holds other captures = true := by
  rw [excludes_holds_iff] at holds ⊢
  intro present
  rw [← Bool.not_eq_true]
  intro own
  rw [holds own] at present
  cases present

theorem rejection?_eq_none_iff {captures : Captures} :
    grammar.rejection? captures = none ↔ WithinRules captures := by
  rw [Grammar.rejection?_eq_none_iff]
  constructor
  · intro holds
    refine ⟨?_, ?_, ?_⟩
    · intro part
      have own : Rule.atMost part.limit ∈ part.declaration.rules := by
        cases part <;> simp [Part.declaration, Part.rules, Part.limit]
      exact of_decide_eq_true (holds part.declaration (declaration_mem part) _ own)
    · exact excludes_holds_iff.mp (holds Part.query.declaration (declaration_mem .query)
        (.excludes "artist") (by simp [Part.declaration, Part.rules]))
    · exact excludes_holds_iff.mp (holds Part.query.declaration (declaration_mem .query)
        (.excludes "title") (by simp [Part.declaration, Part.rules]))
  · rintro ⟨few, noArtist, noTitle⟩ field member rule ruleMember
    rcases exists_part member with ⟨part, rfl⟩
    have limited (own : rule = .atMost part.limit) :
        rule.holds part.declaration.name captures = true := by
      rw [own]
      exact decide_eq_true (few part)
    cases part with
    | username | exact | playcount => exact limited (List.mem_singleton.mp ruleMember)
    | query =>
        simp only [Part.declaration, Part.rules, List.mem_cons, List.not_mem_nil, or_false]
          at ruleMember
        rcases ruleMember with own | rfl | rfl
        · exact limited own
        · exact excludes_holds_iff.mpr noArtist
        · exact excludes_holds_iff.mpr noTitle
    | artist =>
        simp only [Part.declaration, Part.rules, List.mem_cons, List.not_mem_nil, or_false]
          at ruleMember
        rcases ruleMember with own | rfl
        · exact limited own
        · exact excludes_holds_comm (excludes_holds_iff.mpr noArtist)
    | title =>
        simp only [Part.declaration, Part.rules, List.mem_cons, List.not_mem_nil, or_false]
          at ruleMember
        rcases ruleMember with own | rfl
        · exact limited own
        · exact excludes_holds_comm (excludes_holds_iff.mpr noTitle)

/-- Puts what was captured into a search; the filter is the one that the bounds of the play count
ask for. -/
def fillWith (captures : Captures) (playcount : Option Filter) (search : Search) : Search where
  username := (captures.textsOf "username").head?.getD search.username
  exact := captures.has "exact" || search.exact
  query := (captures.textsOf "query").head?.or search.query
  artist := (captures.textsOf "artist").head?.or search.artist
  title := (captures.textsOf "title").head?.or search.title
  playcount := playcount.or search.playcount
  beatmap := search.beatmap

/-- A text that was captured is put where its field says. -/
theorem assignPresent_text (part : Part) (merge : Option String → Search → Search)
    (nothing : ∀ search, merge none search = search)
    (puts : ∀ text search, part.put (.text text) search = .ok (merge (some text) search))
    (texts : List String) (search : Search) :
    part.setter.assignPresent (FieldValue.ofCaptured (texts.map FieldValue.text)) search =
      .ok (merge texts.head? search) := by
  rw [FieldValue.ofCaptured_texts]
  cases texts with
  | nil =>
      rw [List.head?_nil, nothing]
      rfl
  | cons first rest =>
      change (part.put (.text first) search).mapError CommandError.rejected = _
      rw [puts]
      rfl

theorem assignPresent_flag {values : List FieldValue} (flags : ∀ value ∈ values, value = .flag)
    (search : Search) :
    Part.exact.setter.assignPresent (FieldValue.ofCaptured values) search =
      .ok { search with exact := !values.isEmpty || search.exact } := by
  cases values with
  | nil => rfl
  | cons first rest =>
      rw [flags first (by simp)]
      rfl

theorem assignPresent_playcount (typed : List (Bound String)) (search : Search) :
    Part.playcount.setter.assignPresent (FieldValue.ofCaptured (typed.map fun bound =>
        FieldValue.comparison (.single bound))) search =
      ((Filter.ofBounds typed).map fun filter =>
        { search with playcount := filter.or search.playcount }).mapError .rejected := by
  have assigned (comparison : Comparison) :
      Part.playcount.setter.assignPresent (.comparison comparison) search =
        (((Filter.ofComparison comparison).map some).map fun filter =>
          { search with playcount := filter.or search.playcount }).mapError .rejected := by
    simp only [Setter.assignPresent, FieldValue.isPresent, if_true, Part.setter, Part.put,
      FieldValue.requireComparison, bind, Except.bind]
    cases Filter.ofComparison comparison <;> rfl
  rw [FieldValue.ofCaptured_bounds]
  rcases typed with _ | ⟨first, _ | ⟨second, rest⟩⟩
  · rfl
  · exact assigned (.single first)
  · exact assigned (.pair first second)

/-- The values of a flag are flags. -/
theorem valuesOf_exact (input : String) :
    ∀ value ∈ (grammar.captures input).valuesOf "exact", value = .flag := by
  intro value captured
  rcases Grammar.spells_of_mem_valuesOf (declaration_mem .exact) captured with ⟨word, spells⟩
  cases spells with
  | flag => rfl
  | text isText => cases isText
  | positional isText => cases isText
  | number isNumber => cases isNumber

theorem assignEach_eq (input : String) (search : Search) :
    Setter.assignEach Part.setter (fun part =>
        FieldValue.ofCaptured ((grammar.captures input).valuesOf part.field)) Part.all search =
      ((Filter.ofBounds ((grammar.captures input).boundsOf "playcount")).map
        (search.fillWith (grammar.captures input))).mapError .rejected := by
  have username := Grammar.valuesOf_text input (declaration_mem .username) rfl
  have query := Grammar.valuesOf_text input (declaration_mem .query) rfl
  have artist := Grammar.valuesOf_text input (declaration_mem .artist) rfl
  have title := Grammar.valuesOf_text input (declaration_mem .title) rfl
  have playcount := Grammar.valuesOf_number input (declaration_mem .playcount) rfl
  have flags := valuesOf_exact input
  simp only [Part.declaration, Part.field] at username query artist title playcount
  have present := Captures.has_eq_isEmpty (grammar.captures input) "exact"
  have putUsername := assignPresent_text .username
    (fun text search => { search with username := text.getD search.username })
    (fun _ => rfl) (fun _ _ => rfl)
  have putQuery := assignPresent_text .query
    (fun text search => { search with query := text.or search.query })
    (fun _ => rfl) (fun _ _ => rfl)
  have putArtist := assignPresent_text .artist
    (fun text search => { search with artist := text.or search.artist })
    (fun _ => rfl) (fun _ _ => rfl)
  have putTitle := assignPresent_text .title
    (fun text search => { search with title := text.or search.title })
    (fun _ => rfl) (fun _ _ => rfl)
  simp only [Part.all, Setter.assignEach, Part.field, username, query, artist, title, playcount,
    putUsername, putQuery, putArtist, putTitle, assignPresent_flag flags, ← present,
    assignPresent_playcount]
  cases Filter.ofBounds ((grammar.captures input).boundsOf "playcount") <;> rfl

/-- Filling a search from what the criteria left over: the rules come first, then the bounds of
the play count. -/
theorem fill_eq (input : String) (search : Search) :
    grammar.fill (Part.all.map Part.setter) search input =
      match grammar.rejection? (grammar.captures input) with
      | some reason => .error ⟨.rejected reason, grammar.leftover input⟩
      | none =>
          match Filter.ofBounds ((grammar.captures input).boundsOf "playcount") with
          | .error reason => .error ⟨.rejected reason, grammar.leftover input⟩
          | .ok filter =>
              .ok ⟨search.fillWith (grammar.captures input) filter, grammar.leftover input⟩ := by
  have values : grammar.values (grammar.captures input) = Part.all.map fun part =>
      (part.field, FieldValue.ofCaptured ((grammar.captures input).valuesOf part.field)) := by
    simp only [Grammar.values, grammar, List.map_map]
    rfl
  rw [Grammar.fill_eq, values, Setter.assignAll_eq_assignEach find?_setter, assignEach_eq]
  cases Filter.ofBounds ((grammar.captures input).boundsOf "playcount") <;> rfl

theorem fill_eq_ok_iff {input : String} {search : Search} {outcome : Outcome Search} :
    grammar.fill (Part.all.map Part.setter) search input = .ok outcome ↔
      WithinRules (grammar.captures input) ∧
        ∃ filter, Filter.ofBounds ((grammar.captures input).boundsOf "playcount") = .ok filter ∧
          outcome = ⟨search.fillWith (grammar.captures input) filter, grammar.leftover input⟩ := by
  rw [fill_eq, ← rejection?_eq_none_iff]
  cases grammar.rejection? (grammar.captures input) with
  | some reason => simp
  | none =>
      cases Filter.ofBounds ((grammar.captures input).boundsOf "playcount") with
      | error reason => simp
      | ok filter => simp [eq_comm]

theorem countOf_text {input : String} {part : Part} (kind : part.kind = .text true) :
    (grammar.captures input).countOf part.field =
      ((grammar.captures input).textsOf part.field).length := by
  have values := Grammar.valuesOf_text input (declaration_mem part) kind
  change (grammar.captures input).valuesOf part.field = _ at values
  rw [← Captures.length_valuesOf, values, List.length_map]
  rfl

theorem countOf_playcount (input : String) :
    (grammar.captures input).countOf "playcount" =
      ((grammar.captures input).boundsOf "playcount").length := by
  have values := Grammar.valuesOf_number input (declaration_mem .playcount) rfl
  change (grammar.captures input).valuesOf "playcount" = _ at values
  rw [← Captures.length_valuesOf, values, List.length_map]
  rfl

theorem has_eq_false_iff {input : String} (part : Part) (kind : part.kind = .text true) :
    (grammar.captures input).has part.field = false ↔
      (grammar.captures input).textsOf part.field = [] := by
  rw [← Bool.not_eq_true, Captures.has_iff_countOf_pos, countOf_text kind, Nat.not_lt,
    Nat.le_zero, List.length_eq_zero_iff]

/-- The search that was captured: criteria in the first phase, everything else in the second. -/
def captured (criteria : Criteria) (captures : Captures) (playcount : Option Filter) : Search where
  username := (captures.textsOf "username").head?.getD unspecifiedName
  exact := captures.has "exact"
  query := (captures.textsOf "query").head?
  artist := (captures.textsOf "artist").head?
  title := (captures.textsOf "title").head?
  playcount := playcount
  beatmap := if criteria.isEmpty then none else some criteria

theorem fillWith_putCriteria (criteria : Criteria) (captures : Captures)
    (playcount : Option Filter) :
    (putCriteria criteria empty).fillWith captures playcount =
      captured criteria captures playcount := by
  rw [putCriteria, captured]
  cases criteria.isEmpty <;> simp [fillWith, empty]

/-- Reading a search: the criteria first, then what they left over. -/
theorem read_eq (input : String) :
    read input = match Criteria.read input with
      | .error failure => .error failure
      | .ok criteria => grammar.fill (Part.all.map Part.setter)
          (putCriteria criteria.value empty) criteria.leftover := by
  simp only [read, command, Command.run, Phases.run, Criteria.read]
  cases Criteria.command.run Criteria.empty input <;> rfl

/-- Reading a search: what succeeds, and with which search. -/
theorem read_eq_ok_iff {input : String} {outcome : Outcome Search} :
    read input = .ok outcome ↔
      ∃ criteria, Criteria.read input = .ok criteria ∧
        WithinRules (grammar.captures criteria.leftover) ∧
        ∃ filter, Filter.ofBounds ((grammar.captures criteria.leftover).boundsOf "playcount") =
            .ok filter ∧
          outcome = ⟨captured criteria.value (grammar.captures criteria.leftover) filter,
            grammar.leftover criteria.leftover⟩ := by
  rw [read_eq]
  cases Criteria.read input with
  | error failure => simp
  | ok criteria =>
      simp only [fill_eq_ok_iff, fillWith_putCriteria, Except.ok.injEq, exists_eq_left']

end SearchCommands.Search
