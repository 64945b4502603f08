import SearchCommands.Proofs.Grammar.Plain

/-!
# Which field has the token

At a place the fields are tried one after the other, and the first one that occurs there has the
token (`Grammar.tokenAt?_eq_findSome?`).  Aliases can overlap, so several fields may occur at one
place.  A field by itself occurs there with one end; only the value of a number can depend on the
preference among its aliases, and then on nothing but its word.
-/

namespace SearchCommands

open Text Pattern FieldPattern

namespace Field

variable {field : Field}

/-- A field has one word at a place, whatever its value is. -/
theorem OccursAt.exists_word (proper : field.IsProper) {start stop stop' : Cursor}
    {value value' : FieldValue} (occurs : field.OccursAt start stop value)
    (occurs' : field.OccursAt start stop' value') :
    ∃ word rest, field.Spells word value ∧ field.Spells word value' ∧ EndsWord rest ∧
      stop' = stop := by
  rcases occurs with ⟨blanks, word, rest, split, blank, spells, ends, _, rfl⟩
  rcases start with ⟨before, after⟩
  simp only at split
  subst split
  rcases occurs'.after_blanks proper blank
    ((spells.startsInked proper).append (spells.ne_nil proper)) with
    ⟨word', rest', same, spells', ends', _, rfl⟩
  rcases spells.word_unique proper spells' ends ends' same with ⟨rfl, rfl⟩
  exact ⟨word, rest, spells, spells', ends, rfl⟩

/-- A field occurs at a place with one end. -/
theorem OccursAt.stop_unique (proper : field.IsProper) {start stop stop' : Cursor}
    {value value' : FieldValue} (occurs : field.OccursAt start stop value)
    (occurs' : field.OccursAt start stop' value') : stop = stop' := by
  rcases occurs.exists_word proper occurs' with ⟨_, _, _, _, _, same⟩
  exact same.symm

/-- The token that the field has at a place if no other field is looked for. -/
def tokenAt? (field : Field) (cursor : Cursor) : Option Token :=
  (field.pattern.match? cursor).bind fun way =>
    (way.group? field.name).map fun group =>
      ⟨field.name, group.start, group.stop, field.valueOf way⟩

theorem tokenAt?_of_match? (proper : field.IsProper) {cursor : Cursor} {way : Way}
    (preferred : field.pattern.match? cursor = some way) :
    ∃ stop, field.tokenAt? cursor = some ⟨field.name, cursor, stop, field.valueOf way⟩ ∧
      field.OccursAt cursor stop (field.valueOf way) := by
  rcases occursAt_of_mem_ways proper (List.mem_of_mem_head? preferred) with
    ⟨stop, parts, groups, _, occurs⟩
  refine ⟨stop, ?_, occurs⟩
  have group : way.group? field.name = some ⟨field.name, cursor, stop⟩ := by
    rw [Way.group?, groups]
    exact List.find?_cons_of_pos (by simp)
  rw [tokenAt?, preferred, Option.bind_some, group, Option.map_some]

theorem tokenAt?_eq_some (proper : field.IsProper) {cursor : Cursor} {token : Token}
    (found : field.tokenAt? cursor = some token) :
    token.field = field.name ∧ token.start = cursor ∧
      field.OccursAt cursor token.stop token.value := by
  cases preferred : field.pattern.match? cursor with
  | none => simp [tokenAt?, preferred] at found
  | some way =>
      rcases tokenAt?_of_match? proper preferred with ⟨stop, token', occurs⟩
      rw [found, Option.some.injEq] at token'
      subst token'
      exact ⟨rfl, rfl, occurs⟩

theorem tokenAt?_eq_none_iff (proper : field.IsProper) {cursor : Cursor} :
    field.tokenAt? cursor = none ↔ ∀ stop value, ¬ field.OccursAt cursor stop value := by
  constructor
  · intro nothing stop value occurs
    rcases exists_mem_ways_of_occursAt proper occurs with ⟨way, member⟩
    cases preferred : field.pattern.match? cursor with
    | none =>
        rw [match?, List.head?_eq_none_iff] at preferred
        rw [preferred] at member
        exact List.not_mem_nil member
    | some first =>
        rcases tokenAt?_of_match? proper preferred with ⟨_, token, _⟩
        rw [nothing] at token
        cases token
  · intro nowhere
    cases found : field.tokenAt? cursor with
    | none => rfl
    | some token => exact absurd (tokenAt?_eq_some proper found).2.2 (nowhere _ _)

/-- A field that reads no numbers has the token at every place where it occurs. -/
theorem OccursAt.tokenAt?_eq (proper : field.IsProper)
    (noNumber : ∀ signed whole, field.kind ≠ .number signed whole) {cursor stop : Cursor}
    {value : FieldValue} (occurs : field.OccursAt cursor stop value) :
    field.tokenAt? cursor = some ⟨field.name, cursor, stop, value⟩ := by
  cases found : field.tokenAt? cursor with
  | none => exact absurd occurs ((tokenAt?_eq_none_iff proper).mp found stop value)
  | some token =>
      rcases tokenAt?_eq_some proper found with ⟨name, start, occurs'⟩
      rcases occurs.exists_word proper occurs' with ⟨word, rest, spells, spells', ends, stopEq⟩
      have valueEq := (spells.unique proper noNumber spells' ends ends rfl).2.2
      rcases token with ⟨_, _, _, _⟩
      simp only at name start stopEq valueEq
      rw [name, start, stopEq, ← valueEq]

end Field

namespace Grammar

variable {grammar : Grammar}

/-- At most one field with aliases has a token at a place. -/
theorem IsUnambiguous.field_eq_of_tokenAt? (unambiguous : grammar.IsUnambiguous)
    {field other : Field} (member : field ∈ grammar.fields) (otherMember : other ∈ grammar.fields)
    (aliased : field.isPositional = false) (aliased' : other.isPositional = false)
    {cursor : Cursor} {token token' : Token} (found : field.tokenAt? cursor = some token)
    (found' : other.tokenAt? cursor = some token') : field = other := by
  rcases Field.tokenAt?_eq_some (isProper member) found with ⟨_, _, occurs⟩
  rcases Field.tokenAt?_eq_some (isProper otherMember) found' with ⟨_, _, occurs'⟩
  exact unambiguous.field_eq_of_occursAt member otherMember aliased aliased' occurs occurs'

/-- The match of a grammar is that of the first of its fields that matches. -/
theorem match?_pattern (any : ∃ field, field ∈ grammar.fields) (cursor : Cursor) :
    grammar.pattern.match? cursor =
      (tried grammar.fields).findSome? fun field => field.pattern.match? cursor := by
  rw [match?, pattern, ways_anyOf (pattern_ne_empty any), List.flatMap_map, List.head?_flatMap]
  rfl

/-- The token of a grammar is that of the first of its fields that has one. -/
theorem tokenAt?_eq_findSome? (grammar : Grammar) (cursor : Cursor) :
    grammar.tokenAt? cursor =
      (tried grammar.fields).findSome? fun field => field.tokenAt? cursor := by
  -- the match of some of the fields is that of the first one that matches, and it has a token
  have each (fields : List Field) (inside : ∀ field ∈ fields, field ∈ grammar.fields) :
      ((fields.findSome? fun field => field.pattern.match? cursor).bind fun way =>
        (grammar.occurrence? way).map fun found : Field × Group =>
          (⟨found.1.name, found.2.start, found.2.stop, found.1.valueOf way⟩ : Token)) =
        fields.findSome? fun field => field.tokenAt? cursor := by
    induction fields with
    | nil => rfl
    | cons field rest ih =>
        rw [List.findSome?_cons, List.findSome?_cons]
        cases preferred : field.pattern.match? cursor with
        | none =>
            have nothing : field.tokenAt? cursor = none := by simp [Field.tokenAt?, preferred]
            rw [nothing]
            exact ih fun other member => inside other (List.mem_cons_of_mem _ member)
        | some way =>
            have member := inside field List.mem_cons_self
            rcases Field.occursAt_of_mem_ways (isProper member) (List.mem_of_mem_head? preferred)
              with ⟨stop, parts, groups, partNames, _⟩
            rw [Option.bind_some, occurrence?_eq member groups partNames, Option.map_some,
              Field.tokenAt?, preferred, Option.bind_some,
              group?_of_groups member groups partNames, if_pos rfl, Option.map_some]
  have every (field : Field) (member : field ∈ tried grammar.fields) : field ∈ grammar.fields :=
    mem_tried_iff.mp member
  rw [← each (tried grammar.fields) every]
  by_cases any : ∃ field, field ∈ grammar.fields
  · rw [tokenAt?, match?_pattern any]
  · have fields : grammar.fields = [] :=
      List.eq_nil_iff_forall_not_mem.mpr (by simpa using any)
    rw [tokenAt?_of_no_field (by simpa using any), fields]
    rfl

/-- What relates the tokens of every field at two places relates those of the grammar, if something
is related to something only and nothing to nothing. -/
theorem tokenAt?_related {related : Option Token → Option Token → Prop} {cursor cursor' : Cursor}
    (nothing : related none none)
    (paired : ∀ {found found'}, related found found' → (found = none ↔ found' = none))
    (each : ∀ field ∈ grammar.fields, related (field.tokenAt? cursor) (field.tokenAt? cursor')) :
    related (grammar.tokenAt? cursor) (grammar.tokenAt? cursor') := by
  have declared : ∀ field ∈ tried grammar.fields, field ∈ grammar.fields :=
    fun _ => mem_tried_iff.mp
  rw [tokenAt?_eq_findSome?, tokenAt?_eq_findSome?]
  generalize tried grammar.fields = fields at declared
  induction fields with
  | nil => exact nothing
  | cons field fields ih =>
      rw [List.forall_mem_cons] at declared
      have first := each field declared.1
      have both := paired first
      rw [List.findSome?_cons, List.findSome?_cons]
      generalize field.tokenAt? cursor = found, field.tokenAt? cursor' = found' at first both
      cases found with
      | none =>
          rw [both.mp rfl]
          exact ih declared.2
      | some token =>
          rcases Option.ne_none_iff_exists'.mp (both.not.mp (Option.some_ne_none token)) with
            ⟨token', rfl⟩
          exact first

/-- Where no other field occurs, the token is that of the field. -/
theorem tokenAt?_of_alone {field : Field} (member : field ∈ grammar.fields) {cursor : Cursor}
    (alone : ∀ other ∈ grammar.fields, other ≠ field → other.tokenAt? cursor = none) :
    grammar.tokenAt? cursor = field.tokenAt? cursor := by
  rw [tokenAt?_eq_findSome?]
  cases first : (tried grammar.fields).findSome? fun field => field.tokenAt? cursor with
  | none =>
      exact (List.findSome?_eq_none_iff.mp first field (mem_tried_iff.mpr member)).symm
  | some token =>
      rcases List.exists_of_findSome?_eq_some first with ⟨other, inside, found⟩
      by_cases same : other = field
      · rw [← same, found]
      · rw [alone other (mem_tried_iff.mp inside) same] at found
        cases found

end Grammar

end SearchCommands
