import SearchCommands.Proofs.Search.Captured

/-!
# Composed commands are read

Every composed command that is valid and consistent is read without leftover as the search that it
asks for.  The order of its items does not matter, except that of two bounds with equal values it
decides which one stands first in the range.
-/

namespace SearchCommands

open Number Text FieldPattern

theorem Bound.isFinite_read {bound : Bound String}
    (finite : ∃ value, Binary32.read? bound.value = some value ∧ value.isFinite = true) :
    bound.read.value.isFinite = true := by
  rcases finite with ⟨value, read, isFinite⟩
  simpa [Bound.read, read] using isFinite

/-- Of finite bounds, the range has the one with the smaller value as its lower one. -/
theorem Range.byValue_eq_of {first second : Bound Binary32}
    (firstFinite : first.value.isFinite = true)
    (secondFinite : second.value.isFinite = true) :
    Range.byValue first second = Range.of first second := by
  unfold Range.byValue Range.of
  by_cases below : second.value < first.value
  · have notAtMost : ¬ first.value ≤ second.value :=
      fun atMost => Binary32.not_lt_of_le atMost below
    rw [dif_pos below, dif_neg notAtMost]
  · have atMost : first.value ≤ second.value :=
      Binary32.le_of_not_lt firstFinite secondFinite below
    rw [dif_neg below, dif_pos atMost]

/-- Combinable bounds ask for the filter of their numbers. -/
theorem Filter.ofBounds_asked {bounds : List (Bound String)} (combinable : Combinable bounds)
    (inked : ∀ bound ∈ bounds, NoBlank bound.value.toList) :
    Filter.ofBounds bounds = .ok (Filter.asked bounds) := by
  rcases combinable with ⟨few, opposed, finite⟩
  have reads : ∀ bound ∈ bounds, Filter.Reads bound bound.read := by
    intro bound member
    rcases finite bound member with ⟨value, read, isFinite⟩
    refine ⟨rfl, ?_, ?_⟩
    · rw [trim_eq_self_iff.mpr (inked bound member).trimmed, String.ofList_toList]
      simp [Bound.read, read]
    · simpa [Bound.read, read] using isFinite
  rw [Filter.ofBounds_eq_ok_iff few]
  match bounds with
  | [] => exact Or.inl ⟨rfl, rfl⟩
  | [only] => exact Or.inr (Or.inl ⟨only, _, rfl, reads only (by simp), rfl⟩)
  | [first, second] =>
      have firstReads := reads first (by simp)
      have secondReads := reads second (by simp)
      refine Or.inr (Or.inr ⟨first, second, _, _, rfl, opposed first second rfl, firstReads,
        secondReads, ?_⟩)
      rw [← Range.byValue_eq_of firstReads.2.2 secondReads.2.2]
      rfl
  | _ :: _ :: _ :: _ =>
      simp only [List.length_cons] at few
      omega

namespace Search

open Beatmap

theorem measure_field_inj {measure other : Measure} (same : measure.field = other.field) :
    measure = other := by
  cases measure <;> cases other <;> first | rfl | exact absurd same (by decide)

theorem part_field_inj {part other : Part} (same : part.field = other.field) : part = other := by
  cases part <;> cases other <;> first | rfl | exact absurd same (by decide)

/-- The text of a word that names the player. -/
def Word.player? : Word → Option String
  | .username value => some value.content
  | .item _ => none

/-- The first phase captures the bounds of every measure among words. -/
theorem Word.typed_eq {words : List (List Char × Word)} {trailing : List Char}
    (valid : ∀ word ∈ words, word.2.IsValid) (blank : ∀ word ∈ words, AllBlank word.1)
    (apart : ∀ word ∈ words.tail, word.1 ≠ []) (trailingBlank : AllBlank trailing)
    (measure : Measure) :
    measure.typed (String.ofList (laid (allPieces words) ++ trailing)) =
      words.filterMap fun word => word.2.item?.bind (Item.criterion? measure) := by
  rcases exists_criteria_scans valid blank apart trailingBlank with ⟨tokens, scans, entries, _⟩
  rw [← String.toList_ofList (l := laid (allPieces words) ++ trailing)] at scans
  rw [Measure.typed, Captures.boundsOf, Grammar.valuesOf_of_scans scans entries,
    List.filterMap_filterMap, List.filterMap_filterMap]
  apply List.filterMap_congr
  rintro ⟨gap, value | (⟨other, name, operator, digits⟩ | name | ⟨part, name, inner, value⟩ |
    ⟨name, operator, digits⟩)⟩ _
  · rfl
  · simp only [tag?, item?, Item.criterion?, Option.bind_some]
    by_cases same : other = measure
    · subst same
      simp [Field.boundOf, FieldValue.comparison?, Comparison.primary]
    · have different : other.field ≠ measure.field := fun equal => same (measure_field_inj equal)
      simp [same, different]
  · rfl
  · rfl
  · rfl

namespace Composition

variable {composition : Composition}

/-- The bounds of criteria and play counts are numbers, so there are no blanks around them. -/
theorem noBlank_digits {signed whole : Bool} {digits : List Char}
    (number : NumberText signed whole digits) : NoBlank (String.ofList digits).toList := by
  rw [String.toList_ofList]
  exact noBlank_of_numberText number

theorem IsValid.all (valid : composition.IsValid) : ∀ item ∈ composition.all, item.IsValid := by
  intro item member
  rw [Composition.all, List.mem_map] at member
  rcases member with ⟨pair, inside, rfl⟩
  rcases List.mem_append.mp inside with inside | inside
  · exact (valid.leading pair inside).1
  · exact valid.items pair inside

theorem noBlank_bounds (valid : composition.IsValid) (measure : Measure) :
    ∀ bound ∈ composition.bounds measure, NoBlank bound.value.toList := by
  intro bound member
  rcases List.mem_filterMap.mp member with ⟨item, inside, own⟩
  cases item with
  | criterion other name operator digits =>
      have number := (valid.all _ inside).2.2
      simp only [Item.criterion?] at own
      split at own
      · rcases Option.some.inj own with rfl
        exact noBlank_digits (Or.inl number : NumberText false false digits)
      · cases own
  | exact | text | playcount => cases own

theorem noBlank_playcounts (valid : composition.IsValid) :
    ∀ bound ∈ composition.playcounts, NoBlank bound.value.toList := by
  intro bound member
  rcases List.mem_filterMap.mp member with ⟨item, inside, own⟩
  cases item with
  | playcount name operator digits =>
      have number := (valid.all _ inside).2.2
      rcases Option.some.inj own with rfl
      exact noBlank_digits number
  | exact | text | criterion => cases own

/-- The first phase captures the bounds of every measure. -/
theorem typed_eq (valid : composition.IsValid) (measure : Measure) :
    measure.typed (String.ofList composition.text) = composition.bounds measure := by
  rw [text_eq, Word.typed_eq (fun part member => (valid.parts part member).1)
    (fun part member => (valid.parts part member).2) valid.apart valid.trailing, bounds, all_eq,
    List.filterMap_filterMap]

/-- The criteria of a composed command are read. -/
theorem read_criteria (valid : composition.IsValid) (consistent : composition.IsConsistent) :
    Criteria.read (String.ofList composition.text) =
      .ok ⟨composition.criteria,
        String.ofList (laid (startOf (Word.remaining composition.parts)))⟩ := by
  rw [Criteria.read_eq_ok_iff]
  refine ⟨?_, ?_, ?_⟩
  · intro measure
    rw [typed_eq valid]
    exact (consistent.bounds measure).few
  · intro measure
    rw [typed_eq valid]
    exact Filter.ofBounds_asked (consistent.bounds measure) (noBlank_bounds valid measure)
  · rcases valid.exists_criteria_scans with ⟨tokens, scans, _, uncovered⟩
    rw [← String.toList_ofList (l := composition.text)] at scans uncovered
    rw [Grammar.leftover_of_scans scans, uncovered, trim_remaining valid]

/-- What the second phase reads. -/
def rest (composition : Composition) : String :=
  String.ofList (laid (startOf (Word.remaining composition.parts)))

theorem IsValid.valuesOf_rest (valid : composition.IsValid) (field : String) :
    (grammar.captures composition.rest).valuesOf field =
      composition.parts.filterMap fun part => part.2.capture?.bind fun entry =>
        if entry.1 = field then some entry.2 else none := by
  rcases valid.exists_search_scans with ⟨tokens, scans, entries, _⟩
  rw [← String.toList_ofList (l := laid _)] at scans
  rw [rest, Grammar.valuesOf_of_scans scans entries, List.filterMap_filterMap]

theorem leftover_rest (valid : composition.IsValid) :
    grammar.leftover composition.rest = "" := by
  rcases valid.exists_search_scans with ⟨tokens, scans, _, uncovered⟩
  rw [← String.toList_ofList (l := laid _)] at scans uncovered
  rw [rest, Grammar.leftover_of_scans scans, uncovered]
  rfl

theorem field_ne_of_valid {part : Part} {name gap : List Char} {value : Operand}
    (valid : (Item.text part name gap value).IsValid) :
    part ≠ .username ∧ part ≠ .exact ∧ part ≠ .playcount := by
  rcases valid.1 with rfl | rfl | rfl <;> decide

/-- Texts are typed for three parts alone. -/
theorem IsValid.texts_eq_nil (valid : composition.IsValid) {part : Part}
    (other : part = .username ∨ part = .exact ∨ part = .playcount) :
    composition.texts part = [] := by
  rw [texts, List.filterMap_eq_nil_iff]
  intro item member
  have itemValid := valid.all item member
  cases item with
  | text own name gap value =>
      apply if_neg
      rintro rfl
      rcases field_ne_of_valid itemValid with ⟨noUsername, noExact, noPlaycount⟩
      rcases other with same | same | same
      · exact noUsername same
      · exact noExact same
      · exact noPlaycount same
  | criterion | exact | playcount => rfl

theorem textsOf_username (valid : composition.IsValid) :
    (grammar.captures composition.rest).textsOf "username" =
      composition.username.toList.map fun value => value.2.content := by
  have player : composition.username.toList.map (fun value => value.2.content) =
      composition.parts.filterMap fun part => part.2.player? := by
    have items (list : List (List Char × Item)) :
        (list.map fun item => (item.1, Word.item item.2)).filterMap
          (fun part => part.2.player?) = [] := by
      rw [List.filterMap_map, List.filterMap_eq_nil_iff]
      exact fun _ _ => rfl
    rw [parts, List.filterMap_append, List.filterMap_append, items, items, List.nil_append,
      List.append_nil]
    cases composition.username <;> rfl
  rw [Captures.textsOf, valid.valuesOf_rest, List.filterMap_filterMap, player]
  apply List.filterMap_congr
  rintro ⟨gap, value | (⟨measure, name, operator, digits⟩ | name | ⟨part, name, inner, value⟩ |
    ⟨name, operator, digits⟩)⟩ member
  · rfl
  · rfl
  · rfl
  · have different : part.field ≠ "username" := fun equal =>
      (field_ne_of_valid (valid.parts _ member).1).1 (part_field_inj equal)
    simp [Word.capture?, Word.player?, different]
  · rfl

theorem textsOf_part (valid : composition.IsValid) {part : Part}
    (which : part = .query ∨ part = .artist ∨ part = .title) :
    (grammar.captures composition.rest).textsOf part.field = composition.texts part := by
  rw [Captures.textsOf, valid.valuesOf_rest, List.filterMap_filterMap, texts, all_eq,
    List.filterMap_filterMap]
  apply List.filterMap_congr
  have foreign : "username" ≠ part.field ∧ "exact" ≠ part.field ∧ "playcount" ≠ part.field := by
    rcases which with rfl | rfl | rfl <;> decide
  rintro ⟨gap, value | (⟨measure, name, operator, digits⟩ | name | ⟨other, name, inner, value⟩ |
    ⟨name, operator, digits⟩)⟩ _
  · simp [Word.capture?, Word.item?, foreign.1]
  · rfl
  · simp [Word.capture?, Word.item?, Item.text?, foreign.2.1]
  · simp only [Word.capture?, Word.item?, Item.text?, Option.bind_some]
    by_cases same : other = part
    · subst same
      simp [FieldValue.text?]
    · have different : other.field ≠ part.field := fun equal => same (part_field_inj equal)
      simp [same, different]
  · simp [Word.capture?, Word.item?, Item.text?, foreign.2.2]

theorem countOf_exact (valid : composition.IsValid) :
    (grammar.captures composition.rest).countOf "exact" =
      composition.all.countP Item.isExact := by
  rw [← Captures.length_valuesOf, valid.valuesOf_rest, List.length_filterMap_eq_countP, all_eq,
    List.countP_filterMap]
  apply List.countP_congr
  rintro ⟨gap, value | (⟨measure, name, operator, digits⟩ | name | ⟨part, name, inner, value⟩ |
    ⟨name, operator, digits⟩)⟩ member
  · simp [Word.capture?, Word.item?]
  · simp [Word.capture?, Word.item?, Item.isExact]
  · simp [Word.capture?, Word.item?, Item.isExact]
  · have different : part.field ≠ "exact" := fun equal =>
      (field_ne_of_valid (valid.parts _ member).1).2.1 (part_field_inj equal)
    simp [Word.capture?, Word.item?, Item.isExact, different]
  · simp [Word.capture?, Word.item?, Item.isExact]

theorem boundsOf_playcount (valid : composition.IsValid) :
    (grammar.captures composition.rest).boundsOf "playcount" = composition.playcounts := by
  rw [Captures.boundsOf, valid.valuesOf_rest, List.filterMap_filterMap, playcounts, all_eq,
    List.filterMap_filterMap]
  apply List.filterMap_congr
  rintro ⟨gap, value | (⟨measure, name, operator, digits⟩ | name | ⟨part, name, inner, value⟩ |
    ⟨name, operator, digits⟩)⟩ member
  · rfl
  · rfl
  · rfl
  · have different : part.field ≠ "playcount" := fun equal =>
      (field_ne_of_valid (valid.parts _ member).1).2.2 (part_field_inj equal)
    simp [Word.capture?, Word.item?, Item.playcount?, different]
  · rfl

/-- How often a field is captured, by its texts. -/
theorem withinRules_rest (valid : composition.IsValid) (consistent : composition.IsConsistent) :
    WithinRules (grammar.captures composition.rest) := by
  have query := textsOf_part valid (Or.inl rfl : Part.query = .query ∨ _ ∨ _)
  have artist := textsOf_part valid (Or.inr (Or.inl rfl) : Part.artist = .query ∨ _ ∨ _)
  have title := textsOf_part valid (Or.inr (Or.inr rfl) : Part.title = .query ∨ _ ∨ _)
  have excluded (other : Part) (kind : other.kind = .text true)
      (empty : composition.texts .query = [] ∨
        (grammar.captures composition.rest).textsOf other.field = []) :
      (grammar.captures composition.rest).has "query" = true →
        (grammar.captures composition.rest).has other.field = false := by
    intro present
    rw [has_eq_false_iff other kind]
    refine empty.resolve_left ?_
    rw [← query]
    intro none
    rw [← has_eq_false_iff .query rfl] at none
    change (grammar.captures composition.rest).has "query" = false at none
    rw [present] at none
    cases none
  refine ⟨?_, excluded .artist rfl ?_, excluded .title rfl ?_⟩
  · intro part
    cases part with
    | username =>
        rw [countOf_text rfl]
        change ((grammar.captures composition.rest).textsOf "username").length ≤ 1
        rw [textsOf_username valid]
        cases composition.username <;> simp
    | exact =>
        change (grammar.captures composition.rest).countOf "exact" ≤ 1
        rw [countOf_exact valid]
        exact consistent.exact
    | query =>
        rw [countOf_text rfl, query]
        exact consistent.texts .query
    | artist =>
        rw [countOf_text rfl, artist]
        exact consistent.texts .artist
    | title =>
        rw [countOf_text rfl, title]
        exact consistent.texts .title
    | playcount =>
        change (grammar.captures composition.rest).countOf "playcount" ≤ 2
        rw [countOf_playcount, boundsOf_playcount valid]
        exact consistent.playcounts.few
  · rw [artist]
    exact consistent.exclusive.imp_right And.left
  · rw [title]
    exact consistent.exclusive.imp_right And.right

theorem asked_eq_none_iff {bounds : List (Bound String)} :
    Filter.asked bounds = none ↔ bounds = [] := by
  match bounds with
  | [] => simp [Filter.asked]
  | [_] => simp [Filter.asked]
  | _ :: _ :: _ => simp [Filter.asked]

/-- There are criteria exactly if something is asked of the beatmap. -/
theorem isEmpty_criteria (composition : Composition) :
    composition.criteria.isEmpty = !composition.all.any Item.isCriterion := by
  rw [Bool.eq_iff_iff, Criteria.isEmpty_iff, Bool.not_eq_true', List.any_eq_false]
  simp only [criteria, asked_eq_none_iff, bounds, List.filterMap_eq_nil_iff]
  constructor
  · intro nothing item member
    cases item with
    | criterion measure name operator digits =>
        have own := nothing measure _ member
        simp [Item.criterion?] at own
    | exact | text | playcount => exact Bool.false_ne_true
  · intro nothing measure item member
    cases item with
    | criterion other name operator digits => exact absurd rfl (nothing _ member)
    | exact | text | playcount => rfl

/-- A valid and consistent command is read as the search that it asks for. -/
theorem read_text (valid : composition.IsValid) (consistent : composition.IsConsistent) :
    read (String.ofList composition.text) = .ok ⟨composition.search, ""⟩ := by
  rw [read_eq_ok_iff]
  refine ⟨_, read_criteria valid consistent, withinRules_rest valid consistent,
    Filter.asked composition.playcounts, ?_, ?_⟩
  · change Filter.ofBounds ((grammar.captures composition.rest).boundsOf "playcount") = _
    rw [boundsOf_playcount valid]
    exact Filter.ofBounds_asked consistent.playcounts (noBlank_playcounts valid)
  have username := textsOf_username valid
  have query := textsOf_part valid (Or.inl rfl : Part.query = .query ∨ _ ∨ _)
  have artist := textsOf_part valid (Or.inr (Or.inl rfl) : Part.artist = .query ∨ _ ∨ _)
  have title := textsOf_part valid (Or.inr (Or.inr rfl) : Part.title = .query ∨ _ ∨ _)
  simp only [Part.field] at query artist title
  have exact : (grammar.captures composition.rest).has "exact" =
      composition.all.any Item.isExact := by
    rw [Bool.eq_iff_iff, Captures.has_iff_countOf_pos, countOf_exact valid, List.countP_pos_iff,
      List.any_eq_true]
  have beatmap : (if composition.criteria.isEmpty then none else some composition.criteria) =
      if composition.all.any Item.isCriterion then some composition.criteria else none := by
    rw [isEmpty_criteria]
    cases composition.all.any Item.isCriterion <;> rfl
  change _ = Outcome.mk (captured composition.criteria (grammar.captures composition.rest) _)
    (grammar.leftover composition.rest)
  rw [captured, leftover_rest valid, username, query, artist, title, exact, beatmap, search]
  cases composition.username <;> rfl

end Composition

end Search

end SearchCommands
