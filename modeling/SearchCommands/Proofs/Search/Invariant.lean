import SearchCommands.Proofs.Search.Canonical
import SearchCommands.Proofs.Search.Order

/-!
# What is read is faithful

Whatever the input is, a search that is read from it can be typed: its texts are plain, its filters
are sound, and it has criteria for the beatmap exactly if the first phase captured any.  So reading
the canonical text of the search gives the same search again.
-/

namespace SearchCommands

open Number Text FieldPattern

/-- The value of a text, without its quotation marks, is plain. -/
theorem isPlainText_of_textValue {quotable : Bool} {value : List Char}
    (inside : TextValue quotable value) : IsPlainText (String.ofList (unquote value)) := by
  rw [IsPlainText, String.toList_ofList]
  rcases inside with ⟨_, text, noQuote, rfl⟩ | bare
  · rw [unquote_enclosed]
    refine ⟨?_, trim_eq_self_iff.mpr (trimmed_trim text)⟩
    intro member
    exact noQuote (mem_of_mem_trim member)
  · rw [unquote_word bare.2.1 bare.2.2.1]
    exact ⟨bare.2.2.1, trim_eq_self_iff.mpr bare.2.1.trimmed⟩

/-- A text that was captured is plain. -/
theorem Grammar.isPlainText_of_mem_textsOf {grammar : Grammar} {input : String} {field : Field}
    (member : field ∈ grammar.fields) {text : String}
    (captured : text ∈ (grammar.captures input).textsOf field.name) : IsPlainText text := by
  rcases List.mem_filterMap.mp captured with ⟨value, inside, own⟩
  rcases spells_of_mem_valuesOf member inside with ⟨word, spells⟩
  cases spells with
  | flag => cases own
  | text _ _ _ _ _ typed =>
      rcases Option.some.inj own with rfl
      exact isPlainText_of_textValue typed
  | positional _ _ typed =>
      rcases Option.some.inj own with rfl
      exact isPlainText_of_textValue typed
  | number => cases own

/-- Digits without a sign are read as a number without a sign, if as a finite one. -/
theorem Number.Binary32.exists_read?_unsigned {whole : Bool} {text : List Char}
    (unsigned : Unsigned whole text) :
    ∃ value, read? (String.ofList text) = some value ∧
      (value.isFinite = true → value.IsUnsigned) := by
  rcases exists_readDecimal? unsigned with ⟨decimal, read, _⟩
  refine ⟨_, read?_unsigned unsigned read, ?_⟩
  intro finite
  rw [ofPlace] at finite ⊢
  split
  · exact ⟨_, rfl⟩
  · rename_i beyond
    rw [dif_neg beyond] at finite
    cases finite

/-- The bounds of a number field ask for a sound filter, if for any. -/
theorem Grammar.isSound_of_boundsOf {grammar : Grammar} {input : String} {field : Field}
    (member : field ∈ grammar.fields) {signed whole : Bool}
    (kind : field.kind = .number signed whole) {allowed : Binary32 → Prop}
    (reads : ∀ text, NumberText signed whole text → ∃ value,
      Binary32.read? (String.ofList text) = some value ∧
        (value.isFinite = true → allowed value))
    (few : ((grammar.captures input).boundsOf field.name).length ≤ 2) {filter : Filter}
    (asked : Filter.ofBounds ((grammar.captures input).boundsOf field.name) =
      .ok (some filter)) : filter.IsSound allowed := by
  apply Filter.isSound_of_ofBounds few asked
  · exact fun bound captured => (mem_boundsOf member kind captured).1
  · intro bound captured number read
    have digits := (mem_boundsOf member kind captured).2
    have inked := noBlank_of_numberText digits
    rcases reads _ digits with ⟨value, own, finite⟩
    rcases read with ⟨_, own', isFinite⟩
    rw [trim_eq_self_iff.mpr inked.trimmed, own, Option.some.injEq] at own'
    rw [← own'] at isFinite ⊢
    exact finite isFinite

namespace Beatmap.Criteria

/-- The criteria that are read have sound filters without minus signs. -/
theorem isSound_of_read {input : String} {outcome : Outcome Criteria}
    (done : read input = .ok outcome) (measure : Measure) :
    ∀ filter ∈ outcome.value.filter? measure, filter.IsSound Binary32.IsUnsigned := by
  rcases read_eq_ok_iff.mp done with ⟨few, filters, _⟩
  intro filter constrained
  have asked := filters measure
  rw [Option.mem_def.mp constrained] at asked
  refine Grammar.isSound_of_boundsOf (declaration_mem measure) rfl ?_ (few measure) asked
  rintro text (unsigned | ⟨impossible, _⟩)
  · exact Binary32.exists_read?_unsigned unsigned
  · cases impossible

/-- Nothing is captured exactly if no measure is constrained. -/
theorem captures_eq_nil_iff {input : String} {outcome : Outcome Criteria}
    (done : read input = .ok outcome) :
    grammar.captures input = [] ↔ outcome.value.isEmpty = true := by
  rcases read_eq_ok_iff.mp done with ⟨few, filters, _⟩
  rw [isEmpty_iff]
  constructor
  · intro nothing measure
    have asked := filters measure
    have none : measure.typed input = [] := by rw [Measure.typed, nothing]; rfl
    rw [none] at asked
    exact (Except.ok.inj asked).symm
  · intro unconstrained
    rw [List.eq_nil_iff_forall_not_mem]
    intro capture member
    rcases Grammar.exists_field_of_mem_captures member with ⟨field, fieldMember, name⟩
    rcases exists_measure fieldMember with ⟨measure, rfl⟩
    have asked := filters measure
    rw [unconstrained measure] at asked
    have length := Filter.length_bounds_of_ofBounds (few measure) asked
    rw [length_typed] at length
    have none := List.countP_eq_zero.mp length.symm capture member
    exact none (beq_iff_eq.mpr name)

end Beatmap.Criteria

namespace Search

open Beatmap

/-- A filter that was read from the bounds of the play count is sound. -/
theorem isSound_of_playcount {input : String} {filter : Filter}
    (within : WithinRules (grammar.captures input))
    (asked : Filter.ofBounds ((grammar.captures input).boundsOf "playcount") =
      .ok (some filter)) : filter.IsSound Binary32.IsWhole := by
  refine Grammar.isSound_of_boundsOf (declaration_mem .playcount) rfl
    (fun text => Binary32.exists_read?_whole) ?_ asked
  have few := within.few .playcount
  rwa [Part.field, countOf_playcount] at few

theorem isPlainText_unspecifiedName : IsPlainText unspecifiedName := ⟨by decide, by decide⟩

/-- What is read from an input can be typed. -/
theorem isFaithful_of_read {input : String} {outcome : Outcome Search}
    (done : read input = .ok outcome) : outcome.value.IsFaithful := by
  rcases read_eq_ok_iff.mp done with ⟨criteria, criteriaDone, within, filter, asked, rfl⟩
  have plain (part : Part) {field : String} (name : part.field = field) : ∀ text ∈
      ((grammar.captures criteria.leftover).textsOf field).head?, IsPlainText text := by
    intro text first
    rw [← name] at first
    exact Grammar.isPlainText_of_mem_textsOf (declaration_mem part) (List.mem_of_mem_head? first)
  have absent (part : Part) {field : String} (name : part.field = field)
      (kind : part.kind = .text true)
      (none : (grammar.captures criteria.leftover).has field = false) :
      ((grammar.captures criteria.leftover).textsOf field).head? = .none := by
    rw [← name] at none ⊢
    rw [(has_eq_false_iff part kind).mp none]
    rfl
  have username := plain .username (rfl : _ = "username")
  have query := plain .query (rfl : _ = "query")
  have artist := plain .artist (rfl : _ = "artist")
  have title := plain .title (rfl : _ = "title")
  have noQuery := absent .query (rfl : _ = "query") rfl
  have noArtist := absent .artist (rfl : _ = "artist") rfl
  have noTitle := absent .title (rfl : _ = "title") rfl
  have sound : ∀ own ∈ filter, own.IsSound Binary32.IsWhole := by
    rintro own rfl
    exact isSound_of_playcount within asked
  rcases within with ⟨_, excludesArtist, excludesTitle⟩
  -- nothing else depends on how the captures came about
  generalize grammar.captures criteria.leftover = captures at *
  refine ⟨?_, query, artist, title, ?_, sound, ?_⟩
  · rw [captured]
    cases first : (captures.textsOf "username").head? with
    | none => exact isPlainText_unspecifiedName
    | some text => exact username text first
  · cases present : captures.has "query" with
    | false => exact Or.inl (noQuery present)
    | true =>
        exact Or.inr ⟨noArtist (excludesArtist present), noTitle (excludesTitle present)⟩
  · intro own present
    simp only [captured] at present
    split at present
    · cases present
    · rename_i something
      rcases Option.some.inj present with rfl
      exact ⟨Bool.eq_false_iff.mpr something, Criteria.isSound_of_read criteriaDone⟩

/-- A search has criteria exactly if the first phase captured any. -/
theorem isSome_beatmap_iff {input : String} {outcome : Outcome Search}
    (done : read input = .ok outcome) :
    outcome.value.beatmap.isSome = true ↔ Criteria.grammar.captures input ≠ [] := by
  rcases read_eq_ok_iff.mp done with ⟨criteria, criteriaDone, _, _, _, rfl⟩
  rw [ne_eq, Criteria.captures_eq_nil_iff criteriaDone, captured]
  cases criteria.value.isEmpty <;> simp

/-- Whatever is read is faithful, its ranges are in order, it has criteria exactly if the first
phase captured any, and its canonical text asks for the same search. -/
theorem read_invariant {input : String} {outcome : Outcome Search}
    (done : read input = .ok outcome) :
    outcome.value.IsFaithful ∧
      (∀ range, outcome.value.playcount = some (.between range) →
        range.lower.value ≤ range.upper.value) ∧
      (∀ criteria measure range, outcome.value.beatmap = some criteria →
        criteria.filter? measure = some (.between range) →
          range.lower.value ≤ range.upper.value) ∧
      (outcome.value.beatmap.isSome = true ↔ Criteria.grammar.captures input ≠ []) ∧
      read outcome.value.text = .ok ⟨outcome.value, ""⟩ := by
  have faithful := isFaithful_of_read done
  refine ⟨faithful, ?_, ?_, isSome_beatmap_iff done, faithful.read_text⟩
  · intro range asked
    exact (faithful.playcount _ asked).ordered Binary32.IsWhole.isFinite
  · intro criteria measure range asked constrained
    exact ((faithful.beatmap criteria asked).filters measure _ constrained).ordered
      Binary32.IsUnsigned.isFinite

/-- What the mixed command asks for can be typed again. -/
theorem read_mixedCommand_again :
    Composition.mixedCommand.search.IsFaithful ∧
      read Composition.mixedCommand.search.text = .ok ⟨Composition.mixedCommand.search, ""⟩ := by
  have done := Composition.read_text Composition.mixedCommand_isValid
    Composition.mixedCommand_isConsistent
  have result := read_invariant done
  exact ⟨result.1, result.2.2.2.2⟩

end Search

end SearchCommands
