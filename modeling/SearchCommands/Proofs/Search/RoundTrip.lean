import SearchCommands.Proofs.Search.Invariant

/-!
# Which searches are read back

A search is read back from its canonical text exactly if it is faithful.  Whatever is read is
faithful, and a search that equals a faithful one can differ from it in the signs of zeros alone.
But a bound of a measure with a minus sign is not captured by the first phase, so a search with such
a bound is read as one with fewer bounds.
-/

namespace SearchCommands

open Number Text FieldPattern

namespace Number.Binary32

theorem isFinite_iff {value : Binary32} :
    value.isFinite = true ↔ ∃ negative place, value = .finite negative place := by
  cases value with
  | finite negative place => exact ⟨fun _ => ⟨negative, place, rfl⟩, fun _ => rfl⟩
  | infinite negative =>
      constructor
      · intro impossible
        cases impossible
      · rintro ⟨_, _, impossible⟩
        cases impossible
  | nan =>
      constructor
      · intro impossible
        cases impossible
      · rintro ⟨_, _, impossible⟩
        cases impossible

/-- What equals a finite number is finite and has the same magnitude. -/
theorem finite_of_beq {negative : Bool} {place : Fin magnitudeCount} {value : Binary32}
    (same : (finite negative place == value) = true) :
    ∃ negative', value = finite negative' place := by
  have inside := place.isLt
  change sameValue _ _ = true at same
  rcases value with ⟨negative', place'⟩ | negative' | _
  · refine ⟨negative', ?_⟩
    have inside' := place'.isLt
    have values : place = place' := by
      apply Fin.ext
      cases negative <;> cases negative' <;> simp [sameValue, rank?] at same <;> omega
    rw [values]
  · cases negative <;> cases negative' <;> simp [sameValue, rank?] at same <;> omega
  · cases negative <;> simp [sameValue, rank?] at same

theorem beq_self {value : Binary32} (finite : value.isFinite = true) : (value == value) = true := by
  change sameValue value value = true
  rcases value with ⟨_ | _, place⟩ | _ | _
  · simp [sameValue, rank?]
  · simp [sameValue, rank?]
  · cases finite
  · cases finite

/-- What equals a whole number is one. -/
theorem IsWhole.of_beq {value value' : Binary32} (whole : value.IsWhole)
    (same : (value == value') = true) : value'.IsWhole := by
  rcases whole with ⟨negative, place, rfl, divides⟩
  rcases finite_of_beq same with ⟨negative', rfl⟩
  exact ⟨negative', place, rfl, divides⟩

/-- What equals a number without a minus sign is finite. -/
theorem IsUnsigned.isFinite_of_beq {value value' : Binary32} (unsigned : value.IsUnsigned)
    (same : (value == value') = true) : value'.isFinite = true := by
  rcases unsigned with ⟨place, rfl⟩
  rcases finite_of_beq same with ⟨negative, rfl⟩
  rfl

end Number.Binary32

namespace Filter

theorem beq_bound_iff {bound bound' : Bound Binary32} :
    (bound == bound') = true ↔
      bound.operator = bound'.operator ∧ (bound.value == bound'.value) = true := by
  change (bound.operator == bound'.operator && bound.value == bound'.value) = true ↔ _
  rw [Bool.and_eq_true, beq_iff_eq]

/-- Equal filters have as many bounds, with the same operators and equal values. -/
theorem beq_cases {filter filter' : Filter} (same : (filter == filter') = true) :
    (∃ bound bound', filter = .single bound ∧ filter' = .single bound' ∧
      (bound == bound') = true) ∨
    ∃ range range', filter = .between range ∧ filter' = .between range' ∧
      (range.lower == range'.lower) = true ∧ (range.upper == range'.upper) = true := by
  cases filter with
  | single bound =>
      cases filter' with
      | single bound' => exact Or.inl ⟨bound, bound', rfl, rfl, same⟩
      | between range' => cases same
  | between range =>
      cases filter' with
      | single bound' => cases same
      | between range' =>
          exact Or.inr ⟨range, range', rfl, rfl, Bool.and_eq_true_iff.mp same⟩

/-- What equals a sound filter is sound. -/
theorem IsSound.of_beq {allowed allowed' : Binary32 → Prop}
    (transfer : ∀ {value value' : Binary32}, allowed value → (value == value') = true →
      allowed' value') {filter filter' : Filter} (sound : filter.IsSound allowed)
    (same : (filter == filter') = true) : filter'.IsSound allowed' := by
  rcases beq_cases same with ⟨bound, bound', rfl, rfl, bounds⟩ |
    ⟨range, range', rfl, rfl, lower, upper⟩
  · rcases beq_bound_iff.mp bounds with ⟨operators, values⟩
    exact ⟨operators ▸ sound.1, transfer sound.2 values⟩
  · rcases beq_bound_iff.mp lower with ⟨lowerOperators, lowerValues⟩
    rcases beq_bound_iff.mp upper with ⟨upperOperators, upperValues⟩
    refine ⟨?_, transfer sound.2.1 lowerValues, transfer sound.2.2 upperValues⟩
    rw [← lowerOperators, ← upperOperators]
    exact sound.1

theorem length_bounds_of_beq {filter filter' : Filter} (same : (filter == filter') = true) :
    filter.bounds.length = filter'.bounds.length := by
  rcases beq_cases same with ⟨_, _, rfl, rfl, _⟩ | ⟨_, _, rfl, rfl, _, _⟩
  · rfl
  · rfl

/-- A filter equals itself if its numbers are finite. -/
theorem beq_self {filter : Filter}
    (finite : ∀ bound ∈ filter.bounds, bound.value.isFinite = true) :
    (filter == filter) = true := by
  have bounds : ∀ bound ∈ filter.bounds, (bound == bound) = true := by
    intro bound member
    exact beq_bound_iff.mpr ⟨rfl, Binary32.beq_self (finite bound member)⟩
  cases filter with
  | single bound => exact bounds bound (by simp [Filter.bounds])
  | between range =>
      exact Bool.and_eq_true_iff.mpr ⟨bounds range.lower (by simp [Filter.bounds, Range.bounds]),
        bounds range.upper (by simp [Filter.bounds, Range.bounds])⟩

theorem IsSound.beq_self {allowed : Binary32 → Prop}
    (finite : ∀ {value}, allowed value → value.isFinite = true) {filter : Filter}
    (sound : filter.IsSound allowed) : (filter == filter) = true :=
  Filter.beq_self fun bound member => finite (sound.bounds bound member).2

end Filter

namespace Search

open Beatmap

/-- Equal searches, part by part. -/
theorem beq_iff {search search' : Search} :
    (search == search') = true ↔
      search.username = search'.username ∧ search.exact = search'.exact ∧
        search.query = search'.query ∧ search.artist = search'.artist ∧
        search.title = search'.title ∧ (search.playcount == search'.playcount) = true ∧
        (search.beatmap == search'.beatmap) = true := by
  change (search.username == search'.username && search.exact == search'.exact &&
    search.query == search'.query && search.artist == search'.artist &&
    search.title == search'.title && search.playcount == search'.playcount &&
    search.beatmap == search'.beatmap) = true ↔ _
  simp only [Bool.and_eq_true, beq_iff_eq, and_assoc]

theorem beq_criteria_iff {criteria criteria' : Criteria} :
    (criteria == criteria') = true ↔
      ∀ measure, (criteria.filter? measure == criteria'.filter? measure) = true := by
  change (Measure.all.all fun measure => criteria.filter? measure == criteria'.filter? measure) =
    true ↔ _
  rw [List.all_eq_true]
  exact ⟨fun same measure => same measure measure.mem_all, fun same measure _ => same measure⟩

/-- What is equal to something is something. -/
theorem exists_of_beq_some {α : Type} [BEq α] {value : Option α} {content : α}
    (same : (value == some content) = true) :
    ∃ own, value = some own ∧ (own == content) = true := by
  cases value with
  | none => cases same
  | some own => exact ⟨own, rfl, same⟩

/-- A faithful search equals itself, since its numbers are finite. -/
theorem IsFaithful.beq_self {search : Search} (faithful : search.IsFaithful) :
    (search == search) = true := by
  have option {allowed : Binary32 → Prop} {filter : Option Filter}
      (finite : ∀ {value}, allowed value → value.isFinite = true)
      (sound : ∀ own ∈ filter, own.IsSound allowed) : (filter == filter) = true := by
    cases filter with
    | none => rfl
    | some own => exact (sound own rfl).beq_self finite
  refine beq_iff.mpr ⟨rfl, rfl, rfl, rfl, rfl,
    option Binary32.IsWhole.isFinite faithful.playcount, ?_⟩
  have criteria := faithful.beatmap
  cases beatmap : search.beatmap with
  | none => rfl
  | some own =>
      exact beq_criteria_iff.mpr fun measure =>
        option Binary32.IsUnsigned.isFinite ((criteria own beatmap).filters measure)

/-- Everything that the search asks for is printed as words; the criteria can have minus signs. -/
structure IsPrintable (search : Search) : Prop where
  username : IsPlainText search.username
  query : ∀ text ∈ search.query, IsPlainText text
  artist : ∀ text ∈ search.artist, IsPlainText text
  title : ∀ text ∈ search.title, IsPlainText text
  playcount : ∀ filter ∈ search.playcount, filter.IsSound Binary32.IsWhole
  beatmap : ∀ criteria ∈ search.beatmap, ∀ measure, ∀ filter ∈ criteria.filter? measure,
    filter.IsSound fun value => value.isFinite = true

/-- A bound of a measure with a minus sign, which no field reads. -/
def hasMinus (digits : List Char) : Bool := digits.head? == some '-'

/-- The word that an item is for the first phase. -/
def wordOf : Item → Word
  | .criterion measure name operator digits =>
      if hasMinus digits then .username (.bare (name ++ (operator.symbol.toList ++ digits)))
      else .item (.criterion measure name operator digits)
  | other => .item other

theorem typed_wordOf (item : Item) : (wordOf item).typed = item.typed := by
  cases item with
  | criterion measure name operator digits =>
      rw [wordOf]
      split <;> rfl
  | exact | text | playcount => rfl

/-- The first phase takes nothing from a bound with a minus sign. -/
theorem criterion?_wordOf (measure : Measure) (item : Item) :
    ((wordOf item).item?.bind (Item.criterion? measure)) =
      (item.criterion? measure).filter fun bound => !hasMinus bound.value.toList := by
  cases item with
  | criterion other name operator digits =>
      by_cases own : other = measure
      · cases minus : hasMinus digits <;>
          simp [wordOf, minus, Word.item?, Item.criterion?, own, Option.filter]
      · cases minus : hasMinus digits <;> simp [wordOf, minus, Word.item?, Item.criterion?, own]
  | exact | text | playcount => rfl

/-- Digits without a sign have no minus sign. -/
theorem hasMinus_of_unsigned {whole : Bool} {digits : List Char} (unsigned : Unsigned whole digits) :
    hasMinus digits = false := by
  rcases unsigned_head? unsigned with ⟨c, rest, rfl, noMinus, _⟩
  simpa [hasMinus] using noMinus

/-- A bound of a measure with a minus sign is a bare word that no field with an alias reads. -/
theorem isValid_of_minus {measure : Measure} {operator : Operator} {digits : List Char}
    (given : operator ≠ .absent) (unsigned : Unsigned false digits) :
    (Word.username (.bare (measure.firstAlias.toList ++
      (operator.symbol.toList ++ '-' :: digits)))).IsValid := by
  have spelled := SpelledAs.refl measure.firstAlias.toList
  have introduced := Criteria.isPlain.introduces (Criteria.declaration_mem measure)
    (firstAlias_mem measure) spelled
  have proper := Grammar.isProper (Criteria.declaration_mem measure)
  have number : NumberText true false ('-' :: digits) := Or.inr ⟨rfl, digits, rfl, unsigned⟩
  have numberCharacters := isNumberCharacter_of_numberText number
  have noMark := measure_noMark (firstAlias_mem measure) spelled
  refine ⟨⟨⟨?_, ?_, ?_, ?_⟩, ?_⟩, ?_⟩
  · simp [introduced.ne_nil proper]
  · exact Field.noBlank_number proper introduced operator number
  · simp only [List.mem_append, not_or]
    refine ⟨noMark.1, ?_, ?_⟩
    · intro member
      exact absurd (isOperatorCharacter_of_symbol _ _ member) (by decide)
    · intro member
      exact absurd (numberCharacters _ member) (by decide)
  · cases measure <;> simp [Measure.firstAlias, Measure.aliases]
  · rintro ⟨other, name, member, found, spelled', operator', given', digits', number', same⟩
    rcases number_unique noMark.2 (measure_noMark member spelled').2 given given' numberCharacters
      (isNumberCharacter_of_numberText number') same with ⟨_, _, rfl⟩
    rcases number' with unsigned' | ⟨impossible, _⟩
    · have minus := hasMinus_of_unsigned unsigned'
      cases minus
    · cases impossible
  · exact not_isNumberWord_playcount
      ⟨_, firstAlias_mem measure, _, spelled, operator, given, _, number, rfl⟩

variable {search : Search}

/-- A valid item is a word for the first phase. -/
theorem isValid_wordOf {item : Item} (valid : item.IsValid) : (wordOf item).IsValid := by
  cases item with
  | criterion measure name operator digits =>
      rw [wordOf, if_neg (by simp [hasMinus_of_unsigned valid.2.2])]
      exact valid
  | exact | text | playcount => exact valid

/-- The items of a printable search are words for the first phase. -/
theorem IsPrintable.isValid_wordOf (printable : search.IsPrintable) :
    ∀ item ∈ search.items, (wordOf item).IsValid := by
  intro item member
  rcases isValid_of_mem_items printable.query printable.artist printable.title
    printable.playcount member with valid | criterion
  · exact Search.isValid_wordOf valid
  · rcases mem_criteriaItems criterion with
      ⟨criteria, asked, measure, filter, inside, bound, boundInside, rfl⟩
    have sound := printable.beatmap criteria asked measure filter inside
    rcases sound.bounds bound boundInside with ⟨given, finite⟩
    rcases Binary32.isFinite_iff.mp finite with ⟨negative, place, value⟩
    have unsigned := (unsigned_magnitude place.isLt).1
    rw [value]
    cases negative with
    | true =>
        have minus : hasMinus ('-' :: plainStyle.magnitude place) = true := rfl
        rw [Binary32.text_minus, String.toList_ofList, wordOf, if_pos minus]
        exact isValid_of_minus given unsigned
    | false =>
        rw [Binary32.text_plus, String.toList_ofList]
        exact Search.isValid_wordOf (isValid_criterion given unsigned)

/-- The canonical text as words for the first phase. -/
def printedWords (search : Search) : List (List Char × Word) :=
  spaced [] ((if search.hasUsername then [Word.username (.quoted search.username.toList)] else []) ++
    search.items.map wordOf)

theorem spaced_map {α β : Type} (first : List Char) (things : List α) (f : α → β) :
    spaced first (things.map f) = (spaced first things).map fun pair => (pair.1, f pair.2) := by
  cases things with
  | nil => rfl
  | cons thing rest => simp [spaced]

theorem laid_printedWords (search : Search) :
    String.ofList (laid (Word.allPieces search.printedWords) ++ []) = search.text := by
  have words : ((if search.hasUsername then [Word.username (.quoted search.username.toList)]
      else []) ++ search.items.map wordOf).map Word.typed = search.canonicalWords := by
    rw [canonicalWords, List.map_append, List.map_map]
    congr 1
    · cases search.hasUsername <;> rfl
    · exact List.map_congr_left fun item _ => typed_wordOf item
  have spread := flatMap_spaced search.canonicalWords
  rw [← words, spaced_map, List.flatMap_map, words, ← toList_text] at spread
  rw [List.append_nil, Word.laid_allPieces, printedWords, spread, String.ofList_toList]

/-- The first phase takes the bounds without minus signs from the canonical text. -/
theorem IsPrintable.typed_text (printable : search.IsPrintable) (measure : Measure) :
    measure.typed search.text =
      (search.items.filterMap (Item.criterion? measure)).filter fun bound =>
        !hasMinus bound.value.toList := by
  have valid : ∀ word ∈ search.printedWords, word.2.IsValid := by
    intro word member
    have own : word.2 ∈ search.printedWords.map Prod.snd := List.mem_map_of_mem member
    rw [printedWords, map_snd_spaced, List.mem_append] at own
    rcases own with name | item
    · split at name
      · rw [List.mem_singleton.mp name]
        exact ⟨printable.username.1,
          not_isPlaycount_of_quote (by simp [Operand.text, enclosed])⟩
      · cases name
    · rcases List.mem_map.mp item with ⟨item, inside, same⟩
      rw [← same]
      exact printable.isValid_wordOf item inside
  have names : (if search.hasUsername then [Word.username (.quoted search.username.toList)]
      else []).filterMap (fun word => word.item?.bind (Item.criterion? measure)) = [] := by
    cases search.hasUsername <;> rfl
  have second : (search.printedWords.filterMap fun word =>
      word.2.item?.bind (Item.criterion? measure)) =
        (search.printedWords.map Prod.snd).filterMap fun word =>
          word.item?.bind (Item.criterion? measure) := by
    rw [List.filterMap_map]
    rfl
  rw [← laid_printedWords, Word.typed_eq valid gaps_spaced.1 gaps_spaced.2 AllBlank.nil, second,
    printedWords, map_snd_spaced, List.filterMap_append, names, List.nil_append,
    List.filterMap_map, List.filter_filterMap]
  exact List.filterMap_congr fun item _ => criterion?_wordOf measure item

/-- A finite number that is written without a minus sign has none. -/
theorem isUnsigned_of_text {value : Binary32} (finite : value.isFinite = true)
    (noMinus : hasMinus value.text.toList = false) : value.IsUnsigned := by
  rcases Binary32.isFinite_iff.mp finite with ⟨_ | _, place, rfl⟩
  · exact ⟨place, rfl⟩
  · rw [Binary32.text_minus, String.toList_ofList] at noMinus
    cases noMinus

/-- If all bounds are captured, none has a minus sign. -/
theorem IsPrintable.isSound_of_length (printable : search.IsPrintable) {criteria : Criteria}
    (asked : search.beatmap = some criteria) {measure : Measure} {filter : Filter}
    (own : criteria.filter? measure = some filter)
    (all : (measure.typed search.text).length = filter.bounds.length) :
    filter.IsSound Binary32.IsUnsigned := by
  have sound := printable.beatmap criteria asked measure filter own
  rw [printable.typed_text, criteria_items, asked, Option.toList_some, List.flatMap_singleton, own,
    Option.toList_some, List.flatMap_singleton, ← List.length_map (f := Filter.typed),
    List.length_filter_eq_length_iff] at all
  apply sound.of_bounds
  intro bound member
  apply isUnsigned_of_text (sound.bounds bound member).2
  exact (Bool.not_eq_true' _).mp (all (Filter.typed bound) (List.mem_map_of_mem member))

/-- A search that equals what is read from its canonical text is printable. -/
theorem isPrintable_of_beq {found : Search} (faithful : found.IsFaithful)
    (same : (found == search) = true) : search.IsPrintable := by
  rcases beq_iff.mp same with ⟨username, _, query, artist, title, playcount, beatmap⟩
  refine ⟨username ▸ faithful.username, query ▸ faithful.query, artist ▸ faithful.artist,
    title ▸ faithful.title, ?_, ?_⟩
  · rintro filter asked
    rw [Option.mem_def.mp asked] at playcount
    rcases exists_of_beq_some playcount with ⟨own, ownAsked, equal⟩
    exact (faithful.playcount own ownAsked).of_beq Binary32.IsWhole.of_beq equal
  · intro criteria asked measure filter constrained
    rw [Option.mem_def.mp asked] at beatmap
    rcases exists_of_beq_some beatmap with ⟨own, ownAsked, equal⟩
    have filters := beq_criteria_iff.mp equal measure
    rw [Option.mem_def.mp constrained] at filters
    rcases exists_of_beq_some filters with ⟨ownFilter, ownConstrained, equalFilter⟩
    exact ((faithful.beatmap own ownAsked).filters measure ownFilter ownConstrained).of_beq
      Binary32.IsUnsigned.isFinite_of_beq equalFilter

/-- The first phase captures as many bounds of a measure as the criteria that are read have. -/
theorem length_typed_of_read {input : String} {outcome : Outcome Search}
    (done : read input = .ok outcome) {criteria : Criteria}
    (asked : outcome.value.beatmap = some criteria) {measure : Measure} {filter : Filter}
    (constrained : criteria.filter? measure = some filter) :
    (measure.typed input).length = filter.bounds.length := by
  rcases read_eq_ok_iff.mp done with ⟨first, firstDone, _, _, _, rfl⟩
  rcases Criteria.read_eq_ok_iff.mp firstDone with ⟨few, filters, _⟩
  simp only [captured] at asked
  split at asked
  · cases asked
  · rcases Option.some.inj asked with rfl
    have length := Filter.length_bounds_of_ofBounds (few measure) (filters measure)
    rw [constrained, Option.toList_some, List.flatMap_singleton] at length
    exact length.symm

/-- A search that equals what is read from its canonical text is faithful. -/
theorem isFaithful_of_beq {outcome : Outcome Search} (done : read search.text = .ok outcome)
    (same : (outcome.value == search) = true) : search.IsFaithful := by
  have faithful := isFaithful_of_read done
  have printable := isPrintable_of_beq faithful same
  rcases beq_iff.mp same with ⟨_, _, query, artist, title, _, beatmap⟩
  refine ⟨printable.username, printable.query, printable.artist, printable.title, ?_,
    printable.playcount, ?_⟩
  · rw [← query, ← artist, ← title]
    exact faithful.exclusive
  · intro criteria asked
    rw [Option.mem_def.mp asked] at beatmap
    rcases exists_of_beq_some beatmap with ⟨own, ownAsked, equal⟩
    have filters := beq_criteria_iff.mp equal
    constructor
    · rw [← Bool.not_eq_true, Criteria.isEmpty_iff]
      intro unconstrained
      have something := (faithful.beatmap own ownAsked).something
      rw [← Bool.not_eq_true, Criteria.isEmpty_iff] at something
      apply something
      intro measure
      have equalFilter := filters measure
      rw [unconstrained measure] at equalFilter
      cases own : own.filter? measure with
      | none => rfl
      | some ownFilter =>
          rw [own] at equalFilter
          cases equalFilter
    · intro measure filter constrained
      have equalFilter := filters measure
      rw [Option.mem_def.mp constrained] at equalFilter
      rcases exists_of_beq_some equalFilter with ⟨ownFilter, ownConstrained, equalFilter⟩
      apply printable.isSound_of_length asked constrained
      rw [length_typed_of_read done ownAsked ownConstrained,
        Filter.length_bounds_of_beq equalFilter]

/-- A search is read back from its canonical text, without leftover, exactly if it is faithful. -/
theorem read_back_iff (search : Search) :
    (∃ outcome, read search.text = .ok outcome ∧ (outcome.value == search) = true ∧
      outcome.leftover = "") ↔ search.IsFaithful := by
  constructor
  · rintro ⟨outcome, done, same, _⟩
    exact isFaithful_of_beq done same
  · intro faithful
    exact ⟨⟨search, ""⟩, faithful.read_text, faithful.beq_self, rfl⟩

end Search

end SearchCommands
