import SearchCommands.Proofs.Search.Items

/-!
# The canonical text of a search

The canonical text of a search is the text of a composed command.  That command is valid and asks
for the search itself if the search is faithful: its texts can stand between quotation marks, its
filters are sound, and its numbers are such as can be typed.  So a faithful search is read back from
its canonical text.
-/

namespace SearchCommands

open Number Text FieldPattern

/-- A text that quotation marks neither end nor change. -/
def IsPlainText (text : String) : Prop := '"' ∉ text.toList ∧ trim text.toList = text.toList

theorem IsPlainText.content {text : String} (plain : IsPlainText text) :
    String.ofList (trim text.toList) = text := by
  rw [plain.2, String.ofList_toList]

namespace Number.Binary32

/-- A finite number without a minus sign. -/
def IsUnsigned (value : Binary32) : Prop := ∃ place, value = .finite false place

theorem IsUnsigned.isFinite {value : Binary32} (unsigned : value.IsUnsigned) :
    value.isFinite = true := by
  rcases unsigned with ⟨place, rfl⟩
  rfl

/-- A finite number without a minus sign is written without one. -/
theorem IsUnsigned.unsigned_text {value : Binary32} (unsigned : value.IsUnsigned) :
    Unsigned false value.text.toList := by
  rcases unsigned with ⟨place, rfl⟩
  rw [text_plus, String.toList_ofList]
  exact (unsigned_magnitude place.isLt).1

end Number.Binary32

theorem Bound.read_typed {bound : Bound Binary32} (finite : bound.value.isFinite = true) :
    (Filter.typed bound).read = bound := by
  rw [Filter.typed, Bound.read, Binary32.read?_text finite]
  rfl

namespace Filter

/-- The bounds of a sound filter, as they are typed, can be combined. -/
theorem combinable_of_isSound {allowed : Binary32 → Prop}
    (finite : ∀ {value}, allowed value → value.isFinite = true) {filter : Filter}
    (sound : filter.IsSound allowed) : Combinable (filter.bounds.map typed) where
  few := by cases filter <;> simp [Filter.bounds, Range.bounds]
  opposed := by
    intro first second same
    cases filter with
    | single bound => cases same
    | between range =>
        cases same
        exact sound.1
  finite := by
    intro bound member
    rcases List.mem_map.mp member with ⟨bound, inside, rfl⟩
    have isFinite := finite (sound.bounds bound inside).2
    exact ⟨bound.value, Binary32.read?_text isFinite, isFinite⟩

/-- The bounds of a sound filter ask for the filter again. -/
theorem asked_typed {allowed : Binary32 → Prop}
    (finite : ∀ {value}, allowed value → value.isFinite = true) {filter : Filter}
    (sound : filter.IsSound allowed) : asked (filter.bounds.map typed) = some filter := by
  have reads : ∀ bound ∈ filter.bounds, (typed bound).read = bound :=
    fun bound member => Bound.read_typed (finite (sound.bounds bound member).2)
  cases filter with
  | single bound =>
      change some (single (typed bound).read) = _
      rw [reads bound (by simp [Filter.bounds])]
  | between range =>
      have lower := reads range.lower (by simp [Filter.bounds, Range.bounds])
      have upper := reads range.upper (by simp [Filter.bounds, Range.bounds])
      change some (between (Range.byValue (typed range.lower).read (typed range.upper).read)) = _
      rw [lower, upper, Range.byValue, dif_neg range.ordered]

end Filter

/-- Something is asked of the beatmap, by sound filters without minus signs. -/
structure Beatmap.Criteria.IsFaithful (criteria : Criteria) : Prop where
  something : criteria.isEmpty = false
  filters : ∀ measure, ∀ filter ∈ criteria.filter? measure, filter.IsSound Binary32.IsUnsigned

/-- Everything that the search asks for can be typed. -/
structure Search.IsFaithful (search : Search) : Prop where
  username : IsPlainText search.username
  query : ∀ text ∈ search.query, IsPlainText text
  artist : ∀ text ∈ search.artist, IsPlainText text
  title : ∀ text ∈ search.title, IsPlainText text
  exclusive : search.query = none ∨ search.artist = none ∧ search.title = none
  playcount : ∀ filter ∈ search.playcount, filter.IsSound Binary32.IsWhole
  beatmap : ∀ criteria ∈ search.beatmap, criteria.IsFaithful

namespace Search

open Beatmap

variable {search : Search}

theorem firstAlias_mem (measure : Measure) : measure.firstAlias ∈ measure.aliases := by
  cases measure <;> decide

/-- Items of plain texts and sound play counts can be typed; what is left are the criteria. -/
theorem isValid_of_mem_items (query : ∀ text ∈ search.query, IsPlainText text)
    (artist : ∀ text ∈ search.artist, IsPlainText text)
    (title : ∀ text ∈ search.title, IsPlainText text)
    (playcount : ∀ filter ∈ search.playcount, filter.IsSound Binary32.IsWhole) {item : Item}
    (member : item ∈ search.items) : item.IsValid ∨ item ∈ criteriaItems search.beatmap := by
  have textValid {part : Part} {name : List Char} {text : Option String}
      (which : part = .query ∨ part = .artist ∨ part = .title)
      (spelled : ∃ written ∈ part.aliases, SpelledAs written.toList name)
      (plain : ∀ content ∈ text, IsPlainText content) (member : item ∈ textItems part name text) :
      item.IsValid := by
    rcases mem_textItems member with ⟨content, inside, rfl⟩
    refine ⟨which, spelled, by simp, ?_, (plain content inside).1⟩
    intro c blank
    rw [List.mem_singleton.mp blank]
    rfl
  simp only [items, List.mem_append] at member
  rcases member with ((((own | own) | own) | own) | own) | own
  · left
    rw [mem_exactItems own]
    exact ⟨"-e", by decide, .refl _⟩
  · exact Or.inl (textValid (Or.inl rfl) ⟨"-q", by decide, .refl _⟩ query own)
  · exact Or.inl (textValid (Or.inr (Or.inl rfl)) ⟨"-a", by decide, .refl _⟩ artist own)
  · exact Or.inl (textValid (Or.inr (Or.inr rfl)) ⟨"-t", by decide, .refl _⟩ title own)
  · left
    rcases mem_playcountItems own with ⟨filter, inside, bound, boundInside, rfl⟩
    rcases (playcount filter inside).bounds bound boundInside with ⟨given, whole⟩
    exact ⟨⟨"c", by decide, .refl _⟩, given, whole.numberText⟩
  · exact Or.inr own

theorem isValid_criterion {measure : Measure} {operator : Operator} {digits : List Char}
    (given : operator ≠ .absent) (unsigned : Unsigned false digits) :
    (Item.criterion measure measure.firstAlias.toList operator digits).IsValid :=
  ⟨⟨_, firstAlias_mem measure, .refl _⟩, given, unsigned⟩

/-- The items of a faithful search can be typed. -/
theorem IsFaithful.items_isValid (faithful : search.IsFaithful) :
    ∀ item ∈ search.items, item.IsValid := by
  intro item member
  rcases isValid_of_mem_items faithful.query faithful.artist faithful.title faithful.playcount
    member with valid | criterion
  · exact valid
  · rcases mem_criteriaItems criterion with
      ⟨criteria, asked, measure, filter, inside, bound, boundInside, rfl⟩
    have sound := (faithful.beatmap criteria asked).filters measure filter inside
    rcases sound.bounds bound boundInside with ⟨given, unsigned⟩
    exact isValid_criterion given unsigned.unsigned_text

/-- The blanks in a canonical text are single spaces. -/
theorem gaps_spaced {α : Type} {things : List α} :
    (∀ pair ∈ spaced [] things, AllBlank pair.1) ∧
      ∀ pair ∈ (spaced [] things).tail, pair.1 ≠ [] := by
  cases things with
  | nil => simp [spaced]
  | cons thing rest =>
      have space : AllBlank [' '] := by
        intro c member
        rw [List.mem_singleton.mp member]
        rfl
      constructor
      · intro pair member
        rcases List.mem_cons.mp member with rfl | member
        · exact AllBlank.nil
        · rcases List.mem_map.mp member with ⟨_, _, rfl⟩
          exact space
      · intro pair member
        rcases List.mem_map.mp member with ⟨_, _, rfl⟩
        simp

theorem not_isPlaycount_of_quote {text : List Char} (quote : '"' ∈ text) : ¬ IsPlaycount text := by
  rintro ⟨name, member, found, spelled, operator, given, digits, number, rfl⟩
  have introduced := introduces .playcount ⟨name, member, spelled⟩
  exact isPlain.noQuote_leads (declaration_mem .playcount)
    (Or.inr ⟨_, _, found, operator, digits, rfl, introduced, given, number, rfl⟩) quote

theorem IsFaithful.canonical_isValid (faithful : search.IsFaithful) :
    search.canonical.IsValid where
  leading := fun item member => absurd member List.not_mem_nil
  username := by
    intro value member
    rw [canonical] at member
    split at member
    · rcases Option.some.inj member with rfl
      exact ⟨faithful.username.1, not_isPlaycount_of_quote (by simp [Operand.text, enclosed])⟩
    · cases member
  items := by
    intro item member
    apply faithful.items_isValid
    rw [← map_snd_spaced (if search.hasUsername then [' '] else []) search.items]
    exact List.mem_map_of_mem member
  blank := by
    rw [words_canonical]
    exact gaps_spaced.1
  separated := by
    rw [words_canonical]
    exact gaps_spaced.2
  trailing := AllBlank.nil

/-- A sound filter is what its bounds ask for. -/
theorem combinable_toList {allowed : Binary32 → Prop}
    (finite : ∀ {value}, allowed value → value.isFinite = true) {filter : Option Filter}
    (sound : ∀ own ∈ filter, own.IsSound allowed) :
    Combinable (filter.toList.flatMap fun own => own.bounds.map Filter.typed) ∧
      Filter.asked (filter.toList.flatMap fun own => own.bounds.map Filter.typed) = filter := by
  cases filter with
  | none => exact ⟨.nil, rfl⟩
  | some own =>
      rw [Option.toList_some, List.flatMap_singleton]
      exact ⟨Filter.combinable_of_isSound finite (sound own rfl),
        Filter.asked_typed finite (sound own rfl)⟩

/-- The typed bounds of a measure. -/
theorem IsFaithful.bounds (faithful : search.IsFaithful) (measure : Measure) :
    Combinable (search.canonical.bounds measure) ∧
      Filter.asked (search.canonical.bounds measure) =
        search.beatmap.bind fun criteria => criteria.filter? measure := by
  rw [Composition.bounds, all_canonical, criteria_items]
  have filters := faithful.beatmap
  cases beatmap : search.beatmap with
  | none => exact ⟨.nil, rfl⟩
  | some criteria =>
      rw [Option.toList_some, List.flatMap_singleton]
      have own := (filters criteria beatmap).filters measure
      exact combinable_toList Binary32.IsUnsigned.isFinite own

/-- The typed bounds of the play count. -/
theorem IsFaithful.playcounts (faithful : search.IsFaithful) :
    Combinable search.canonical.playcounts ∧
      Filter.asked search.canonical.playcounts = search.playcount := by
  rw [Composition.playcounts, all_canonical, playcounts_items]
  exact combinable_toList Binary32.IsWhole.isFinite faithful.playcount

/-- The typed texts. -/
theorem IsFaithful.texts (faithful : search.IsFaithful) :
    search.canonical.texts .query = search.query.toList ∧
      search.canonical.texts .artist = search.artist.toList ∧
      search.canonical.texts .title = search.title.toList := by
  have plain {text : Option String} (each : ∀ content ∈ text, IsPlainText content) :
      text.toList.map (fun content => String.ofList (trim content.toList)) = text.toList := by
    cases text with
    | none => rfl
    | some content => simp [(each content rfl).content]
  rcases texts_items search with ⟨query, artist, title⟩
  simp only [Composition.texts, all_canonical, query, artist, title, plain faithful.query,
    plain faithful.artist, plain faithful.title, and_self]

theorem isExact_items (search : Search) :
    search.items.countP Item.isExact = if search.exact then 1 else 0 := by
  have exact : (exactItems search.exact).countP Item.isExact = if search.exact then 1 else 0 := by
    cases search.exact <;> rfl
  have texts (part : Part) (name : List Char) (text : Option String) :
      (textItems part name text).countP Item.isExact = 0 := by
    rw [List.countP_eq_zero]
    intro item member
    rcases mem_textItems member with ⟨_, _, rfl⟩
    exact Bool.false_ne_true
  have playcount : (playcountItems search.playcount).countP Item.isExact = 0 := by
    rw [List.countP_eq_zero]
    intro item member
    rcases mem_playcountItems member with ⟨_, _, _, _, rfl⟩
    exact Bool.false_ne_true
  have beatmap : (criteriaItems search.beatmap).countP Item.isExact = 0 := by
    rw [List.countP_eq_zero]
    intro item member
    rcases mem_criteriaItems member with ⟨_, _, _, _, _, _, _, rfl⟩
    exact Bool.false_ne_true
  simp only [items, List.countP_append, exact, texts, playcount, beatmap, Nat.add_zero]

theorem IsFaithful.canonical_isConsistent (faithful : search.IsFaithful) :
    search.canonical.IsConsistent where
  exact := by
    rw [all_canonical, isExact_items]
    split <;> decide
  texts := by
    rcases faithful.texts with ⟨query, artist, title⟩
    have short (text : Option String) : text.toList.length ≤ 1 := by
      cases text <;> simp
    intro part
    cases part with
    | query => rw [query]; exact short _
    | artist => rw [artist]; exact short _
    | title => rw [title]; exact short _
    | username | exact | playcount =>
        rw [faithful.canonical_isValid.texts_eq_nil (by decide)]
        decide
  exclusive := by
    rcases faithful.texts with ⟨query, artist, title⟩
    rw [query, artist, title]
    rcases faithful.exclusive with none | ⟨noArtist, noTitle⟩
    · exact Or.inl (by rw [none]; rfl)
    · exact Or.inr ⟨by rw [noArtist]; rfl, by rw [noTitle]; rfl⟩
  playcounts := faithful.playcounts.1
  bounds := fun measure => (faithful.bounds measure).1

/-- The canonical text asks for the search itself. -/
theorem IsFaithful.search_canonical (faithful : search.IsFaithful) :
    search.canonical.search = search := by
  rcases faithful.texts with ⟨query, artist, title⟩
  have username : (search.canonical.username.map fun value => value.2.content).getD
      unspecifiedName = search.username := by
    rw [canonical]
    split
    · exact faithful.username.content
    · rename_i unspecified
      have name : search.username = unspecifiedName := by
        simpa only [hasUsername, bne_iff_ne, ne_eq, not_not] using unspecified
      exact name.symm
  have exact : search.canonical.all.any Item.isExact = search.exact := by
    rw [Bool.eq_iff_iff, List.any_eq_true, all_canonical]
    rw [← List.countP_pos_iff, isExact_items]
    split <;> simp_all
  have beatmap : (if search.canonical.all.any Item.isCriterion then
      some search.canonical.criteria else none) = search.beatmap := by
    have criteria : search.canonical.criteria = ⟨fun measure =>
        search.beatmap.bind fun criteria => criteria.filter? measure⟩ := by
      rw [Composition.criteria]
      exact congrArg Criteria.mk (funext fun measure => (faithful.bounds measure).2)
    have asked := Composition.isEmpty_criteria search.canonical
    cases beatmap : search.beatmap with
    | none =>
        have nothing : search.canonical.criteria.isEmpty = true := by
          rw [criteria, beatmap]
          rfl
        rw [nothing, Bool.true_eq, Bool.not_eq_true'] at asked
        rw [asked]
        rfl
    | some own =>
        have same : search.canonical.criteria = own := by rw [criteria, beatmap]; rfl
        rw [same, (faithful.beatmap own beatmap).something, Bool.false_eq, Bool.not_eq_false']
          at asked
        rw [asked, same]
        rfl
  rw [Composition.search, username, exact, query, artist, title, faithful.playcounts.2, beatmap]
  simp only [Option.head?_toList]

/-- A faithful search is read back from its canonical text. -/
theorem IsFaithful.read_text (faithful : search.IsFaithful) :
    read search.text = .ok ⟨search, ""⟩ := by
  have back := Composition.read_text faithful.canonical_isValid faithful.canonical_isConsistent
  rwa [text_canonical, faithful.search_canonical] at back

end Search

end SearchCommands
