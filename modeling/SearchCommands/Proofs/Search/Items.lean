import SearchCommands.Proofs.Search.Completeness

/-!
# The items of the canonical text

The canonical text of a search is the text of a composed command: the name of the player, if the
search has one, and then an item for everything else that it asks for, with a space between them.
-/

namespace SearchCommands

open Number Text

/-- Things with a space between them, and the given blanks before the first. -/
def spaced {α : Type} (first : List Char) : List α → List (List Char × α)
  | [] => []
  | thing :: rest => (first, thing) :: rest.map fun other => ([' '], other)

theorem flatMap_spaced (words : List (List Char)) :
    (spaced [] words).flatMap (fun word => word.1 ++ word.2) = [' '].intercalate words := by
  cases words with
  | nil => rfl
  | cons word rest =>
      have tail (rest : List (List Char)) (word : List Char) :
          word ++ (rest.map fun other => ([' '], other)).flatMap (fun word => word.1 ++ word.2) =
            [' '].intercalate (word :: rest) := by
        induction rest generalizing word with
        | nil => simp
        | cons next rest ih =>
            rw [List.intercalate_cons_cons, ← ih next]
            simp
      exact tail rest word

/-- Joined words at the end can be joined with the others. -/
theorem intercalate_append_intercalate (separator : List Char) (words : List (List Char))
    {last : List (List Char)} (nonempty : last ≠ []) :
    separator.intercalate (words ++ [separator.intercalate last]) =
      separator.intercalate (words ++ last) := by
  induction words with
  | nil => simp
  | cons word rest ih =>
      rw [List.cons_append, List.cons_append, List.intercalate_cons_of_ne_nil (by simp), ih,
        List.intercalate_cons_of_ne_nil (by simp [nonempty])]

namespace Search

open Beatmap

/-- The flag. -/
def exactItems (exact : Bool) : List Item := if exact then [.exact ['-', 'e']] else []

/-- A text after the alias of its part. -/
def textItems (part : Part) (name : List Char) (text : Option String) : List Item :=
  text.toList.map fun text => .text part name [' '] (.quoted text.toList)

/-- The bounds of the play count. -/
def playcountItems (playcount : Option Filter) : List Item :=
  playcount.toList.flatMap fun filter => filter.bounds.map fun bound =>
    .playcount ['c'] bound.operator bound.value.text.toList

/-- The bounds of a measure. -/
def measureItems (measure : Measure) (filter : Filter) : List Item :=
  filter.bounds.map fun bound =>
    .criterion measure measure.firstAlias.toList bound.operator bound.value.text.toList

/-- The bounds of the measures. -/
def criteriaItems (criteria : Option Criteria) : List Item :=
  criteria.toList.flatMap fun criteria => criteria.present.flatMap fun entry =>
    measureItems entry.1 entry.2

/-- The items of the canonical text. -/
def items (search : Search) : List Item :=
  exactItems search.exact ++ textItems .query ['-', 'q'] search.query ++
    textItems .artist ['-', 'a'] search.artist ++ textItems .title ['-', 't'] search.title ++
    playcountItems search.playcount ++ criteriaItems search.beatmap

/-- The canonical text as a composed command. -/
def canonical (search : Search) : Composition where
  leading := []
  username := if search.hasUsername then some ([], .quoted search.username.toList) else none
  items := spaced (if search.hasUsername then [' '] else []) search.items
  trailing := []

/-- The words of the canonical text. -/
def canonicalWords (search : Search) : List (List Char) :=
  (if search.hasUsername then [enclosed search.username.toList] else []) ++
    search.items.map Item.typed

variable {search : Search}

theorem map_snd_spaced {α : Type} (first : List Char) (things : List α) :
    (spaced first things).map Prod.snd = things := by
  cases things with
  | nil => rfl
  | cons thing rest => simp [spaced]

theorem all_canonical (search : Search) : search.canonical.all = search.items := by
  rw [Composition.all, canonical, List.nil_append, map_snd_spaced]

theorem words_canonical (search : Search) :
    search.canonical.words = spaced [] search.canonicalWords := by
  rw [Composition.words, canonical, canonicalWords]
  cases search.hasUsername with
  | true => cases search.items <;> simp [spaced, Operand.text]
  | false => cases search.items <;> simp [spaced]

theorem present_ne_nil {criteria : Criteria} (something : criteria.isEmpty = false) :
    ∃ entry rest, criteria.present = entry :: rest := by
  cases shape : criteria.present with
  | nil => simp [Criteria.isEmpty, shape] at something
  | cons entry rest => exact ⟨entry, rest, rfl⟩

theorem text_criteria (criteria : Criteria) :
    criteria.text.toList = [' '].intercalate ((criteriaItems (some criteria)).map Item.typed) := by
  rw [Criteria.text, String.toList_intercalate]
  congr 1
  simp only [criteriaItems, measureItems, Option.toList_some, List.flatMap_singleton,
    List.map_flatMap, List.map_map]
  apply congrArg (List.flatMap · criteria.present)
  funext entry
  apply List.map_congr_left
  intro bound _
  simp [Bound.text, Item.typed]
  rfl

/-- The criteria at the end of the canonical text are joined words. -/
theorem intercalate_criteria (front : List (List Char)) (beatmap : Option Criteria) :
    " ".toList.intercalate (front ++ (((beatmap.toList.filter fun criteria =>
        !criteria.isEmpty).map Criteria.text).map String.toList)) =
      [' '].intercalate (front ++ (criteriaItems beatmap).map Item.typed) := by
  cases beatmap with
  | none => rfl
  | some criteria =>
      cases empty : criteria.isEmpty with
      | true =>
          have nothing : criteria.present = [] := List.isEmpty_iff.mp empty
          simp [empty, criteriaItems, nothing]
      | false =>
          have nonempty : (criteriaItems (some criteria)).map Item.typed ≠ [] := by
            rcases present_ne_nil empty with ⟨⟨measure, filter⟩, rest, shape⟩
            cases filter <;> simp [criteriaItems, measureItems, shape, Filter.bounds, Range.bounds]
          rw [← intercalate_append_intercalate _ _ nonempty, ← text_criteria]
          simp [empty]

theorem map_textPart (part : Part) (flag : String) (text : Option String) :
    (textPart flag text).map String.toList =
      (textItems part flag.toList text).map Item.typed := by
  cases text with
  | none => rfl
  | some text => simp [textPart, textItems, Item.typed, Operand.text, quote, enclosed]

theorem toList_text (search : Search) :
    search.text.toList = [' '].intercalate search.canonicalWords := by
  have playcount : (search.playcount.toList.flatMap fun filter => filter.bounds.map fun bound =>
      "c" ++ bound.text).map String.toList = (playcountItems search.playcount).map Item.typed := by
    simp only [playcountItems, List.map_flatMap, List.map_map]
    apply congrArg (List.flatMap · search.playcount.toList)
    funext filter
    apply List.map_congr_left
    intro bound _
    simp [Bound.text, Item.typed]
    rfl
  have username : (if search.hasUsername then [quote search.username] else []).map String.toList =
      if search.hasUsername then [enclosed search.username.toList] else [] := by
    cases search.hasUsername <;> simp [quote, enclosed]
  have exact : (if search.exact then ["-e"] else []).map String.toList =
      (exactItems search.exact).map Item.typed := by
    cases search.exact <;> rfl
  have query : (textPart "-q" search.query).map String.toList =
      (textItems .query ['-', 'q'] search.query).map Item.typed := map_textPart .query "-q" _
  have artist : (textPart "-a" search.artist).map String.toList =
      (textItems .artist ['-', 'a'] search.artist).map Item.typed := map_textPart .artist "-a" _
  have title : (textPart "-t" search.title).map String.toList =
      (textItems .title ['-', 't'] search.title).map Item.typed := map_textPart .title "-t" _
  rw [text, String.toList_intercalate, parts, List.map_append, intercalate_criteria]
  simp only [List.map_append, username, exact, query, artist, title, playcount, canonicalWords,
    items, List.append_assoc]

theorem text_canonical (search : Search) :
    String.ofList search.canonical.text = search.text := by
  rw [← String.ofList_toList (s := search.text), toList_text, ← flatMap_spaced, ← words_canonical,
    Composition.text]
  exact congrArg String.ofList (List.append_nil _)

theorem mem_exactItems {exact : Bool} {item : Item} (member : item ∈ exactItems exact) :
    item = .exact ['-', 'e'] := by
  cases exact with
  | true => exact List.mem_singleton.mp member
  | false => cases member

theorem mem_textItems {part : Part} {name : List Char} {text : Option String} {item : Item}
    (member : item ∈ textItems part name text) :
    ∃ content ∈ text, item = .text part name [' '] (.quoted content.toList) := by
  rcases List.mem_map.mp member with ⟨content, inside, rfl⟩
  exact ⟨content, Option.mem_toList.mp inside, rfl⟩

theorem mem_playcountItems {playcount : Option Filter} {item : Item}
    (member : item ∈ playcountItems playcount) :
    ∃ filter ∈ playcount, ∃ bound ∈ filter.bounds,
      item = .playcount ['c'] bound.operator bound.value.text.toList := by
  rcases List.mem_flatMap.mp member with ⟨filter, inside, member⟩
  rcases List.mem_map.mp member with ⟨bound, boundInside, rfl⟩
  exact ⟨filter, Option.mem_toList.mp inside, bound, boundInside, rfl⟩

theorem mem_criteriaItems {beatmap : Option Criteria} {item : Item}
    (member : item ∈ criteriaItems beatmap) :
    ∃ criteria ∈ beatmap, ∃ measure, ∃ filter ∈ criteria.filter? measure,
      ∃ bound ∈ filter.bounds, item = .criterion measure measure.firstAlias.toList bound.operator
        bound.value.text.toList := by
  rcases List.mem_flatMap.mp member with ⟨criteria, inside, member⟩
  rcases List.mem_flatMap.mp member with ⟨⟨measure, filter⟩, present, member⟩
  rcases List.mem_map.mp member with ⟨bound, boundInside, rfl⟩
  exact ⟨criteria, Option.mem_toList.mp inside, measure, filter,
    Criteria.filter?_of_mem_present present, bound, boundInside, rfl⟩

section Readings

variable {α : Type} {read : Item → Option α}

theorem filterMap_exactItems (nothing : read (.exact ['-', 'e']) = none) (exact : Bool) :
    (exactItems exact).filterMap read = [] := by
  rw [List.filterMap_eq_nil_iff]
  intro item member
  rw [mem_exactItems member, nothing]

theorem filterMap_textItems {part : Part}
    (nothing : ∀ name gap value, read (.text part name gap value) = none) (name : List Char)
    (text : Option String) : (textItems part name text).filterMap read = [] := by
  rw [List.filterMap_eq_nil_iff]
  intro item member
  rcases mem_textItems member with ⟨_, _, rfl⟩
  exact nothing _ _ _

theorem filterMap_playcountItems
    (nothing : ∀ name operator digits, read (.playcount name operator digits) = none)
    (playcount : Option Filter) : (playcountItems playcount).filterMap read = [] := by
  rw [List.filterMap_eq_nil_iff]
  intro item member
  rcases mem_playcountItems member with ⟨_, _, _, _, rfl⟩
  exact nothing _ _ _

theorem filterMap_criteriaItems
    (nothing : ∀ measure name operator digits, read (.criterion measure name operator digits) =
      none) (beatmap : Option Criteria) : (criteriaItems beatmap).filterMap read = [] := by
  rw [List.filterMap_eq_nil_iff]
  intro item member
  rcases mem_criteriaItems member with ⟨_, _, _, _, _, _, _, rfl⟩
  exact nothing _ _ _ _

end Readings

theorem texts_items (search : Search) :
    search.items.filterMap (Item.text? .query) =
        search.query.toList.map (fun text => String.ofList (trim text.toList)) ∧
      search.items.filterMap (Item.text? .artist) =
        search.artist.toList.map (fun text => String.ofList (trim text.toList)) ∧
      search.items.filterMap (Item.text? .title) =
        search.title.toList.map (fun text => String.ofList (trim text.toList)) := by
  have own (part : Part) (name : List Char) (text : Option String) :
      (textItems part name text).filterMap (Item.text? part) =
        text.toList.map fun text => String.ofList (trim text.toList) := by
    cases text with
    | none => rfl
    | some text => simp [textItems, Item.text?, Operand.content]
  have other {part other : Part} (different : other ≠ part) (name : List Char)
      (text : Option String) : (textItems other name text).filterMap (Item.text? part) = [] :=
    filterMap_textItems (fun _ _ _ => if_neg different) name text
  have exact (part : Part) :
      (exactItems search.exact).filterMap (Item.text? part) = [] := filterMap_exactItems rfl _
  have playcount (part : Part) :
      (playcountItems search.playcount).filterMap (Item.text? part) = [] :=
    filterMap_playcountItems (fun _ _ _ => rfl) _
  have beatmap (part : Part) : (criteriaItems search.beatmap).filterMap (Item.text? part) = [] :=
    filterMap_criteriaItems (fun _ _ _ _ => rfl) _
  simp only [items, List.filterMap_append, exact, playcount, beatmap, own, List.nil_append,
    List.append_nil]
  refine ⟨?_, ?_, ?_⟩
  · rw [other (by decide), other (by decide), List.append_nil, List.append_nil]
  · rw [other (by decide), other (by decide), List.append_nil, List.nil_append]
  · rw [other (by decide), other (by decide), List.nil_append, List.nil_append]

theorem playcounts_items (search : Search) :
    search.items.filterMap Item.playcount? =
      search.playcount.toList.flatMap fun filter => filter.bounds.map Filter.typed := by
  have own : (playcountItems search.playcount).filterMap Item.playcount? =
      search.playcount.toList.flatMap fun filter => filter.bounds.map Filter.typed := by
    simp [playcountItems, List.filterMap_flatMap, List.filterMap_map, Function.comp_def,
      Item.playcount?]
    rfl
  have texts (part : Part) (name : List Char) (text : Option String) :
      (textItems part name text).filterMap Item.playcount? = [] :=
    filterMap_textItems (fun _ _ _ => rfl) name text
  have exact : (exactItems search.exact).filterMap Item.playcount? = [] :=
    filterMap_exactItems rfl _
  have beatmap : (criteriaItems search.beatmap).filterMap Item.playcount? = [] :=
    filterMap_criteriaItems (fun _ _ _ _ => rfl) _
  simp only [items, List.filterMap_append, own, texts, exact, beatmap, List.nil_append,
    List.append_nil]

theorem filterMap_measureItems (measure other : Measure) (filter : Filter) :
    (measureItems other filter).filterMap (Item.criterion? measure) =
      if other = measure then filter.bounds.map Filter.typed else [] := by
  split
  · rename_i same
    simp only [measureItems, List.filterMap_map, Function.comp_def, Item.criterion?, same, if_true,
      String.ofList_toList]
    exact congrFun List.filterMap_eq_map _
  · rename_i different
    simp [measureItems, List.filterMap_map, Function.comp_def, Item.criterion?, different]

/-- Of the filters that are present, one measure has its own. -/
theorem flatMap_present {α : Type} (criteria : Criteria) (measure : Measure)
    (make : Filter → List α) :
    (criteria.present.flatMap fun entry => if entry.1 = measure then make entry.2 else []) =
      (criteria.filter? measure).toList.flatMap make := by
  have each (other : Measure) :
      ((criteria.filter? other).map fun filter => (other, filter)).toList.flatMap
          (fun entry => if entry.1 = measure then make entry.2 else []) =
        if other = measure then (criteria.filter? other).toList.flatMap make else [] := by
    cases criteria.filter? other with
    | none => simp
    | some filter => simp
  rw [Criteria.present, List.filterMap_eq_flatMap_toList, List.flatMap_assoc]
  simp only [each]
  cases measure <;> simp [Measure.all]

theorem criteria_items (search : Search) (measure : Measure) :
    search.items.filterMap (Item.criterion? measure) =
      search.beatmap.toList.flatMap fun criteria =>
        (criteria.filter? measure).toList.flatMap fun filter =>
          filter.bounds.map Filter.typed := by
  have own : (criteriaItems search.beatmap).filterMap (Item.criterion? measure) =
      search.beatmap.toList.flatMap fun criteria =>
        (criteria.filter? measure).toList.flatMap fun filter =>
          filter.bounds.map Filter.typed := by
    simp only [criteriaItems, List.filterMap_flatMap, filterMap_measureItems]
    apply congrArg (List.flatMap · search.beatmap.toList)
    funext criteria
    exact flatMap_present criteria measure fun filter => filter.bounds.map Filter.typed
  have texts (part : Part) (name : List Char) (text : Option String) :
      (textItems part name text).filterMap (Item.criterion? measure) = [] :=
    filterMap_textItems (fun _ _ _ => rfl) name text
  have exact : (exactItems search.exact).filterMap (Item.criterion? measure) = [] :=
    filterMap_exactItems rfl _
  have playcount : (playcountItems search.playcount).filterMap (Item.criterion? measure) = [] :=
    filterMap_playcountItems (fun _ _ _ => rfl) _
  simp only [items, List.filterMap_append, own, texts, exact, playcount, List.nil_append]

end Search

end SearchCommands
