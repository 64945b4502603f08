import SearchCommands.Proofs.Filter.Exchange
import SearchCommands.Proofs.Grammar.Exchange
import SearchCommands.Proofs.Search.Isolation

/-!
# Exchanging the bounds of a range

Two bounds that a command gives for one number can be typed in either order: the command is refused
twice, or it asks for the same, except that bounds of one value stay in the order of typing.  The
bounds of a measure are taken in the first phase.  Those of the play count are taken in the second
one, and the first one leaves them where they are.
-/

namespace SearchCommands

open Text FieldPattern Beatmap

/-- Outcomes that are the same up to the order of the two given bounds, if these tie. -/
structure Outcome.ExchangeAlike {σ : Type} (first second : Bound String) (targets : σ → σ → Prop)
    (outcome outcome' : Outcome σ) : Prop where
  alike : Outcome.Alike targets Eq outcome outcome'
  same : ¬ Filter.Ties first second → outcome = outcome'

/-- Two words of a number, and two words with their bounds in the other order. -/
structure Field.Exchanges (field : Field) (marked : Marked) (first' second' : List Char)
    (bound bound' : Bound String) : Prop where
  first : field.Spells marked.first (.comparison (.single bound))
  second : field.Spells marked.second (.comparison (.single bound'))
  first' : field.Spells first' (.comparison (.single bound'))
  second' : field.Spells second' (.comparison (.single bound))

/-- Two words of a number can change places as they are. -/
theorem Field.exists_exchanges {field : Field} {signed whole : Bool}
    (kind : field.kind = .number signed whole) {marked : Marked}
    (first : ∃ value, field.Spells marked.first value)
    (second : ∃ value, field.Spells marked.second value) :
    ∃ bound bound', field.Exchanges marked marked.second marked.first bound bound' := by
  have exists_bound {word : List Char} {value : FieldValue} (spells : field.Spells word value) :
      ∃ bound, value = .comparison (.single bound) := by
    rcases spells.of_number kind with ⟨_, _, _, _, rfl, _⟩
    exact ⟨_, rfl⟩
  rcases first with ⟨_, spells⟩
  rcases second with ⟨_, spells'⟩
  rcases exists_bound spells with ⟨bound, rfl⟩
  rcases exists_bound spells' with ⟨bound', rfl⟩
  exact ⟨bound, bound', spells, spells', spells', spells⟩

namespace Captures

/-- A number is captured twice, with the two bounds in the one order and in the other. -/
def Exchanged (field : String) (first second : Bound String) (captures captures' : Captures) :
    Prop :=
  DifferIn field [.comparison (.single first), .comparison (.single second)]
    [.comparison (.single second), .comparison (.single first)] captures captures'

namespace Exchanged

variable {field : String} {first second : Bound String} {captures captures' : Captures}
  (exchanged : Exchanged field first second captures captures')

include exchanged

theorem symm : Exchanged field second first captures' captures where
  values := exchanged.values'
  values' := exchanged.values
  others := fun name different => (exchanged.others name different).symm
  fields := exchanged.fields.symm

theorem boundsOf_eq : captures.boundsOf field = [first, second] := by
  rw [boundsOf, exchanged.values]
  rfl

theorem boundsOf_of_ne {name : String} (different : name ≠ field) :
    captures.boundsOf name = captures'.boundsOf name := by
  rw [boundsOf, exchanged.others name different, boundsOf]

theorem textsOf_of_ne {name : String} (different : name ≠ field) :
    captures.textsOf name = captures'.textsOf name := by
  rw [textsOf, exchanged.others name different, textsOf]

end Exchanged

end Captures

theorem Filter.ofBounds_pair_iff {first second : Bound String} {filter : Option Filter} :
    ofBounds [first, second] = .ok filter ↔
      ∃ asked, ofComparison (.pair first second) = .ok asked ∧ filter = some asked := by
  rw [ofBounds]
  cases ofComparison (.pair first second) <;> simp [Except.map, eq_comm]

namespace Beatmap.Criteria

variable {input input' : String} {measure : Measure} {first second : Bound String}

/-- The same criteria, up to the order of two bounds with equal values. -/
def Alike (criteria criteria' : Criteria) : Prop :=
  ∀ measure, Option.Rel Filter.Alike (criteria.filter? measure) (criteria'.filter? measure)

theorem Alike.isEmpty_eq {criteria criteria' : Criteria} (alike : criteria.Alike criteria') :
    criteria.isEmpty = criteria'.isEmpty := by
  rw [Bool.eq_iff_iff, isEmpty_iff, isEmpty_iff]
  apply forall_congr'
  intro measure
  have own := alike measure
  generalize criteria.filter? measure = filter, criteria'.filter? measure = filter' at own
  cases own <;> simp

/-- Criteria with a filter for one measure in place of one that is alike. -/
theorem alike_set {criteria : Criteria} {filter filter' : Filter}
    (own : criteria.filter? measure = some filter) (alike : filter.Alike filter') :
    criteria.Alike (criteria.set measure filter') := by
  intro other
  by_cases same : other = measure
  · subst same
    rw [own, filter?_set_self]
    exact .some alike
  · rw [filter?_set_of_ne criteria filter' same]
    exact Filter.Alike.rel_refl _

theorem set_self {criteria : Criteria} {filter : Filter}
    (own : criteria.filter? measure = some filter) : criteria.set measure filter = criteria := by
  rcases criteria with ⟨filters⟩
  refine congrArg Criteria.mk ?_
  funext other
  split
  · rename_i same
    rw [same]
    exact own.symm
  · rfl

section Reading

variable (exchanged : Captures.Exchanged measure.field first second (grammar.captures input)
    (grammar.captures input')) (leftover : grammar.leftover input = grammar.leftover input')

include exchanged leftover

theorem exists_read_exchange {outcome : Outcome Criteria} (done : read input = .ok outcome) :
    ∃ outcome', read input' = .ok outcome' ∧
      Outcome.ExchangeAlike first second Alike outcome outcome' := by
  rcases read_eq_ok_iff.mp done with ⟨few, filters, rest⟩
  have own := filters measure
  rw [Measure.typed, exchanged.boundsOf_eq, Filter.ofBounds_pair_iff] at own
  rcases own with ⟨filter, asked, own⟩
  rcases Filter.exists_ofComparison_exchange asked with ⟨filter', asked', alike⟩
  have others {other : Measure} (different : other ≠ measure) :
      other.typed input = other.typed input' :=
    exchanged.boundsOf_of_ne fun equal => different (Search.measure_field_inj equal)
  refine ⟨⟨outcome.value.set measure filter', outcome.leftover⟩, ?_, ⟨?_, rfl⟩, ?_⟩
  · rw [read_eq_ok_iff]
    refine ⟨?_, ?_, rest.trans leftover⟩
    · intro other
      by_cases same : other = measure
      · rw [same, Measure.typed, exchanged.symm.boundsOf_eq]
        exact Nat.le_refl 2
      · rw [← others same]
        exact few other
    · intro other
      by_cases same : other = measure
      · subst same
        rw [Measure.typed, exchanged.symm.boundsOf_eq, Filter.ofBounds_pair_iff]
        exact ⟨filter', asked', filter?_set_self _ _ _⟩
      · rw [← others same, filter?_set_of_ne _ _ same]
        exact filters other
  · exact alike_set own alike.alike
  · intro apart
    rw [← alike.same apart, set_self own]

/-- With the bounds of a measure exchanged, criteria are refused again, or they are alike. -/
theorem read_exchange : ResultsAlike (fun _ _ => True) (Outcome.ExchangeAlike first second Alike)
    (read input) (read input') := by
  apply ResultsAlike.of_succeeds
  · intro outcome
    exact exists_read_exchange exchanged leftover
  · intro outcome' done
    rcases exists_read_exchange exchanged.symm leftover.symm done with ⟨outcome, backAgain, _⟩
    exact ⟨outcome, backAgain⟩

end Reading

end Beatmap.Criteria

namespace Search

variable {input input' : String} {first second : Bound String}

/-- Searches with alike criteria are alike. -/
theorem alike_of_criteria {criteria criteria' : Criteria} (alike : criteria.Alike criteria')
    (captures : Captures) (playcount : Option Filter) :
    (captured criteria captures playcount).Alike (captured criteria' captures playcount) where
  username := rfl
  exact := rfl
  query := rfl
  artist := rfl
  title := rfl
  playcount := Filter.Alike.rel_refl _
  beatmap := by
    simp only [captured, alike.isEmpty_eq]
    cases criteria'.isEmpty with
    | true => exact .none
    | false => exact .some alike

/-- Searches that differ in the play count alone. -/
theorem alike_of_playcount {search : Search} {filter filter' : Filter} (alike : filter.Alike filter')
    (captures : Captures) :
    (search.fillWith captures (some filter)).Alike (search.fillWith captures (some filter')) where
  username := rfl
  exact := rfl
  query := rfl
  artist := rfl
  title := rfl
  playcount := .some alike
  beatmap := by
    simp only [fillWith]
    cases search.beatmap with
    | none => exact .none
    | some criteria => exact .some fun measure => Filter.Alike.rel_refl _

/-- With the bounds of a measure exchanged, a search is refused again, or it is alike. -/
theorem read_exchange_criteria
    (criteria : ResultsAlike (fun _ _ => True) (Outcome.ExchangeAlike first second Criteria.Alike)
      (Criteria.read input) (Criteria.read input')) :
    ResultsAlike (fun _ _ => True) (Outcome.ExchangeAlike first second Search.Alike)
      (read input) (read input') := by
  rw [read_eq, read_eq]
  generalize Criteria.read input = result, Criteria.read input' = result' at criteria
  cases criteria with
  | failed => exact .failed trivial
  | @done outcome outcome' alike =>
      simp only
      rw [← alike.alike.leftover, fill_eq, fill_eq]
      cases grammar.rejection? (grammar.captures outcome.leftover) with
      | some reason => exact .failed trivial
      | none =>
          cases Filter.ofBounds ((grammar.captures outcome.leftover).boundsOf "playcount") with
          | error reason => exact .failed trivial
          | ok filter =>
              simp only [fillWith_putCriteria]
              refine .done ⟨⟨alike_of_criteria alike.alike.value _ filter, rfl⟩, ?_⟩
              intro apart
              rw [alike.same apart]

/-- With the bounds of the play count exchanged, the second phase refuses again, or it fills a search
that is alike. -/
theorem fill_exchange (exchanged : Captures.Exchanged "playcount" first second
      (grammar.captures input) (grammar.captures input'))
    (leftover : grammar.leftover input = grammar.leftover input') (search : Search) :
    ResultsAlike (fun _ _ => True) (Outcome.ExchangeAlike first second Search.Alike)
      (grammar.fill (Part.all.map Part.setter) search input)
      (grammar.fill (Part.all.map Part.setter) search input') := by
  have same (filter : Option Filter) : search.fillWith (grammar.captures input) filter =
      search.fillWith (grammar.captures input') filter := by
    have texts {name : String} (different : name ≠ "playcount") :=
      exchanged.textsOf_of_ne different
    have has := Captures.has_congr exchanged.fields "exact"
    simp only [fillWith, has, texts (by decide : "username" ≠ "playcount"),
      texts (by decide : "query" ≠ "playcount"), texts (by decide : "artist" ≠ "playcount"),
      texts (by decide : "title" ≠ "playcount")]
  have filters := Filter.ofComparison_exchange first second
  rw [fill_eq, fill_eq, hasBuiltInRules.rejection?_congr exchanged.fields, exchanged.boundsOf_eq,
    exchanged.symm.boundsOf_eq, ← leftover, Filter.ofBounds, Filter.ofBounds]
  cases grammar.rejection? (grammar.captures input') with
  | some reason => exact .failed trivial
  | none =>
      generalize Filter.ofComparison (.pair first second) = result,
        Filter.ofComparison (.pair second first) = result' at filters
      cases filters with
      | failed => exact .failed trivial
      | done alike =>
          simp only [Except.map, same]
          refine .done ⟨⟨alike_of_playcount alike.alike _, rfl⟩, ?_⟩
          intro apart
          rw [alike.same apart]

/-- No alias of a number has a dash in it. -/
theorem noDash_measure : ∀ measure ∈ Measure.all, ∀ name ∈ measure.aliases, '-' ∉ name.toList := by
  decide

theorem noDash_playcount : ∀ name ∈ Part.playcount.aliases, '-' ∉ name.toList := by
  decide

theorem isPlaycount_of_spells {text : List Char} {value : FieldValue}
    (spells : Part.playcount.declaration.Spells text value) : IsPlaycount text :=
  isNumberWord_of_spells rfl spells

theorem bareWord_of_playcount {text : List Char} {value : FieldValue}
    (spells : Part.playcount.declaration.Spells text value) : BareWord text :=
  isPlain.bareWord_of_number (declaration_mem .playcount) rfl noDash_playcount spells

/-- A play count means nothing to the criteria. -/
theorem foreign_of_playcount {text : List Char} {value : FieldValue}
    (spells : Part.playcount.declaration.Spells text value) : Criteria.grammar.Foreign text where
  bare := bareWord_of_playcount spells
  unspelled := by
    intro field member value criterion
    rcases Criteria.exists_measure member with ⟨measure, rfl⟩
    exact not_isCriterion_of_playcount (isPlaycount_of_spells spells)
      (isCriterion_of_spells criterion)

/-- The criteria leave a word over, and the search takes it for the play count where it stands in
what they left over. -/
def TakesPlaycount (input : String) (word : Placed) : Prop :=
  ∃ copy, (word, copy) ∈ Criteria.grammar.copies input ∧
    (grammar.captures (Criteria.grammar.leftover input)).Takes "playcount" copy

/-- The two marked words are what the search takes for the play count. -/
structure TakesPlaycounts (input : String) (marked : Marked) : Prop where
  text : input.toList = marked.text
  areWords : marked.AreWords
  first : TakesPlaycount input marked.firstWord
  second : TakesPlaycount input marked.secondWord
  twice : (grammar.captures (Criteria.grammar.leftover input)).countOf "playcount" = 2

/-- A play count that is captured twice is taken from two words. -/
theorem exists_takesPlaycounts
    (twice : (grammar.captures (Criteria.grammar.leftover input)).countOf "playcount" = 2) :
    ∃ marked, TakesPlaycounts input marked ∧
      ∃ first second, Part.playcount.declaration.Exchanges marked marked.second marked.first first
        second := by
  have noText (quotable : Bool) : Part.playcount.declaration.kind ≠ .text quotable :=
    FieldKind.noConfusion
  rcases Grammar.exists_words_of_twice (declaration_mem .playcount) noText twice with
    ⟨first, firstMember, second, secondMember, order, ⟨takes, spells⟩, takesLater, spellsLater⟩
  rcases Grammar.exists_originals firstMember secondMember order with
    ⟨own, ownMember, later, laterMember, ownOrder, copied, copiedLater⟩
  rw [← Grammar.text_eq_of_mem_copies copied] at spells
  rw [← Grammar.text_eq_of_mem_copies copiedLater] at spellsLater
  rcases Marked.exists_marked ownMember laterMember ownOrder with ⟨marked, text, rfl, rfl, areWords⟩
  exact ⟨marked, ⟨text, areWords, ⟨first, copied, takes⟩, ⟨second, copiedLater, takesLater⟩, twice⟩,
    Field.exists_exchanges rfl spells spellsLater⟩

variable {marked : Marked} {first' second' : List Char}

/-- The criteria take the same from the two inputs, up to the order of the bounds of the measure. -/
theorem exchanged_of_takes {measure : Measure}
    (takes : Criteria.grammar.TakesTwice measure.field input marked)
    (exchanges : measure.declaration.Exchanges marked first' second' first second)
    (text' : input'.toList = (marked.retype first' second').text) :
    Captures.Exchanged measure.field first second (Criteria.grammar.captures input)
        (Criteria.grammar.captures input') ∧
      Criteria.grammar.leftover input = Criteria.grammar.leftover input' :=
  Criteria.isPlain.retype_captured (Criteria.declaration_mem measure) rfl takes
    (Criteria.isPlain.bareWord_of_number (Criteria.declaration_mem measure) rfl
      (noDash_measure measure measure.mem_all)) text' exchanges.first exchanges.second
    exchanges.first' exchanges.second'

/-- The criteria take the same from the two inputs, and of what they leave over the search takes the
same, up to the order of the bounds of the play count. -/
theorem exchanged_of_takesPlaycounts (takes : TakesPlaycounts input marked)
    (exchanges : Part.playcount.declaration.Exchanges marked first' second' first second)
    (text' : input'.toList = (marked.retype first' second').text) :
    (Criteria.grammar.captures input).map Capture.entry =
        (Criteria.grammar.captures input').map Capture.entry ∧
      Captures.Exchanged "playcount" first second
        (grammar.captures (Criteria.grammar.leftover input))
        (grammar.captures (Criteria.grammar.leftover input')) ∧
      grammar.leftover (Criteria.grammar.leftover input) =
        grammar.leftover (Criteria.grammar.leftover input') := by
  rcases Criteria.isPlain.retype_passed Criteria.noText (foreign_of_playcount exchanges.first)
    (foreign_of_playcount exchanges.first') (foreign_of_playcount exchanges.second)
    (foreign_of_playcount exchanges.second') takes.text text' takes.areWords with
    ⟨rest, leaves, retyped⟩
  rcases takes.first with ⟨copy, copied, taken⟩
  rcases takes.second with ⟨copyLater, copiedLater, takenLater⟩
  have takesTwice : grammar.TakesTwice Part.playcount.declaration.name
      (Criteria.grammar.leftover input) rest := {
    text := leaves.text
    areWords := leaves.areWords
    first := leaves.firstCopy copy copied ▸ taken
    second := leaves.secondCopy copyLater copiedLater ▸ takenLater
    twice := takes.twice }
  have outside := (takesTwice.exists_tokens (declaration_mem .playcount) rfl).1
  rcases retyped outside with ⟨entries, rest'⟩
  have spells : Part.playcount.declaration.Spells rest.first (.comparison (.single first)) :=
    leaves.first ▸ exchanges.first
  have spellsLater : Part.playcount.declaration.Spells rest.second (.comparison (.single second)) :=
    leaves.second ▸ exchanges.second
  exact ⟨entries, isPlain.retype_captured (declaration_mem .playcount) rfl takesTwice
    bareWord_of_playcount rest' spells spellsLater exchanges.first' exchanges.second'⟩

/-- With the bounds of the play count exchanged, a search is refused again, or it is alike. -/
theorem read_exchange_playcount
    (entries : (Criteria.grammar.captures input).map Capture.entry =
      (Criteria.grammar.captures input').map Capture.entry)
    (exchanged : Captures.Exchanged "playcount" first second
      (grammar.captures (Criteria.grammar.leftover input))
      (grammar.captures (Criteria.grammar.leftover input')))
    (leftover : grammar.leftover (Criteria.grammar.leftover input) =
      grammar.leftover (Criteria.grammar.leftover input')) :
    ResultsAlike (fun _ _ => True) (Outcome.ExchangeAlike first second Search.Alike)
      (read input) (read input') := by
  have criteria : (∃ error, Criteria.read input = .error ⟨error, Criteria.grammar.leftover input⟩ ∧
        Criteria.read input' = .error ⟨error, Criteria.grammar.leftover input'⟩) ∨
      ∃ filled, Criteria.read input = .ok ⟨filled, Criteria.grammar.leftover input⟩ ∧
        Criteria.read input' = .ok ⟨filled, Criteria.grammar.leftover input'⟩ :=
    criteria_hasBuiltInRules.fill_congr entries (Measure.all.map Measure.setter) Criteria.empty
  rw [read_eq, read_eq]
  rcases criteria with ⟨error, refused, refused'⟩ | ⟨filled, done, done'⟩
  · rw [refused, refused']
    exact .failed trivial
  · rw [done, done']
    exact fill_exchange exchanged leftover _

/-- The order in which the two ends of a range are typed does not matter, except that ends of one
value stay in this order.  Two comparisons ask for the same filter in both orders, or in neither for
one.  Where a command has two comparisons for a measure or for the play count, there are two words
with them, and with the comparisons of the two words exchanged, however they are written, the
command is refused again, or it asks for alike criteria and for an alike search and has the same
leftover.  Unless the two ends have one value, what it asks for is even equal, so that the canonical
text is the same. -/
theorem range_order_insignificant (first second : Bound String) :
    ResultsAlike (fun _ _ => True) (Filter.ExchangeAlike first second)
        (Filter.ofComparison (.pair first second)) (Filter.ofComparison (.pair second first)) ∧
      (∀ (measure : Measure) (input : String),
        ((Criteria.grammar.captures input).countOf measure.field = 2 →
          ∃ marked, Criteria.grammar.TakesTwice measure.field input marked ∧ ∃ bound bound',
            measure.declaration.Exchanges marked marked.second marked.first bound bound') ∧
        ∀ (marked : Marked) (first' second' : List Char) (input' : String),
          Criteria.grammar.TakesTwice measure.field input marked →
          measure.declaration.Exchanges marked first' second' first second →
          input'.toList = (marked.retype first' second').text →
          ResultsAlike (fun _ _ => True) (Outcome.ExchangeAlike first second Criteria.Alike)
              (Criteria.read input) (Criteria.read input') ∧
            ResultsAlike (fun _ _ => True) (Outcome.ExchangeAlike first second Search.Alike)
              (read input) (read input')) ∧
      ∀ input : String,
        ((grammar.captures (Criteria.grammar.leftover input)).countOf "playcount" = 2 →
          ∃ marked, TakesPlaycounts input marked ∧ ∃ bound bound',
            Part.playcount.declaration.Exchanges marked marked.second marked.first bound bound') ∧
        ∀ (marked : Marked) (first' second' : List Char) (input' : String),
          TakesPlaycounts input marked →
          Part.playcount.declaration.Exchanges marked first' second' first second →
          input'.toList = (marked.retype first' second').text →
          ResultsAlike (fun _ _ => True) (Outcome.ExchangeAlike first second Search.Alike)
            (read input) (read input') := by
  refine ⟨Filter.ofComparison_exchange first second, fun measure input => ⟨?_, ?_⟩,
    fun input => ⟨?_, ?_⟩⟩
  · intro twice
    rcases Grammar.exists_takesTwice (Criteria.declaration_mem measure)
      (Criteria.noText _ (Criteria.declaration_mem measure)) twice with
      ⟨marked, takes, spells, spellsLater⟩
    exact ⟨marked, takes, Field.exists_exchanges rfl spells spellsLater⟩
  · intro marked first' second' input' takes exchanges text'
    rcases exchanged_of_takes takes exchanges text' with ⟨exchanged, leftover⟩
    have criteria := Criteria.read_exchange exchanged leftover
    exact ⟨criteria, read_exchange_criteria criteria⟩
  · exact exists_takesPlaycounts
  · intro marked first' second' input' takes exchanges text'
    rcases exchanged_of_takesPlaycounts takes exchanges text' with ⟨entries, exchanged, leftover⟩
    exact read_exchange_playcount entries exchanged leftover

/-- A command with two ranges, in which the bounds of the approach rate are marked. -/
def rangedCommand : Marked :=
  ⟨"mrekk ".toList, "AR<9".toList, " c<=50 x ".toList, "ar>5".toList, " c>=5".toList⟩

/-- The same command with the bounds of the play count marked. -/
def countedCommand : Marked :=
  ⟨"mrekk AR<9 ".toList, "c<=50".toList, " x ar>5 ".toList, "c>=5".toList, []⟩

theorem takesTwice_rangedCommand : Criteria.grammar.TakesTwice Measure.approachRate.field
    "mrekk AR<9 c<=50 x ar>5 c>=5" rangedCommand where
  text := by decide
  areWords := ⟨by decide +kernel, by decide +kernel⟩
  first := by decide +kernel
  second := by decide +kernel
  twice := by decide +kernel

theorem takesPlaycounts_countedCommand :
    TakesPlaycounts "mrekk AR<9 c<=50 x ar>5 c>=5" countedCommand where
  text := by decide
  areWords := ⟨by decide +kernel, by decide +kernel⟩
  first := ⟨⟨6, "c<=50".toList⟩, by decide +kernel, by decide +kernel⟩
  second := ⟨⟨14, "c>=5".toList⟩, by decide +kernel, by decide +kernel⟩
  twice := by decide +kernel

theorem exchanges_rangedCommand : Measure.approachRate.declaration.Exchanges rangedCommand
    "ar>5".toList "ar<9".toList ⟨.less, "9"⟩ ⟨.greater, "5"⟩ := by
  have spells (operator : Operator) {found digits : List Char}
      (spelled : SpelledAs "ar".toList found) (given : operator ≠ .absent) (number : Digits digits) :=
    @Measure.spells .approachRate "ar" (by decide) found digits spelled operator given (Or.inl number)
  have upper : Digits "9".toList := ⟨by decide, by decide⟩
  have lower : Digits "5".toList := ⟨by decide, by decide⟩
  have capital : SpelledAs "ar".toList "AR".toList := by decide +kernel
  exact ⟨spells .less capital (by decide) upper, spells .greater (.refl _) (by decide) lower,
    spells .greater (.refl _) (by decide) lower, spells .less (.refl _) (by decide) upper⟩

theorem exchanges_countedCommand : Part.playcount.declaration.Exchanges countedCommand
    "PC>=5".toList "c<=50".toList ⟨.lessOrEqual, "50"⟩ ⟨.greaterOrEqual, "5"⟩ := by
  have spells (operator : Operator) {found digits : List Char}
      (spelled : ∃ written ∈ Part.playcount.aliases, SpelledAs written.toList found)
      (given : operator ≠ .absent) (number : Digits digits) :=
    @Field.Spells.number Part.playcount.declaration true true found digits operator rfl
      (introduces .playcount spelled) given (Or.inl (Or.inl number))
  have upper : Digits "50".toList := ⟨by decide, by decide⟩
  have lower : Digits "5".toList := ⟨by decide, by decide⟩
  have short : ∃ written ∈ Part.playcount.aliases, SpelledAs written.toList "c".toList :=
    ⟨"c", by decide, .refl _⟩
  have capital : ∃ written ∈ Part.playcount.aliases, SpelledAs written.toList "PC".toList :=
    ⟨"pc", by decide, by decide +kernel⟩
  exact ⟨spells .lessOrEqual short (by decide) upper, spells .greaterOrEqual short (by decide) lower,
    spells .greaterOrEqual capital (by decide) lower, spells .lessOrEqual short (by decide) upper⟩

/-- The bounds of the approach rate and those of the play count can change places, in any
spelling. -/
theorem range_order_mrekk :
    (Criteria.grammar.TakesTwice Measure.approachRate.field "mrekk AR<9 c<=50 x ar>5 c>=5"
        rangedCommand ∧
      Measure.approachRate.declaration.Exchanges rangedCommand "ar>5".toList "ar<9".toList
        ⟨.less, "9"⟩ ⟨.greater, "5"⟩ ∧
      ResultsAlike (fun _ _ => True)
        (Outcome.ExchangeAlike ⟨.less, "9"⟩ ⟨.greater, "5"⟩ Search.Alike)
        (read "mrekk AR<9 c<=50 x ar>5 c>=5") (read "mrekk ar>5 c<=50 x ar<9 c>=5")) ∧
    TakesPlaycounts "mrekk AR<9 c<=50 x ar>5 c>=5" countedCommand ∧
      Part.playcount.declaration.Exchanges countedCommand "PC>=5".toList "c<=50".toList
        ⟨.lessOrEqual, "50"⟩ ⟨.greaterOrEqual, "5"⟩ ∧
      ResultsAlike (fun _ _ => True)
        (Outcome.ExchangeAlike ⟨.lessOrEqual, "50"⟩ ⟨.greaterOrEqual, "5"⟩ Search.Alike)
        (read "mrekk AR<9 c<=50 x ar>5 c>=5") (read "mrekk AR<9 PC>=5 x ar>5 c<=50") := by
  have criteria := ((range_order_insignificant ⟨.less, "9"⟩ ⟨.greater, "5"⟩).2.1 .approachRate
    "mrekk AR<9 c<=50 x ar>5 c>=5").2 rangedCommand _ _ "mrekk ar>5 c<=50 x ar<9 c>=5"
    takesTwice_rangedCommand exchanges_rangedCommand (by decide)
  have playcount := ((range_order_insignificant ⟨.lessOrEqual, "50"⟩ ⟨.greaterOrEqual, "5"⟩).2.2
    "mrekk AR<9 c<=50 x ar>5 c>=5").2 countedCommand _ _ "mrekk AR<9 PC>=5 x ar>5 c<=50"
    takesPlaycounts_countedCommand exchanges_countedCommand (by decide)
  exact ⟨⟨takesTwice_rangedCommand, exchanges_rangedCommand, criteria.2⟩,
    takesPlaycounts_countedCommand, exchanges_countedCommand, playcount⟩

end Search

end SearchCommands
