import SearchCommands.Proofs.Grammar.Leftover
import SearchCommands.Proofs.Grammar.Preference
import SearchCommands.Proofs.Pattern.InWord
import SearchCommands.Proofs.Text.Spacing

/-!
# Fields and spacing

The word of a field stays one of its words when blanks outside of quotation marks are respaced.  So
a field occurs at a place of one text exactly where it occurs at that of the other, and its token
has the same value there: for flags and texts because a word has one value, for numbers because
the preference among the aliases is settled inside the word (`Field.tokenAt?_respaced`).
-/

namespace SearchCommands

open Text Pattern FieldPattern

section Opening

theorem Cursor.placesOf_blanks {blanks text : List Char} (blank : AllBlank blanks)
    (inked : StartsInked text) (before : List Char) :
    ∃ others, placesOf CharSet.blank.contains before (blanks ++ text) =
        others ++ [⟨blanks.reverse ++ before, text⟩] ∧ others.length = blanks.length ∧
      ∀ place ∈ others, ∃ c rest, place.after = c :: rest ∧ isBlank c = true := by
  induction blanks generalizing before with
  | nil =>
      refine ⟨[], ?_, rfl, by simp⟩
      cases text with
      | nil => rfl
      | cons c text =>
          have refused : CharSet.blank.contains c = false := inked c rfl
          rw [List.nil_append, placesOf, refused, if_neg Bool.false_ne_true]
          rfl
  | cons c blanks ih =>
      have accepted : CharSet.blank.contains c = true := blank c List.mem_cons_self
      rcases ih (fun d member => blank d (List.mem_cons_of_mem c member)) (c :: before) with
        ⟨others, places, length, each⟩
      refine ⟨⟨before, c :: (blanks ++ text)⟩ :: others, ?_, congrArg (· + 1) length, ?_⟩
      · rw [List.cons_append, placesOf, accepted, if_pos rfl, places]
        simp
      · intro place member
        rcases List.mem_cons.mp member with rfl | member
        · exact ⟨c, _, rfl, accepted⟩
        · exact each place member

/-- The opening of a field stops where the blanks end, or before that at a blank. -/
theorem Pattern.exists_ways_opening {before blanks text : List Char} (blank : AllBlank blanks)
    (inked : StartsInked text) (place : before = [] ∨ blanks ≠ []) :
    ∃ left right, opening.ways false ⟨before, blanks ++ text⟩ =
        left ++ ⟨⟨blanks.reverse ++ before, text⟩, []⟩ :: right ∧
      ∀ way ∈ left ++ right, ∃ c rest, way.stop.after = c :: rest ∧ isBlank c = true := by
  rcases Cursor.placesOf_blanks blank inked before with ⟨others, places, length, each⟩
  have split : opening.ways false ⟨before, blanks ++ text⟩ =
      (if before.isEmpty then [⟨⟨before, blanks ++ text⟩, []⟩] else []) ++
        (others ++ [Cursor.mk (blanks.reverse ++ before) text]).tail.reverse.map (Way.mk · []) := by
    rw [← places]
    rfl
  cases others with
  | nil =>
      have none : blanks = [] := List.length_eq_zero_iff.mp length.symm
      subst none
      have atStart : before = [] := place.resolve_right (not_not_intro rfl)
      subst atStart
      exact ⟨[], [], split, by simp⟩
  | cons first others =>
      rcases blanks with _ | ⟨c, blanks⟩
      · cases length
      refine ⟨if before.isEmpty then [⟨⟨before, c :: blanks ++ text⟩, []⟩] else [],
        others.reverse.map (⟨·, []⟩), ?_, ?_⟩
      · have reversed (last : Cursor) :
            (first :: others ++ [last]).tail.reverse = last :: others.reverse := by simp
        rw [split, reversed]
        rfl
      · intro way member
        rcases List.mem_append.mp member with member | member
        · split at member
          · rw [List.mem_singleton.mp member]
            exact ⟨c, _, rfl, blank c List.mem_cons_self⟩
          · cases member
        · rcases List.mem_map.mp member with ⟨place, inside, rfl⟩
          exact each place (List.mem_cons_of_mem _ (List.mem_reverse.mp inside))

/-- Behind the opening of a field, a pattern that starts with no blank is read where the blanks
end. -/
theorem Pattern.ways_opening {body : Pattern}
    (refuses : ∀ before c after, isBlank c = true → body.ways false ⟨before, c :: after⟩ = [])
    {before blanks text : List Char} (blank : AllBlank blanks) (inked : StartsInked text)
    (place : before = [] ∨ blanks ≠ []) :
    (andThen opening body).ways false ⟨before, blanks ++ text⟩ =
      body.ways false ⟨blanks.reverse ++ before, text⟩ := by
  rcases exists_ways_opening blank inked place with ⟨left, right, split, each⟩
  have silent (ways : List Way) (inside : ∀ way ∈ ways, way ∈ left ++ right) :
      (ways.flatMap fun way => (body.ways false way.stop).map way.andThen) = [] := by
    rw [List.flatMap_eq_nil_iff]
    intro way member
    rcases way with ⟨⟨before, after⟩, groups⟩
    rcases each _ (inside _ member) with ⟨c, rest, rfl, isBlank⟩
    rw [refuses before c rest isBlank]
    rfl
  rw [ways, split, List.flatMap_append, List.flatMap_cons,
    silent left fun way member => List.mem_append_left right member,
    silent right fun way member => List.mem_append_right left member, List.nil_append,
    List.append_nil]
  exact List.map_id' _

end Opening

namespace Field

variable {field : Field}

/-- What a number field reads behind its opening. -/
def numberWord (field : Field) (signed whole : Bool) : Pattern :=
  inOrder [anyAlias field.aliases, captured (operatorGroup field.name) operators,
    captured (numberGroup field.name) (numberValue signed whole)]

theorem IsProper.alias_inked (proper : field.IsProper) {name : String}
    (member : name ∈ field.aliases) : name.toList ≠ [] ∧ NoBlank name.toList := by
  have proper := proper.aliasProper name member
  simp only [isAlias, Bool.and_eq_true, Bool.not_eq_true', List.any_eq_false,
    List.isEmpty_eq_false_iff] at proper
  exact ⟨proper.1, fun c inside => by simpa using proper.2 c inside⟩

theorem ways_numberWord_of_blank (proper : field.IsProper) (aliased : field.aliases ≠ [])
    (signed whole : Bool) (before : List Char) (c : Char) (after : List Char)
    (blank : isBlank c = true) :
    (field.numberWord signed whole).ways false ⟨before, c :: after⟩ = [] := by
  have noAlias : (anyAlias field.aliases).ways false ⟨before, c :: after⟩ = [] := by
    rw [List.eq_nil_iff_forall_not_mem]
    intro way member
    rcases (mem_ways_anyAlias aliased).mp member with
      ⟨name, declared, found, rest, split, spelled, _⟩
    rcases proper.alias_inked declared with ⟨nonempty, inked⟩
    rcases List.exists_cons_of_ne_nil (spelled.ne_nil nonempty) with ⟨d, more, rfl⟩
    rw [List.cons_append, List.cons.injEq] at split
    rw [split.1, spelled.noBlank inked d List.mem_cons_self] at blank
    cases blank
  simp only [numberWord, inOrder, ways, noAlias, List.flatMap_nil]

theorem numberWord_inWord (proper : field.IsProper) (signed whole : Bool)
    {before rest before' rest' : List Char} (outside : before.head?.any isWordCharacter = false)
    (outside' : before'.head?.any isWordCharacter = false) (ends : EndsWord rest)
    (ends' : EndsWord rest') :
    (field.numberWord signed whole).Preserves (Cursor.InWord before rest before' rest') false :=
  (Preserves.anyAlias_inWord ends ends' (fun _ member => (proper.alias_inked member).2)
    outside outside').andThen (((Preserves.operators_inWord ends ends').captured _).andThen
      ((Preserves.numberValue_inWord ends ends' signed whole).captured _))

theorem ways_closing (cursor : Cursor) :
    (EndsWord cursor.after ∧ ∃ stop, closing.ways false cursor = [⟨stop, []⟩]) ∨
      (¬ EndsWord cursor.after ∧ closing.ways false cursor = []) := by
  rcases cursor with ⟨before, after⟩
  cases after with
  | nil => exact Or.inl ⟨.nil, _, rfl⟩
  | cons c after =>
      by_cases blank : isBlank c = true
      · left
        refine ⟨by simpa [EndsWord] using blank, ⟨c :: before, after⟩, ?_⟩
        simp [closing, ways, CharSet.contains, blank]
      · right
        refine ⟨by simpa [EndsWord] using blank, ?_⟩
        simp [closing, ways, CharSet.contains, blank]

theorem ways_body_of_number (proper : field.IsProper) {signed whole : Bool}
    (kind : field.kind = .number signed whole) {before blanks text : List Char}
    (place : before = [] ∨ blanks ≠ []) (blank : AllBlank blanks) (inked : StartsInked text) :
    field.body.ways false ⟨before, blanks ++ text⟩ =
      (field.numberWord signed whole).ways false ⟨blanks.reverse ++ before, text⟩ := by
  have aliased := proper.aliases_ne_nil (by simp [kind])
  have shape : field.body = andThen opening (field.numberWord signed whole) := by
    simp only [body, kind]
    rfl
  rw [shape]
  exact ways_opening (ways_numberWord_of_blank proper aliased signed whole) blank inked place

/-- No word reaches into the place behind the opening of a field. -/
theorem outside_of_place {before blanks : List Char} (place : before = [] ∨ blanks ≠ [])
    (blank : AllBlank blanks) : (blanks.reverse ++ before).head?.any isWordCharacter = false := by
  by_cases none : blanks = []
  · rw [place.resolve_right (not_not_intro none), none]
    rfl
  · rw [List.head?_append, List.head?_reverse, List.getLast?_eq_some_getLast none]
    exact isWordCharacter_of_isBlank (blank _ (List.getLast_mem none))

theorem capturedText_cons_of_ne {name other : String} (different : name ≠ other)
    (stop stop' start reached : Cursor) (groups : List Group) :
    capturedText ⟨stop, ⟨name, start, reached⟩ :: groups⟩ other =
      capturedText ⟨stop', groups⟩ other := by
  simp only [capturedText, Way.group?, List.find?_cons_of_neg, beq_iff_eq, different,
    not_false_eq_true]

/-- The value of a number is given by its parts inside the word. -/
theorem valueOf_number_congr {signed whole : Bool} (kind : field.kind = .number signed whole)
    {way way' : Way} (same : ∀ name, capturedText way name = capturedText way' name)
    (stop stop' start start' reached reached' : Cursor) :
    field.valueOf ⟨stop, ⟨field.name, start, reached⟩ :: way.groups⟩ =
      field.valueOf ⟨stop', ⟨field.name, start', reached'⟩ :: way'.groups⟩ := by
  simp only [valueOf, kind]
  rw [capturedText_cons_of_ne (ne_operatorGroup _) _ way.stop,
    capturedText_cons_of_ne (ne_numberGroup _) _ way.stop,
    capturedText_cons_of_ne (ne_operatorGroup _) _ way'.stop,
    capturedText_cons_of_ne (ne_numberGroup _) _ way'.stop, same, same]

/-- The value of a number is a matter of the word that it stands in. -/
theorem valueOf_number_alike (proper : field.IsProper) {signed whole : Bool}
    (kind : field.kind = .number signed whole)
    {before blanks before' blanks' word rest rest' : List Char}
    (place : before = [] ∨ blanks ≠ []) (place' : before' = [] ∨ blanks' ≠ [])
    (blank : AllBlank blanks) (blank' : AllBlank blanks') (inked : StartsInked word)
    (nonempty : word ≠ []) (ends : EndsWord rest) (ends' : EndsWord rest') :
    List.Forall₂ (fun way way' => field.valueOf way = field.valueOf way')
      (field.pattern.ways false ⟨before, blanks ++ (word ++ rest)⟩)
      (field.pattern.ways false ⟨before', blanks' ++ (word ++ rest')⟩) := by
  have words := numberWord_inWord proper signed whole (outside_of_place place blank)
    (outside_of_place place' blank') ends ends' (.place [] word)
  rw [List.nil_append, List.nil_append,
    ← ways_body_of_number proper kind place blank (inked.append nonempty),
    ← ways_body_of_number proper kind place' blank' (inked.append nonempty)] at words
  -- a way through the body ends a word in both texts or in none, and then it is a way of the field
  refine List.rel_flatMap (R := fun way way' =>
    (EndsWord way.stop.after ↔ EndsWord way'.stop.after) ∧
      ∀ stop stop', field.valueOf ⟨stop, way.groups⟩ = field.valueOf ⟨stop', way'.groups⟩) ?_ ?_
  · simp only [ways, List.forall₂_map_left_iff, List.forall₂_map_right_iff]
    refine words.imp fun way way' same => ⟨same.stop.endsWord_iff ends ends', ?_⟩
    intro stop stop'
    apply valueOf_number_congr kind
    exact same.capturedText rfl fun sameStart sameStop => sameStart.textTo_eq sameStop
  · rintro way way' ⟨sameEnds, values⟩
    rcases ways_closing way.stop with ⟨wayEnds, stop, closed⟩ | ⟨goesOn, closed⟩
    · rcases ways_closing way'.stop with ⟨_, stop', closed'⟩ | ⟨goesOn', _⟩
      · simp only [closed, closed']
        refine .cons ?_ .nil
        simpa [Way.andThen] using values stop stop'
      · exact absurd (sameEnds.mp wayEnds) goesOn'
    · rcases ways_closing way'.stop with ⟨wayEnds', _⟩ | ⟨_, closed'⟩
      · exact absurd (sameEnds.mpr wayEnds') goesOn
      · simp only [closed, closed']
        exact .nil

theorem tokenAt?_value_of_number (proper : field.IsProper) {signed whole : Bool}
    (kind : field.kind = .number signed whole)
    {before blanks before' blanks' word rest rest' : List Char}
    (place : before = [] ∨ blanks ≠ []) (place' : before' = [] ∨ blanks' ≠ [])
    (blank : AllBlank blanks) (blank' : AllBlank blanks') (inked : StartsInked word)
    (nonempty : word ≠ []) (ends : EndsWord rest) (ends' : EndsWord rest') {token token' : Token}
    (found : field.tokenAt? ⟨before, blanks ++ (word ++ rest)⟩ = some token)
    (found' : field.tokenAt? ⟨before', blanks' ++ (word ++ rest')⟩ = some token') :
    token.value = token'.value := by
  have value {cursor : Cursor} {token : Token} (found : field.tokenAt? cursor = some token) :
      ∃ way more, field.pattern.ways false cursor = way :: more ∧
        token.value = field.valueOf way := by
    cases ways : field.pattern.ways false cursor with
    | nil =>
        rw [tokenAt?, match?, ways] at found
        cases found
    | cons way more =>
        have preferred : field.pattern.match? cursor = some way := by
          rw [match?, ways]
          rfl
        rcases tokenAt?_of_match? proper preferred with ⟨_, token', _⟩
        rw [found, Option.some.injEq] at token'
        exact ⟨way, more, rfl, by rw [token']⟩
  rcases value found with ⟨way, more, ways, valueEq⟩
  rcases value found' with ⟨way', more', ways', valueEq'⟩
  have same := valueOf_number_alike proper kind place place' blank blank' inked nonempty ends ends'
  rw [ways, ways'] at same
  cases same with
  | cons first _ => rw [valueEq, valueEq', first]

section Words

variable {gaps : List Char → List Char → Prop}

/-- The value of a text field stays when the text is respaced. -/
theorem textValue_respaced {quotable : Bool} {value rest text' : List Char}
    (inside : TextValue quotable value) (respaced : Respaced gaps (value ++ rest) text') :
    ∃ rest', text' = value ++ rest' ∧ Respaced gaps rest rest' := by
  rcases inside with ⟨_, text, plain, rfl⟩ | ⟨_, inked, plain, _⟩
  · exact respaced.split_pair plain
  · exact respaced.split_word inked plain

/-- A word of a field stays one, with its value, when the text is respaced. -/
theorem Spells.respaced (proper : field.IsProper) (quoteFree : field.IsQuoteFree)
    {word rest text' : List Char} {value : FieldValue} (spells : field.Spells word value)
    (ends : EndsWord rest) (respaced : Respaced gaps (word ++ rest) text') :
    ∃ word' rest', text' = word' ++ rest' ∧ field.Spells word' value ∧ EndsWord rest' ∧
      Respaced gaps rest rest' ∧ ((∀ quotable, field.kind ≠ .text quotable) → word' = word) := by
  by_cases noText : ∀ quotable, field.kind ≠ .text quotable
  · rcases respaced.split_word (spells.noBlank proper noText)
      (quoteFree.noQuote_spells noText spells) with ⟨rest', rfl, onwards⟩
    exact ⟨word, rest', rfl, spells, onwards.endsWord ends, onwards, fun _ => rfl⟩
  · cases spells with
    | flag kind => exact absurd (by simp [kind]) noText
    | number kind => exact absurd (by simp [kind]) noText
    | positional kind positional inside =>
        rcases textValue_respaced inside respaced with ⟨rest', rfl, onwards⟩
        exact ⟨word, rest', rfl, .positional kind positional inside, onwards.endsWord ends,
          onwards, fun _ => rfl⟩
    | @text quotable name blanks value kind aliased introduced nonempty blank inside =>
        rw [List.append_assoc, List.append_assoc] at respaced
        rcases respaced.split_word (introduced.noBlank proper) (quoteFree.introduces introduced)
          with ⟨afterName, rfl, fromGap⟩
        have valueNonempty : value ++ rest ≠ [] := by
          rcases inside with ⟨_, text, _, rfl⟩ | bare
          · simp [enclosed]
          · simp [bare.1]
        rcases fromGap.split_gap nonempty blank (inside.startsInked rest) valueNonempty with
          ⟨blanks', afterGap, rfl, nonempty', blank', fromValue⟩
        rcases textValue_respaced inside fromValue with ⟨rest', rfl, onwards⟩
        exact ⟨name ++ (blanks' ++ value), rest', by simp,
          .text kind aliased introduced nonempty' blank' inside, onwards.endsWord ends, onwards,
          fun noText => absurd kind (noText quotable)⟩

end Words

end Field

/-- A place in a text and one in a respaced text, with the blanks behind them. -/
structure Respacing (gaps : List Char → List Char → Prop)
    (before blanks text before' blanks' text' : List Char) : Prop where
  place : before = [] ∧ before' = [] ∨ (before ≠ [] ∧ before' ≠ []) ∧ blanks ≠ [] ∧ blanks' ≠ []
  blank : AllBlank blanks
  blank' : AllBlank blanks'
  inked : StartsInked text
  inked' : StartsInked text'
  respaced : Respaced gaps text text'

/-- Behind the place is a text without half a pair of quotation marks that ends at the other one. -/
structure Cursor.Passes (cursor stop : Cursor) : Prop where
  reaches : cursor.Reaches stop
  some : cursor.textTo stop ≠ []
  even : (cursor.textTo stop).count '"' % 2 = 0

/-- Nothing is found at two places, or a token of one field with one value, and behind the tokens
the texts are respaced. -/
inductive FoundAlike (gaps : List Char → List Char → Prop) (cursor cursor' : Cursor) :
    Option Token → Option Token → Prop where
  | nothing : FoundAlike gaps cursor cursor' none none
  | token (name : String) (value : FieldValue) {stop stop' : Cursor} (passes : cursor.Passes stop)
      (passes' : cursor'.Passes stop') (respaced : Respaced gaps stop.after stop'.after) :
      FoundAlike gaps cursor cursor' (some ⟨name, cursor, stop, value⟩)
        (some ⟨name, cursor', stop', value⟩)

variable {gaps : List Char → List Char → Prop}
  {before blanks text before' blanks' text' : List Char}

theorem Respacing.symm (respacing : Respacing gaps before blanks text before' blanks' text') :
    Respacing (fun gap gap' => gaps gap' gap) before' blanks' text' before blanks text where
  place := respacing.place.imp And.symm (And.imp And.symm And.symm)
  blank := respacing.blank'
  blank' := respacing.blank
  inked := respacing.inked'
  inked' := respacing.inked
  respaced := respacing.respaced.symm

theorem Respacing.opens (respacing : Respacing gaps before blanks text before' blanks' text') :
    before = [] ∨ blanks ≠ [] :=
  respacing.place.imp And.left fun inside => inside.2.1

namespace Field

variable {field : Field}

theorem OccursAt.passes (proper : field.IsProper) (quoteFree : field.IsQuoteFree)
    {start stop : Cursor} {value : FieldValue} (occurs : field.OccursAt start stop value) :
    start.Passes stop where
  reaches := Grammar.reaches_of_occursAt occurs
  some := occurs.textTo_ne_nil proper
  even := quoteFree.even_covered occurs

variable (proper : field.IsProper) (quoteFree : field.IsQuoteFree)
  (respacing : Respacing gaps before blanks text before' blanks' text')

include proper quoteFree respacing

/-- A field occurs with its value where the blanks are respaced. -/
theorem OccursAt.respaced {stop : Cursor} {value : FieldValue}
    (occurs : field.OccursAt ⟨before, blanks ++ text⟩ stop value) :
    ∃ stop', field.OccursAt ⟨before', blanks' ++ text'⟩ stop' value ∧
      Respaced gaps stop.after stop'.after := by
  rcases occurs.after_blanks proper respacing.blank respacing.inked with
    ⟨word, rest, rfl, spells, ends, place, rfl⟩
  rcases spells.respaced proper quoteFree ends respacing.respaced with
    ⟨word', rest', rfl, spells', ends', onwards, _⟩
  refine ⟨_, ⟨blanks', word', rest', rfl, respacing.blank', spells', ends', ?_, rfl⟩, onwards⟩
  rcases respacing.place with ⟨_, start'⟩ | ⟨⟨inside, _⟩, _, some'⟩
  · exact Or.inl start'
  · exact Or.inr ⟨(place.resolve_left inside).1, some'⟩

theorem tokenAt?_eq_none_of_respaced (nothing : field.tokenAt? ⟨before, blanks ++ text⟩ = none) :
    field.tokenAt? ⟨before', blanks' ++ text'⟩ = none := by
  rw [tokenAt?_eq_none_iff proper] at nothing ⊢
  intro stop' value occurs'
  rcases occurs'.respaced proper quoteFree respacing.symm with ⟨stop, occurs, _⟩
  exact nothing stop value occurs

/-- The tokens of a field in a text and in a respaced one have the same value. -/
theorem value_eq_of_respaced {token token' : Token}
    (found : field.tokenAt? ⟨before, blanks ++ text⟩ = some token)
    (found' : field.tokenAt? ⟨before', blanks' ++ text'⟩ = some token') :
    token.value = token'.value := by
  have occurs := (tokenAt?_eq_some proper found).2.2
  by_cases noNumber : ∀ signed whole, field.kind ≠ .number signed whole
  · rcases occurs.respaced proper quoteFree respacing with ⟨stop', occurs', _⟩
    rw [occurs'.tokenAt?_eq proper noNumber, Option.some.injEq] at found'
    rw [← found']
  · rcases occurs.after_blanks proper respacing.blank respacing.inked with
      ⟨word, rest, rfl, spells, ends, _, _⟩
    rcases spells.respaced proper quoteFree ends respacing.respaced with
      ⟨word', rest', rfl, _, ends', _, sameWord⟩
    have inked := spells.startsInked proper
    have nonempty := spells.ne_nil proper
    simp only [ne_eq, not_forall, Decidable.not_not] at noNumber
    rcases noNumber with ⟨signed, whole, kind⟩
    rw [sameWord (by simp [kind])] at found'
    exact tokenAt?_value_of_number proper kind respacing.opens respacing.symm.opens
      respacing.blank respacing.blank' inked nonempty ends ends' found found'

/-- A field has a token in a text if it has one in a respaced one, and with the same value. -/
theorem tokenAt?_respaced : FoundAlike gaps ⟨before, blanks ++ text⟩ ⟨before', blanks' ++ text'⟩
    (field.tokenAt? ⟨before, blanks ++ text⟩) (field.tokenAt? ⟨before', blanks' ++ text'⟩) := by
  cases found : field.tokenAt? ⟨before, blanks ++ text⟩ with
  | none =>
      rw [tokenAt?_eq_none_of_respaced proper quoteFree respacing found]
      exact .nothing
  | some token =>
      rcases tokenAt?_eq_some proper found with ⟨name, start, occurs⟩
      rcases occurs.respaced proper quoteFree respacing with ⟨stop', occurs', onwards⟩
      cases found' : field.tokenAt? ⟨before', blanks' ++ text'⟩ with
      | none => exact absurd occurs' ((tokenAt?_eq_none_iff proper).mp found' _ _)
      | some token' =>
          have value := value_eq_of_respaced proper quoteFree respacing found found'
          rcases tokenAt?_eq_some proper found' with ⟨name', start', occurs''⟩
          have stop := occurs''.stop_unique proper occurs'
          rcases token with ⟨_, _, _, _⟩
          rcases token' with ⟨_, _, _, _⟩
          simp only at name start name' start' value stop
          subst name start name' start' value stop
          exact .token _ _ (occurs.passes proper quoteFree) (occurs''.passes proper quoteFree) onwards

end Field

end SearchCommands
