import SearchCommands.Proofs.Field.QuoteWise

/-!
# Plain grammars

A grammar is unambiguous if no alias has operator characters and no two fields share an alias.
There at most one field with aliases occurs at a place.  A plain grammar is unambiguous, no alias has
quotation marks, and a word ends with every alias in every spelling.  There the field with aliases
that occurs at a place is the token at that place, and a positional field is the token where no
field with aliases occurs.
-/

namespace SearchCommands

open Text Pattern FieldPattern

/-- A character that would make an alias ambiguous. -/
def isMark (c : Char) : Bool := c == '"' || isOperatorCharacter c

/-- The aliases of a grammar cannot be mistaken for anything else. -/
structure Grammar.IsPlain (grammar : Grammar) : Prop where
  noMark : ∀ field ∈ grammar.fields, ∀ name ∈ field.aliases, ∀ c ∈ name.toList, isMark c = false
  steady : ∀ field ∈ grammar.fields, ∀ name ∈ field.aliases, ∀ c ∈ name.toList.getLast?,
    isSteady c = true
  distinct : ∀ field ∈ grammar.fields, ∀ other ∈ grammar.fields, ∀ name ∈ field.aliases,
    ∀ name' ∈ other.aliases, name.toList.map foldCase = name'.toList.map foldCase →
    field.name = other.name

/-- No alias has an operator in it, and no two fields share an alias, in any letter case. -/
structure Grammar.IsUnambiguous (grammar : Grammar) : Prop where
  noOperator : ∀ field ∈ grammar.fields, ∀ name ∈ field.aliases, ∀ c ∈ name.toList,
    isOperatorCharacter c = false
  distinct : ∀ field ∈ grammar.fields, ∀ other ∈ grammar.fields, ∀ name ∈ field.aliases,
    ∀ name' ∈ other.aliases, name.toList.map foldCase = name'.toList.map foldCase →
    field.name = other.name

theorem ne_quote_of_isMark {c : Char} (noMark : isMark c = false) : c ≠ '"' := by
  rintro rfl
  exact Bool.noConfusion noMark

theorem isOperatorCharacter_of_isMark {c : Char} (noMark : isMark c = false) :
    isOperatorCharacter c = false := by
  simp only [isMark, Bool.or_eq_false_iff] at noMark
  exact noMark.2

theorem EndsInked.of_textValue {quotable : Bool} {value : List Char}
    (inside : TextValue quotable value) : EndsInked value := by
  rcases inside with ⟨_, text, _, rfl⟩ | bare
  · exact (trimmed_enclosed text).2
  · exact bare.2.1.endsInked

namespace Field

/-- The first word of an occurrence of a field with aliases: what introduces it, and for a number
all of it. -/
def Leads (field : Field) (lead : List Char) : Prop :=
  (∀ signed whole, field.kind ≠ .number signed whole) ∧ field.Introduces lead ∨
    ∃ signed whole name, ∃ operator : Operator, ∃ digits, field.kind = .number signed whole ∧
      field.Introduces name ∧ operator ≠ .absent ∧ NumberText signed whole digits ∧
      lead = name ++ (operator.symbol.toList ++ digits)

theorem Spells.trimmed {field : Field} (proper : field.IsProper) {word : List Char}
    {value : FieldValue} (spells : field.Spells word value) : Trimmed word := by
  refine ⟨spells.startsInked proper, ?_⟩
  cases spells with
  | flag _ introduced => exact (introduced.noBlank proper).endsInked
  | @text _ name blanks value _ _ introduced nonempty blank inside =>
      rw [← List.append_assoc]
      apply (EndsInked.of_textValue inside).append
      rcases inside with ⟨_, _, _, rfl⟩ | bare
      · simp [enclosed]
      · exact bare.1
  | positional _ _ inside => exact EndsInked.of_textValue inside
  | number _ introduced _ inside =>
      exact (noBlank_number proper introduced _ inside).endsInked

theorem Leads.noBlank {field : Field} (proper : field.IsProper) {lead : List Char}
    (leads : field.Leads lead) : NoBlank lead := by
  rcases leads with ⟨_, introduced⟩ | ⟨_, _, _, _, _, _, introduced, _, number, rfl⟩
  · exact introduced.noBlank proper
  · exact noBlank_number proper introduced _ number

theorem Leads.ne_nil {field : Field} (proper : field.IsProper) {lead : List Char}
    (leads : field.Leads lead) : lead ≠ [] := by
  rcases leads with ⟨_, introduced⟩ | ⟨_, _, _, _, _, _, introduced, _, _, rfl⟩
  · exact introduced.ne_nil proper
  · simp [introduced.ne_nil proper]

/-- An occurrence of a field with aliases starts with its first word. -/
theorem Spells.exists_leads {field : Field} (aliased : field.isPositional = false)
    {word rest : List Char} {value : FieldValue} (spells : field.Spells word value)
    (ends : EndsWord rest) :
    ∃ lead more, word ++ rest = lead ++ more ∧ field.Leads lead ∧ EndsWord more := by
  cases spells with
  | flag kind introduced =>
      refine ⟨word, rest, rfl, Or.inl ⟨?_, introduced⟩, ends⟩
      intro signed whole
      rw [kind]
      exact fun impossible => nomatch impossible
  | @text quotable name blanks value kind _ introduced nonempty blank inside =>
      refine ⟨name, blanks ++ (value ++ rest), by simp, Or.inl ⟨?_, introduced⟩, ?_⟩
      · intro signed whole
        rw [kind]
        exact fun impossible => nomatch impossible
      · intro c member
        rcases List.exists_cons_of_ne_nil nonempty with ⟨d, more, rfl⟩
        rw [List.cons_append, List.head?_cons, Option.mem_some_iff] at member
        exact blank c (by simp [member])
  | positional _ positional _ =>
      rw [positional] at aliased
      cases aliased
  | number kind introduced given inside =>
      exact ⟨_, rest, rfl, Or.inr ⟨_, _, _, _, _, kind, introduced, given, inside, rfl⟩, ends⟩

/-- The parts of an occurrence in a text of which the leading blanks are known. -/
theorem OccursAt.after_blanks {field : Field} (proper : field.IsProper)
    {before blanks text : List Char} {stop : Cursor} {value : FieldValue} (blank : AllBlank blanks)
    (inked : StartsInked text)
    (occurs : field.OccursAt ⟨before, blanks ++ text⟩ stop value) :
    ∃ word rest, text = word ++ rest ∧ field.Spells word value ∧ EndsWord rest ∧
      (before = [] ∨ field.isPositional = false ∧ blanks ≠ []) ∧
      stop = ⟨word.reverse ++ (blanks.reverse ++ before), rest⟩ := by
  rcases occurs with ⟨blanks', word, rest, split, blank', spells, ends, place, rfl⟩
  have inked' : StartsInked (word ++ rest) :=
    (spells.startsInked proper).append (spells.ne_nil proper)
  rcases blanks_unique blank blank' inked inked' split with ⟨rfl, rfl⟩
  exact ⟨word, rest, rfl, spells, ends, place, rfl⟩

end Field

namespace Grammar

variable {grammar : Grammar}

namespace IsUnambiguous

variable (unambiguous : grammar.IsUnambiguous)

include unambiguous

theorem noOperator_introduces {field : Field} (member : field ∈ grammar.fields)
    {found : List Char} (introduced : field.Introduces found) :
    ∀ c ∈ found, isOperatorCharacter c = false := by
  rcases introduced with ⟨name, nameMember, spelled, _⟩
  intro c inside
  rw [← Bool.not_eq_true]
  intro operator
  have own := spelled.mem_of_caseless (isCaseless_of_isOperatorCharacter operator) inside
  rw [unambiguous.noOperator field member name nameMember c own] at operator
  cases operator

/-- What introduces one field introduces no other. -/
theorem introduces_unique {field other : Field} (member : field ∈ grammar.fields)
    (otherMember : other ∈ grammar.fields) {found : List Char}
    (introduced : field.Introduces found) (introduced' : other.Introduces found) :
    field = other := by
  rcases introduced with ⟨name, nameMember, spelled, _⟩
  rcases introduced' with ⟨name', nameMember', spelled', _⟩
  exact field_eq_of_name member otherMember (unambiguous.distinct field member other otherMember name
    nameMember name' nameMember' (spelled.foldCase_eq spelled'))

/-- An alias alone is not the first word of a number. -/
theorem introduces_ne_number {field : Field} (member : field ∈ grammar.fields)
    {lead name digits : List Char} {operator : Operator} (introduced : field.Introduces lead)
    (given : operator ≠ .absent) :
    lead ≠ name ++ (operator.symbol.toList ++ digits) := by
  rintro rfl
  rcases List.exists_cons_of_ne_nil (symbol_ne_nil given) with ⟨c, more, split⟩
  have inside : isOperatorCharacter c = true :=
    isOperatorCharacter_of_symbol operator c (by simp [split])
  have outside := unambiguous.noOperator_introduces member introduced c (by simp [split])
  rw [inside] at outside
  cases outside

/-- A first word leads one field. -/
theorem leads_unique {field other : Field} (member : field ∈ grammar.fields)
    (otherMember : other ∈ grammar.fields) {lead : List Char} (leads : field.Leads lead)
    (leads' : other.Leads lead) : field = other := by
  rcases leads with ⟨_, introduced⟩ |
    ⟨_, _, name, operator, digits, _, introduced, given, number, rfl⟩
  · rcases leads' with ⟨_, introduced'⟩ | ⟨_, _, _, _, _, _, _, given', _, same⟩
    · exact unambiguous.introduces_unique member otherMember introduced introduced'
    · exact absurd same (unambiguous.introduces_ne_number member introduced given')
  · rcases leads' with ⟨_, introduced'⟩ |
      ⟨_, _, name', operator', digits', _, introduced', given', number', same⟩
    · exact absurd rfl (unambiguous.introduces_ne_number otherMember introduced' given)
    · have names := (number_unique (unambiguous.noOperator_introduces member introduced)
        (unambiguous.noOperator_introduces otherMember introduced') given given'
        (isNumberCharacter_of_numberText number) (isNumberCharacter_of_numberText number') same).1
      subst names
      exact unambiguous.introduces_unique member otherMember introduced introduced'

/-- At most one field with aliases occurs at a place. -/
theorem field_eq_of_occursAt {field other : Field} (member : field ∈ grammar.fields)
    (otherMember : other ∈ grammar.fields) (aliased : field.isPositional = false)
    (aliased' : other.isPositional = false) {cursor stop stop' : Cursor}
    {value value' : FieldValue} (occurs : field.OccursAt cursor stop value)
    (occurs' : other.OccursAt cursor stop' value') : field = other := by
  rcases cursor with ⟨before, after⟩
  rcases occurs with ⟨blanks, word, rest, rfl, blank, spells, ends, _, _⟩
  have inked : StartsInked (word ++ rest) :=
    (spells.startsInked (isProper member)).append (spells.ne_nil (isProper member))
  rcases occurs'.after_blanks (isProper otherMember) blank inked with
    ⟨word', rest', same, spells', ends', _⟩
  rcases spells.exists_leads aliased ends with ⟨lead, more, leadSplit, leads, moreEnds⟩
  rcases spells'.exists_leads aliased' ends' with ⟨lead', more', leadSplit', leads', moreEnds'⟩
  have firstWord : lead ++ more = lead' ++ more' := by rw [← leadSplit, ← leadSplit', same]
  have leadEq := (word_unique (leads.noBlank (isProper member))
    (leads'.noBlank (isProper otherMember)) moreEnds moreEnds' firstWord).1
  subst leadEq
  exact unambiguous.leads_unique member otherMember leads leads'

end IsUnambiguous

namespace IsPlain

variable (plain : grammar.IsPlain)

include plain

theorem isUnambiguous : grammar.IsUnambiguous where
  noOperator field member name nameMember c inside :=
    isOperatorCharacter_of_isMark (plain.noMark field member name nameMember c inside)
  distinct := plain.distinct

theorem introduces {field : Field} (member : field ∈ grammar.fields) {name : String}
    (nameMember : name ∈ field.aliases) {found : List Char}
    (spelled : SpelledAs name.toList found) : field.Introduces found := by
  refine ⟨name, nameMember, spelled, ?_⟩
  intro ends
  cases last : name.toList.getLast? with
  | none =>
      simp only [Field.endsInWord, last] at ends
      cases ends
  | some c =>
      rcases spelled.getLast? last with ⟨d, last', same⟩
      have steady := plain.steady field member name nameMember c last
      simp [last', isWordCharacter_of_steady steady same]

theorem quoteFree {field : Field} (member : field ∈ grammar.fields) : field.IsQuoteFree := by
  intro name nameMember mark
  exact ne_quote_of_isMark (plain.noMark field member name nameMember '"' mark) rfl

theorem noQuote {field : Field} (member : field ∈ grammar.fields) {found : List Char}
    (introduced : field.Introduces found) : '"' ∉ found :=
  (plain.quoteFree member).introduces introduced

theorem noQuote_leads {field : Field} (member : field ∈ grammar.fields) {lead : List Char}
    (leads : field.Leads lead) : '"' ∉ lead := by
  rcases leads with ⟨_, introduced⟩ | ⟨_, _, name, operator, digits, _, introduced, _, number, rfl⟩
  · exact plain.noQuote member introduced
  · intro inside
    rcases List.mem_append.mp inside with inside | inside
    · exact plain.noQuote member introduced inside
    · rcases List.mem_append.mp inside with inside | inside
      · have impossible := isOperatorCharacter_of_symbol operator '"' inside
        exact absurd impossible (by decide)
      · exact ne_quote_of_number (isNumberCharacter_of_numberText number '"' inside) rfl

/-- A field has one word at a place, with one value. -/
theorem spells_unique {field : Field} (member : field ∈ grammar.fields)
    {word word' rest rest' : List Char} {value value' : FieldValue}
    (spells : field.Spells word value) (spells' : field.Spells word' value')
    (ends : EndsWord rest) (ends' : EndsWord rest')
    (same : word ++ rest = word' ++ rest') : word = word' ∧ rest = rest' ∧ value = value' := by
  have proper := isProper member
  by_cases noNumber : ∀ signed whole, field.kind ≠ .number signed whole
  · exact spells.unique proper noNumber spells' ends ends' same
  -- the digits of a number start where its operator ends, since an alias holds no operator
  simp only [ne_eq, not_forall, not_not] at noNumber
  rcases noNumber with ⟨signed, whole, kind⟩
  rcases spells.word_unique proper spells' ends ends' same with ⟨words, rests⟩
  rcases spells.of_number kind with ⟨_, _, _, rfl, rfl, introduced, given, inside⟩
  rcases spells'.of_number kind with ⟨_, _, _, rfl, rfl, introduced', given', inside'⟩
  rcases number_unique (plain.isUnambiguous.noOperator_introduces member introduced)
    (plain.isUnambiguous.noOperator_introduces member introduced') given given'
    (isNumberCharacter_of_numberText inside) (isNumberCharacter_of_numberText inside') words with
    ⟨_, operators, numbers⟩
  exact ⟨words, rests, by rw [operators, numbers]⟩

/-- At most one field with aliases occurs at a place, and in one way. -/
theorem occursAt_unique {field other : Field} (member : field ∈ grammar.fields)
    (otherMember : other ∈ grammar.fields) (aliased : field.isPositional = false)
    (aliased' : other.isPositional = false) {cursor stop stop' : Cursor}
    {value value' : FieldValue} (occurs : field.OccursAt cursor stop value)
    (occurs' : other.OccursAt cursor stop' value') :
    other = field ∧ stop' = stop ∧ value' = value := by
  have sameField := plain.isUnambiguous.field_eq_of_occursAt member otherMember aliased aliased'
    occurs occurs'
  subst sameField
  rcases cursor with ⟨before, after⟩
  rcases occurs with ⟨blanks, word, rest, rfl, blank, spells, ends, _, rfl⟩
  have inked : StartsInked (word ++ rest) :=
    (spells.startsInked (isProper member)).append (spells.ne_nil (isProper member))
  rcases occurs'.after_blanks (isProper member) blank inked with
    ⟨word', rest', same, spells', ends', _, rfl⟩
  rcases plain.spells_unique member spells spells' ends ends' same with
    ⟨rfl, rfl, rfl⟩
  exact ⟨rfl, rfl, rfl⟩

end IsPlain

/-- Where a field with aliases occurs, the token is an occurrence of such a field. -/
theorem exists_aliased_token {field : Field} (member : field ∈ grammar.fields)
    (aliased : field.isPositional = false) {cursor stop : Cursor} {value : FieldValue}
    (occurs : field.OccursAt cursor stop value) :
    ∃ other ∈ grammar.fields, other.isPositional = false ∧ ∃ stop' value',
      grammar.tokenAt? cursor = some ⟨other.name, cursor, stop', value'⟩ ∧
        other.OccursAt cursor stop' value' := by
  rcases Field.exists_mem_ways_of_occursAt (isProper member) occurs with ⟨way, wayMember⟩
  have split : grammar.pattern.ways false cursor =
      ((grammar.fields.filter fun field => !field.isPositional).flatMap
          fun field => field.pattern.ways false cursor) ++
        (grammar.fields.filter Field.isPositional).flatMap
          fun field => field.pattern.ways false cursor := by
    rw [pattern, ways_anyOf (pattern_ne_empty ⟨field, member⟩), List.flatMap_map, tried,
      List.flatMap_append]
  have inFirst : way ∈ (grammar.fields.filter fun field => !field.isPositional).flatMap
      fun field => field.pattern.ways false cursor := by
    rw [List.mem_flatMap]
    exact ⟨field, List.mem_filter.mpr ⟨member, by simp [aliased]⟩, wayMember⟩
  rcases List.exists_cons_of_ne_nil (List.ne_nil_of_mem inFirst) with ⟨first, more, shape⟩
  have preferred : grammar.pattern.match? cursor = some first := by
    rw [match?, split, shape]
    rfl
  have firstMember : first ∈ (grammar.fields.filter fun field => !field.isPositional).flatMap
      fun field => field.pattern.ways false cursor := by
    rw [shape]
    exact List.mem_cons_self
  rcases List.mem_flatMap.mp firstMember with ⟨other, otherMember, otherWay⟩
  rw [List.mem_filter] at otherMember
  rcases tokenAt?_of_match? otherMember.1 preferred otherWay with ⟨stop', found, occurs'⟩
  exact ⟨other, otherMember.1, by simpa using otherMember.2, stop', _, found, occurs'⟩

/-- Where a field with aliases occurs, it is the token. -/
theorem IsPlain.tokenAt?_of_aliased (plain : grammar.IsPlain) {field : Field}
    (member : field ∈ grammar.fields) (aliased : field.isPositional = false)
    {cursor stop : Cursor} {value : FieldValue} (occurs : field.OccursAt cursor stop value) :
    grammar.tokenAt? cursor = some ⟨field.name, cursor, stop, value⟩ := by
  rcases exists_aliased_token member aliased occurs with
    ⟨other, otherMember, aliased', stop', value', found, occurs'⟩
  rcases plain.occursAt_unique member otherMember aliased aliased' occurs occurs' with
    ⟨rfl, rfl, rfl⟩
  exact found

end Grammar

end SearchCommands
