import SearchCommands.Proofs.Search.Composition
import SearchCommands.Proofs.Search.Reading

/-!
# The words of searches

The items of a composed command are words of the fields of the two grammars.  Criteria are words of
measures and nothing else is, so the first phase takes them and leaves everything else; and the name
of a player is no word of a field with aliases, so it is read where it stands.
-/

namespace SearchCommands.Search

open Text FieldPattern Beatmap

theorem isPlain : grammar.IsPlain where
  noMark := by decide +kernel
  steady := by decide +kernel
  distinct := by decide +kernel

/-- No alias of the play count is an alias of a measure. -/
theorem playcount_alias_foreign : ∀ measure ∈ Measure.all, ∀ name ∈ measure.aliases,
    ∀ name' ∈ Part.playcount.aliases,
      name.toList.map foldCase ≠ name'.toList.map foldCase := by
  decide +kernel

theorem alias_head : ∀ part ∈ Part.all, part ≠ .playcount → ∀ name ∈ part.aliases,
    name.toList.head? = some '-' := by
  decide

/-- The words of a number field are those with one of its aliases. -/
theorem isNumberWord_of_spells {field : Field} {signed whole : Bool}
    (kind : field.kind = .number signed whole) {text : List Char} {value : FieldValue}
    (spells : field.Spells text value) : IsNumberWord field.aliases signed whole text := by
  rcases spells.of_number kind with
    ⟨name, operator, digits, rfl, _, ⟨written, member, spelled, _⟩, given, inside⟩
  exact ⟨written, member, name, spelled, operator, given, digits, inside, rfl⟩

/-- The word of a measure is a criterion. -/
theorem isCriterion_of_spells {measure : Measure} {text : List Char} {value : FieldValue}
    (spells : measure.declaration.Spells text value) : IsCriterion text :=
  ⟨measure, isNumberWord_of_spells rfl spells⟩

theorem not_isNumberWord_of_noOperator {aliases : List String} {signed whole : Bool}
    {text : List Char} (none : ∀ c ∈ text, isOperatorCharacter c = false) :
    ¬ IsNumberWord aliases signed whole text := by
  rintro ⟨_, _, found, _, operator, given, digits, _, rfl⟩
  rcases List.exists_cons_of_ne_nil (symbol_ne_nil given) with ⟨c, more, split⟩
  have outside := none c (by simp [split])
  rw [isOperatorCharacter_of_symbol operator c (by simp [split])] at outside
  cases outside

theorem not_isCriterion_of_noOperator {text : List Char}
    (none : ∀ c ∈ text, isOperatorCharacter c = false) : ¬ IsCriterion text := by
  rintro ⟨_, word⟩
  exact not_isNumberWord_of_noOperator none word

/-- The alias of a criterion has no mark. -/
theorem measure_noMark {measure : Measure} {name : String} (member : name ∈ measure.aliases)
    {found : List Char} (spelled : SpelledAs name.toList found) :
    '"' ∉ found ∧ ∀ c ∈ found, isOperatorCharacter c = false := by
  have introduced := Criteria.isPlain.introduces (Criteria.declaration_mem measure) member spelled
  exact ⟨Criteria.isPlain.noQuote (Criteria.declaration_mem measure) introduced,
    Criteria.isPlain.isUnambiguous.noOperator_introduces (Criteria.declaration_mem measure) introduced⟩

theorem not_isCriterion_of_quote {text : List Char} (quote : '"' ∈ text) :
    ¬ IsCriterion text := by
  rintro ⟨measure, name, member, found, spelled, operator, given, digits, number, rfl⟩
  have leads : measure.declaration.Leads (found ++ (operator.symbol.toList ++ digits)) :=
    Or.inr ⟨_, _, found, operator, digits, rfl,
      Criteria.isPlain.introduces (Criteria.declaration_mem measure) member spelled, given, number,
      rfl⟩
  exact Criteria.isPlain.noQuote_leads (Criteria.declaration_mem measure) leads quote

/-- What introduces a field of the search, in any letter case. -/
theorem introduces (part : Part) {found : List Char}
    (spelled : ∃ written ∈ part.aliases, SpelledAs written.toList found) :
    part.declaration.Introduces found := by
  rcases spelled with ⟨written, member, spelled⟩
  exact isPlain.introduces (declaration_mem part) member spelled

/-- A number after an alias of a measure is no number after an alias of the play count. -/
theorem not_isNumberWord_playcount {measure : Measure} {signed whole signed' whole' : Bool}
    {text : List Char} (word : IsNumberWord measure.aliases signed whole text) :
    ¬ IsNumberWord Part.playcount.aliases signed' whole' text := by
  rintro ⟨name', member', found', spelled', operator', given', digits', number', rfl⟩
  rcases word with ⟨name, member, found, spelled, operator, given, digits, number, same⟩
  have introduced := introduces .playcount ⟨name', member', spelled'⟩
  rcases number_unique (isPlain.isUnambiguous.noOperator_introduces (declaration_mem .playcount)
    introduced)
    (measure_noMark member spelled).2 given' given (isNumberCharacter_of_numberText number')
    (isNumberCharacter_of_numberText number) same with ⟨rfl, _, _⟩
  exact playcount_alias_foreign measure measure.mem_all name member name' member'
    (spelled.foldCase_eq spelled')

theorem not_isCriterion_of_playcount {text : List Char} (playcount : IsPlaycount text) :
    ¬ IsCriterion text := by
  rintro ⟨measure, word⟩
  exact not_isNumberWord_playcount word playcount

/-- A part with a dash before its aliases is not introduced without one. -/
theorem head?_of_introduces {part : Part} (dashed : part ≠ .playcount) {found : List Char}
    (introduced : part.declaration.Introduces found) : found.head? = some '-' := by
  rcases introduced with ⟨name, member, spelled, _⟩
  have head := alias_head part part.mem_all dashed name member
  cases shape : name.toList with
  | nil =>
      rw [shape] at head
      cases head
  | cons c rest =>
      rw [shape] at head spelled
      rw [List.head?_cons, Option.some.injEq] at head
      subst head
      cases spelled with
      | cons same _ =>
          rw [List.head?_cons, eq_of_sameLetter_caseless isCaseless_minus same]

namespace Operand

theorem textValue {value : Operand} (valid : value.IsValid) : TextValue true value.text := by
  cases value with
  | quoted inside => exact Or.inl ⟨rfl, inside, valid, rfl⟩
  | bare word => exact Or.inr valid.1

theorem isPiece {value : Operand} (valid : value.IsValid) : IsPiece value.text := by
  cases value with
  | quoted inside => exact Or.inr ⟨inside, valid, rfl⟩
  | bare word => exact Or.inl ⟨valid.1.1, valid.1.2.1, valid.1.2.2.1⟩

theorem textOf_text {value : Operand} (valid : value.IsValid) :
    Field.textOf value.text = .text value.content := by
  cases value with
  | quoted inside => rw [text, Field.textOf, unquote_enclosed, content]
  | bare word => rw [text, Field.textOf, unquote_word valid.1.2.1 valid.1.2.2.1, content]

theorem not_isCriterion {value : Operand} (valid : value.IsValid) : ¬ IsCriterion value.text := by
  cases value with
  | quoted inside => exact not_isCriterion_of_quote (by simp [text, enclosed])
  | bare word => exact valid.2

end Operand

/-- The name of a player is no word of a field with aliases. -/
theorem not_spells_name {value : Operand} (valid : value.IsValid)
    (noPlaycount : ¬ IsPlaycount value.text) {part : Part}
    (aliased : part.declaration.isPositional = false) {word rest rest' : List Char}
    {found : FieldValue} (spells : part.declaration.Spells word found) (ends : EndsWord rest)
    (ends' : EndsWord rest') : value.text ++ rest ≠ word ++ rest' := by
  intro same
  have member := declaration_mem part
  have proper := Grammar.isProper member
  rcases spells.exists_leads aliased ends' with ⟨lead, more, leadSplit, leads, moreEnds⟩
  rw [← same] at leadSplit
  cases value with
  | quoted text =>
      -- an alias does not start with a quotation mark
      have plainLead := isPlain.noQuote_leads member leads
      rcases List.exists_cons_of_ne_nil (leads.ne_nil proper) with ⟨c, tail, rfl⟩
      simp only [Operand.text, enclosed, List.cons_append, List.cons.injEq] at leadSplit
      exact plainLead (leadSplit.1 ▸ List.mem_cons_self)
  | bare bareWord =>
      -- and only the aliases of the play count do without a dash
      have leadEq := (word_unique valid.1.2.1 (leads.noBlank proper) ends moreEnds leadSplit).1
      subst leadEq
      have noDash {part : Part} (dashed : part ≠ .playcount)
          (introduced : part.declaration.Introduces bareWord) : False :=
        valid.1.2.2.2 (head?_of_introduces dashed introduced)
      rcases leads with ⟨noNumber, introduced⟩ |
        ⟨_, _, name, operator, digits, kind, introduced, given, number, shape⟩
      · apply noDash _ introduced
        rintro rfl
        exact noNumber true true rfl
      · cases part with
        | playcount =>
            cases kind
            rcases introduced with ⟨written, writtenMember, spelled, _⟩
            exact noPlaycount
              ⟨written, writtenMember, name, spelled, operator, given, digits, number, shape⟩
        | username | exact | query | artist | title => cases kind

/-- The name of a player at the start is the token there. -/
theorem tokenAt?_username {value : Operand} (valid : value.IsValid)
    (noPlaycount : ¬ IsPlaycount value.text) {rest : List Char} (ends : EndsWord rest) :
    grammar.tokenAt? ⟨[], value.text ++ rest⟩ =
      some ⟨"username", ⟨[], value.text ++ rest⟩, ⟨value.text.reverse, rest⟩,
        .text value.content⟩ := by
  have inside := Operand.textValue valid
  have own : Part.username.declaration.Spells value.text (.text value.content) := by
    rw [← Operand.textOf_text valid]
    exact .positional rfl rfl inside
  have occurs : Part.username.declaration.OccursAt ⟨[], value.text ++ rest⟩
      ⟨value.text.reverse, rest⟩ (.text value.content) :=
    ⟨[], value.text, rest, rfl, AllBlank.nil, own, ends, Or.inl rfl, by simp⟩
  refine Grammar.tokenAt?_of_unique (declaration_mem .username) occurs ?_
  intro other member stop' value' occurs'
  rcases exists_part member with ⟨part, rfl⟩
  have proper := Grammar.isProper member
  rcases occurs' with ⟨blanks, word, rest', split, blank, spells, ends', _, rfl⟩
  have wordInked : StartsInked (word ++ rest') :=
    (spells.startsInked proper).append (spells.ne_nil proper)
  rcases blanks_unique AllBlank.nil blank (inside.startsInked rest) wordInked split with ⟨rfl, same⟩
  cases part with
  | username =>
      rcases isPlain.spells_unique member own spells ends ends' same with ⟨rfl, rfl, rfl⟩
      exact ⟨rfl, by simp, rfl⟩
  | exact | query | artist | title | playcount =>
      exact absurd same (not_spells_name valid noPlaycount rfl spells ends ends')

end SearchCommands.Search
