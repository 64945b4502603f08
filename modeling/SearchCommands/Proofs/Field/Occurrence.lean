import SearchCommands.Proofs.Field.Spelling

/-!
# Where fields occur

`Field.Spells` says which words a field has and which values they give; `Field.OccursAt` puts such
a word at a place.  The main statements are the two directions between these relations and the
pattern of the field: every way to match the pattern is an occurrence, and every occurrence has a
way.

A way also captures parts of the word, which `Field.WordParts` adds to `Field.Spells` and
`Field.PartedAt` to `Field.OccursAt`.  The pattern of a field is taken apart once, for
`partedAt_of_mem_ways`; everything that holds for the captured parts follows by cases on the word.
-/

namespace SearchCommands

open Text Pattern FieldPattern

namespace Field

/-- An alias that ends in a letter or a number, so that a word has to end with it. -/
def endsInWord (name : String) : Bool :=
  name.toList.getLast?.any fun c => isAlphanumeric c || c == '_'

/-- A text that introduces the field: an alias in any letter case, and a whole word if the alias
ends in a letter or a number. -/
def Introduces (field : Field) (found : List Char) : Prop :=
  ∃ name ∈ field.aliases, SpelledAs name.toList found ∧
    (endsInWord name = true → found.getLast?.any isWordCharacter = true)

/-- The value of a text field of which the given text was captured. -/
def textOf (captured : List Char) : FieldValue := .text (String.ofList (unquote captured))

/-- The value of a number field of which the given operator and digits were captured. -/
def boundOf (operator : Operator) (digits : List Char) : FieldValue :=
  .comparison (.single ⟨operator, String.ofList digits⟩)

/-- The words of a field with their values. -/
inductive Spells (field : Field) : List Char → FieldValue → Prop where
  | flag {name : List Char} (kind : field.kind = .flag) (introduced : field.Introduces name) :
      Spells field name .flag
  | text {quotable : Bool} {name blanks value : List Char} (kind : field.kind = .text quotable)
      (aliased : field.isPositional = false) (introduced : field.Introduces name)
      (nonempty : blanks ≠ []) (blank : AllBlank blanks) (inside : TextValue quotable value) :
      Spells field (name ++ (blanks ++ value)) (textOf value)
  | positional {quotable : Bool} {value : List Char} (kind : field.kind = .text quotable)
      (positional : field.isPositional = true) (inside : TextValue quotable value) :
      Spells field value (textOf value)
  | number {signed whole : Bool} {name digits : List Char} {operator : Operator}
      (kind : field.kind = .number signed whole) (introduced : field.Introduces name)
      (given : operator ≠ .absent) (inside : NumberText signed whole digits) :
      Spells field (name ++ (operator.symbol.toList ++ digits)) (boundOf operator digits)

/-- The words of a number field: an alias, an operator and digits. -/
theorem Spells.of_number {field : Field} {signed whole : Bool}
    (kind : field.kind = .number signed whole) {word : List Char} {value : FieldValue}
    (spells : field.Spells word value) :
    ∃ (name : List Char) (operator : Operator) (digits : List Char),
      word = name ++ (operator.symbol.toList ++ digits) ∧ value = boundOf operator digits ∧
        field.Introduces name ∧ operator ≠ .absent ∧ NumberText signed whole digits := by
  cases spells with
  | flag isFlag => rw [kind] at isFlag; cases isFlag
  | text isText => rw [kind] at isText; cases isText
  | positional isText => rw [kind] at isText; cases isText
  | number isNumber introduced given inside =>
      rw [kind] at isNumber
      cases isNumber
      exact ⟨_, _, _, rfl, rfl, introduced, given, inside⟩

/-- A word of the field stands at a place, after blanks that belong to it.  Without blanks it has
to start the input, and without aliases as well. -/
def OccursAt (field : Field) (start stop : Cursor) (value : FieldValue) : Prop :=
  ∃ blanks word rest, start.after = blanks ++ (word ++ rest) ∧ AllBlank blanks ∧
    field.Spells word value ∧ EndsWord rest ∧
    (start.before = [] ∨ field.isPositional = false ∧ blanks ≠ []) ∧
    stop = ⟨word.reverse ++ (blanks.reverse ++ start.before), rest⟩

/-- What the declaration of a field promises about its aliases. -/
structure IsProper (field : Field) : Prop where
  aliasProper : ∀ name ∈ field.aliases, isAlias name = true
  positionalText : field.isPositional = true → ∃ quotable, field.kind = .text quotable

theorem IsProper.aliases_ne_nil {field : Field} (proper : field.IsProper)
    (noText : ∀ quotable, field.kind ≠ .text quotable) : field.aliases ≠ [] := by
  intro empty
  rcases proper.positionalText (by simp [isPositional, empty]) with ⟨quotable, kind⟩
  exact noText quotable kind

theorem Introduces.ne_nil {field : Field} (proper : field.IsProper) {found : List Char}
    (introduced : field.Introduces found) : found ≠ [] := by
  rcases introduced with ⟨name, member, spelled, _⟩
  apply spelled.ne_nil
  have proper := proper.aliasProper name member
  simp only [isAlias, Bool.and_eq_true, Bool.not_eq_true', List.isEmpty_eq_false_iff] at proper
  exact proper.1

theorem Introduces.noBlank {field : Field} (proper : field.IsProper) {found : List Char}
    (introduced : field.Introduces found) : NoBlank found := by
  rcases introduced with ⟨name, member, spelled, _⟩
  apply spelled.noBlank
  intro c inside
  have proper := proper.aliasProper name member
  simp only [isAlias, Bool.and_eq_true, Bool.not_eq_true', List.any_eq_false] at proper
  simpa using proper.2 c inside

end Field

namespace Pattern

theorem mem_ways_andThen {first second : Pattern} {folding : Bool} {cursor : Cursor} {way : Way} :
    way ∈ (andThen first second).ways folding cursor ↔
      ∃ head ∈ first.ways folding cursor, ∃ tail ∈ second.ways folding head.stop,
        head.andThen tail = way := by
  simp only [ways, List.mem_flatMap, List.mem_map]

theorem mem_ways_captured {name : String} {body : Pattern} {folding : Bool} {cursor : Cursor}
    {way : Way} :
    way ∈ (captured name body).ways folding cursor ↔
      ∃ inner ∈ body.ways folding cursor,
        ⟨inner.stop, ⟨name, cursor, inner.stop⟩ :: inner.groups⟩ = way := by
  simp only [ways, List.mem_map]

theorem ways_anyOf {patterns : List Pattern} (nonempty : patterns ≠ []) (folding : Bool)
    (cursor : Cursor) :
    (anyOf patterns).ways folding cursor =
      patterns.flatMap fun pattern => pattern.ways folding cursor := by
  induction patterns with
  | nil => exact absurd rfl nonempty
  | cons first rest ih =>
      cases rest with
      | nil => simp [anyOf]
      | cons second rest =>
          rw [anyOf, ways, ih (by simp)]
          rfl

theorem mem_ways_anyOf {patterns : List Pattern} (nonempty : patterns ≠ []) {folding : Bool}
    {cursor : Cursor} {way : Way} :
    way ∈ (anyOf patterns).ways folding cursor ↔
      ∃ pattern ∈ patterns, way ∈ pattern.ways folding cursor := by
  rw [ways_anyOf nonempty, List.mem_flatMap]

theorem mem_ways_opening {before after : List Char} {way : Way} :
    way ∈ opening.ways false ⟨before, after⟩ ↔
      ∃ blanks rest, after = blanks ++ rest ∧ AllBlank blanks ∧ (before = [] ∨ blanks ≠ []) ∧
        way = ⟨⟨blanks.reverse ++ before, rest⟩, []⟩ := by
  simp only [opening, ways, List.mem_append]
  have blankWays := Describes.oneOrMore .blank before after way
  simp only [ways] at blankWays
  rw [blankWays]
  constructor
  · rintro (member | ⟨blanks, rest, rfl, ⟨nonempty, blank⟩, rfl⟩)
    · split at member
      · rename_i atStart
        rw [List.mem_singleton] at member
        exact ⟨[], after, rfl, AllBlank.nil, Or.inl (List.isEmpty_iff.mp atStart), member⟩
      · simp at member
    · exact ⟨blanks, rest, rfl, blank, Or.inr nonempty, rfl⟩
  · rintro ⟨blanks, rest, rfl, blank, place, rfl⟩
    by_cases empty : blanks = []
    · subst empty
      have atStart : before = [] := place.resolve_right (by simp)
      left
      simp [atStart]
    · exact Or.inr ⟨blanks, rest, rfl, ⟨empty, blank⟩, rfl⟩

/-- The closing of a field matches exactly where a word can end. -/
theorem exists_mem_ways_closing {before after : List Char} :
    (∃ way, way ∈ closing.ways false ⟨before, after⟩) ↔ EndsWord after := by
  simp only [closing, ways, List.mem_append]
  cases after with
  | nil => simp [ways, EndsWord]
  | cons c after =>
      by_cases blank : isBlank c = true
      · simp [ways, EndsWord, CharSet.contains, blank]
      · simp [ways, EndsWord, CharSet.contains, blank]

theorem groups_of_mem_ways_closing {cursor : Cursor} {way : Way}
    (member : way ∈ closing.ways false cursor) : way.groups = [] := by
  rcases cursor with ⟨before, after⟩
  cases after with
  | nil =>
      simp only [closing, ways, List.isEmpty_nil, if_true, List.nil_append,
        List.mem_singleton] at member
      exact member ▸ rfl
  | cons c after =>
      simp only [closing, ways, List.mem_append, List.isEmpty_cons, Bool.false_eq_true, if_false,
        List.not_mem_nil, or_false] at member
      split at member
      · rw [List.mem_singleton] at member
        exact member ▸ rfl
      · simp at member

theorem mem_ways_oneAlias {name : String} {before after : List Char} {way : Way} :
    way ∈ (oneAlias name).ways true ⟨before, after⟩ ↔
      ∃ found rest, after = found ++ rest ∧ SpelledAs name.toList found ∧
        (Field.endsInWord name = true →
          (Cursor.mk (found.reverse ++ before) rest).atWordEdge = true) ∧
        way = ⟨⟨found.reverse ++ before, rest⟩, []⟩ := by
  have literalWays : ∀ way, way ∈ (literal name.toList).ways true ⟨before, after⟩ ↔
      ∃ found rest, after = found ++ rest ∧ SpelledAs name.toList found ∧
        way = ⟨⟨found.reverse ++ before, rest⟩, []⟩ := by
    intro way
    simp only [ways, List.mem_map, Option.mem_toList, Cursor.read?_eq_some_iff, if_true]
    constructor
    · rintro ⟨place, ⟨found, rest, rfl, spelled, rfl⟩, rfl⟩
      exact ⟨found, rest, rfl, spelled, rfl⟩
    · rintro ⟨found, rest, rfl, spelled, rfl⟩
      exact ⟨_, ⟨found, rest, rfl, spelled, rfl⟩, rfl⟩
  unfold oneAlias
  split
  · rename_i ends
    have endsInWord : Field.endsInWord name = true := ends
    simp only [mem_ways_andThen, literalWays]
    constructor
    · rintro ⟨_, ⟨found, rest, rfl, spelled, rfl⟩, edge, edgeMember, rfl⟩
      simp only [ways] at edgeMember
      split at edgeMember
      · rename_i atEdge
        rw [List.mem_singleton] at edgeMember
        subst edgeMember
        exact ⟨found, rest, rfl, spelled, fun _ => atEdge, rfl⟩
      · simp at edgeMember
    · rintro ⟨found, rest, rfl, spelled, atEdge, rfl⟩
      refine ⟨_, ⟨found, rest, rfl, spelled, rfl⟩, ⟨⟨found.reverse ++ before, rest⟩, []⟩, ?_, rfl⟩
      simp only [ways]
      rw [if_pos (atEdge endsInWord)]
      simp
  · rename_i noEnd
    have noEnd : ¬ Field.endsInWord name = true := noEnd
    rw [literalWays]
    constructor
    · rintro ⟨found, rest, rfl, spelled, rfl⟩
      exact ⟨found, rest, rfl, spelled, fun ends => absurd ends noEnd, rfl⟩
    · rintro ⟨found, rest, rfl, spelled, _, rfl⟩
      exact ⟨found, rest, rfl, spelled, rfl⟩

theorem mem_sortAliases {names : List String} {name : String} :
    name ∈ sortAliases names ↔ name ∈ names :=
  (sortAliases_perm names).mem_iff

/-- The choice among aliases has something to choose. -/
theorem map_oneAlias_ne_nil {names : List String} (nonempty : names ≠ []) :
    (sortAliases names).map oneAlias ≠ [] := by
  rcases List.exists_mem_of_ne_nil names nonempty with ⟨name, member⟩
  exact List.ne_nil_of_mem (List.mem_map_of_mem (mem_sortAliases.mpr member))

theorem mem_ways_anyAlias {names : List String} (nonempty : names ≠ []) {before after : List Char}
    {way : Way} :
    way ∈ (anyAlias names).ways false ⟨before, after⟩ ↔
      ∃ name ∈ names, ∃ found rest, after = found ++ rest ∧ SpelledAs name.toList found ∧
        (Field.endsInWord name = true →
          (Cursor.mk (found.reverse ++ before) rest).atWordEdge = true) ∧
        way = ⟨⟨found.reverse ++ before, rest⟩, []⟩ := by
  simp only [anyAlias, ways, mem_ways_anyOf (map_oneAlias_ne_nil nonempty), List.mem_map]
  constructor
  · rintro ⟨_, ⟨name, member, rfl⟩, wayMember⟩
    exact ⟨name, mem_sortAliases.mp member, mem_ways_oneAlias.mp wayMember⟩
  · rintro ⟨name, member, described⟩
    exact ⟨_, ⟨name, mem_sortAliases.mpr member, rfl⟩, mem_ways_oneAlias.mpr described⟩

end Pattern

namespace Cursor

/-- Before a character that is no part of a word, a word ends where its last character is one. -/
theorem atWordEdge_iff {found before rest : List Char} (nonempty : found ≠ [])
    (outside : rest.head?.any isWordCharacter = false) :
    (Cursor.mk (found.reverse ++ before) rest).atWordEdge = true ↔
      found.getLast?.any isWordCharacter = true := by
  have last : (found.reverse ++ before).head? = found.getLast? := by
    rw [List.head?_append, List.head?_reverse, List.getLast?_eq_some_getLast nonempty]
    rfl
  simp only [atWordEdge, last, outside]
  simp

@[simp]
theorem textTo_split (before text before' rest : List Char) :
    (Cursor.mk before (text ++ rest)).textTo ⟨before', rest⟩ = text := by
  simp [textTo]

end Cursor

namespace Group

/-- The group of a text that stands between two parts of the input. -/
def ofText (name : String) (before text rest : List Char) : Group :=
  ⟨name, ⟨before, text ++ rest⟩, ⟨text.reverse ++ before, rest⟩⟩

@[simp]
theorem name_ofText (name : String) (before text rest : List Char) :
    (ofText name before text rest).name = name := rfl

@[simp]
theorem text_ofText (name : String) (before text rest : List Char) :
    (ofText name before text rest).text = text := Cursor.textTo_split ..

end Group

namespace Text

theorem any_isWordCharacter_of_endsWord {rest : List Char} (ends : EndsWord rest) :
    rest.head?.any isWordCharacter = false := by
  cases rest with
  | nil => rfl
  | cons c rest => exact isWordCharacter_of_isBlank (ends c (by simp))

theorem any_isWordCharacter_of_blanks {blanks : List Char} (nonempty : blanks ≠ [])
    (blank : AllBlank blanks) (rest : List Char) :
    (blanks ++ rest).head?.any isWordCharacter = false := by
  cases blanks with
  | nil => exact absurd rfl nonempty
  | cons c blanks => exact isWordCharacter_of_isBlank (blank c (by simp))

theorem any_isWordCharacter_of_operator {operator : Operator} (given : operator ≠ .absent)
    (rest : List Char) :
    (operator.symbol.toList ++ rest).head?.any isWordCharacter = false := by
  have less : isWordCharacter '<' = false := by decide +kernel
  have equal : isWordCharacter '=' = false := by decide +kernel
  have greater : isWordCharacter '>' = false := by decide +kernel
  cases operator with
  | absent => exact absurd rfl given
  | less | lessOrEqual => exact less
  | equal => exact equal
  | greater | greaterOrEqual => exact greater

end Text

namespace Field

theorem ne_textGroup (name : String) : name ≠ textGroup name := by
  intro same
  have := congrArg String.length same
  simp [textGroup] at this

theorem ne_operatorGroup (name : String) : name ≠ operatorGroup name := by
  intro same
  have := congrArg String.length same
  simp [operatorGroup] at this

theorem ne_numberGroup (name : String) : name ≠ numberGroup name := by
  intro same
  have := congrArg String.length same
  simp [numberGroup] at this

theorem operatorGroup_ne_numberGroup (name : String) : operatorGroup name ≠ numberGroup name := by
  intro same
  have := congrArg String.length same
  rw [operatorGroup, numberGroup, String.length_append, String.length_append] at this
  have lengths : "__op".length = 4 ∧ "__value".length = 7 := by decide
  omega

/-- The names of the groups inside an occurrence of a field. -/
def partNames (field : Field) : List String :=
  [textGroup field.name, operatorGroup field.name, numberGroup field.name]

/-- Reading an alias reads a word that introduces the field, if no word goes on after it. -/
theorem introduces_of_mem_ways {field : Field} (proper : field.IsProper)
    (nonempty : field.aliases ≠ []) {before after : List Char} {way : Way}
    (member : way ∈ (anyAlias field.aliases).ways false ⟨before, after⟩) :
    ∃ found rest, after = found ++ rest ∧ way = ⟨⟨found.reverse ++ before, rest⟩, []⟩ ∧
      (rest.head?.any isWordCharacter = false → field.Introduces found) := by
  rcases (mem_ways_anyAlias nonempty).mp member with
    ⟨name, nameMember, found, rest, split, spelled, edge, wayEq⟩
  refine ⟨found, rest, split, wayEq, ?_⟩
  intro outside
  refine ⟨name, nameMember, spelled, ?_⟩
  intro ends
  have nameProper := proper.aliasProper name nameMember
  simp only [isAlias, Bool.and_eq_true, Bool.not_eq_true', List.isEmpty_eq_false_iff]
    at nameProper
  exact (Cursor.atWordEdge_iff (spelled.ne_nil nameProper.1) outside).mp (edge ends)

theorem mem_ways_of_introduces {field : Field} (proper : field.IsProper) (before : List Char)
    {found rest : List Char} (introduced : field.Introduces found)
    (outside : rest.head?.any isWordCharacter = false) :
    ⟨⟨found.reverse ++ before, rest⟩, []⟩ ∈
      (anyAlias field.aliases).ways false ⟨before, found ++ rest⟩ := by
  have nonempty := introduced.ne_nil proper
  rcases introduced with ⟨name, member, spelled, ends⟩
  apply (mem_ways_anyAlias (List.ne_nil_of_mem member)).mpr
  refine ⟨name, member, found, rest, rfl, spelled, ?_, rfl⟩
  intro endsInWord
  exact (Cursor.atWordEdge_iff nonempty outside).mpr (ends endsInWord)

/-- The words of a field with their values, and what is captured of a word that stands between two
parts of the input: nothing of a flag, the value of a text, the operator and the digits of a
number. -/
inductive WordParts (field : Field) (before rest : List Char) :
    List Char → List Group → FieldValue → Prop where
  | flag {name : List Char} (kind : field.kind = .flag) (introduced : field.Introduces name) :
      WordParts field before rest name [] .flag
  | text {quotable : Bool} {name blanks value : List Char} (kind : field.kind = .text quotable)
      (aliased : field.isPositional = false) (introduced : field.Introduces name)
      (nonempty : blanks ≠ []) (blank : AllBlank blanks) (inside : TextValue quotable value) :
      WordParts field before rest (name ++ (blanks ++ value))
        [.ofText (textGroup field.name) (blanks.reverse ++ (name.reverse ++ before)) value rest]
        (textOf value)
  | positional {quotable : Bool} {value : List Char} (kind : field.kind = .text quotable)
      (positional : field.isPositional = true) (inside : TextValue quotable value) :
      WordParts field before rest value [.ofText (textGroup field.name) before value rest]
        (textOf value)
  | number {signed whole : Bool} {name digits : List Char} {operator : Operator}
      (kind : field.kind = .number signed whole) (introduced : field.Introduces name)
      (given : operator ≠ .absent) (inside : NumberText signed whole digits) :
      WordParts field before rest (name ++ (operator.symbol.toList ++ digits))
        [.ofText (operatorGroup field.name) (name.reverse ++ before) operator.symbol.toList
            (digits ++ rest),
          .ofText (numberGroup field.name)
            (operator.symbol.toList.reverse ++ (name.reverse ++ before)) digits rest]
        (boundOf operator digits)

namespace WordParts

variable {field : Field} {before rest word : List Char} {parts : List Group} {value : FieldValue}

theorem spells (parted : field.WordParts before rest word parts value) :
    field.Spells word value := by
  cases parted with
  | flag kind introduced => exact .flag kind introduced
  | text kind aliased introduced nonempty blank inside =>
      exact .text kind aliased introduced nonempty blank inside
  | positional kind positional inside => exact .positional kind positional inside
  | number kind introduced given inside => exact .number kind introduced given inside

theorem name_mem (parted : field.WordParts before rest word parts value) :
    ∀ part ∈ parts, part.name ∈ field.partNames := by
  cases parted with
  | flag | text | positional | number => simp [partNames]

/-- The value of an occurrence is looked up by the names of the parts. -/
theorem valueOf_eq (parted : field.WordParts before rest word parts value) {way : Way}
    {start stop : Cursor} (groups : way.groups = ⟨field.name, start, stop⟩ :: parts) :
    field.valueOf way = value := by
  cases parted with
  | flag kind => simp only [valueOf, kind]
  | text kind | positional kind =>
      simp [valueOf, kind, capturedText, Way.group?, groups, ne_textGroup, textOf]
  | number kind =>
      simp [valueOf, kind, capturedText, Way.group?, groups, ne_operatorGroup, ne_numberGroup,
        operatorGroup_ne_numberGroup, Operator.ofSymbol_symbol, boundOf]

end WordParts

/-- `OccursAt` with the parts of the word. -/
def PartedAt (field : Field) (start stop : Cursor) (parts : List Group) (value : FieldValue) :
    Prop :=
  ∃ blanks word rest, start.after = blanks ++ (word ++ rest) ∧ AllBlank blanks ∧
    field.WordParts (blanks.reverse ++ start.before) rest word parts value ∧ EndsWord rest ∧
    (start.before = [] ∨ field.isPositional = false ∧ blanks ≠ []) ∧
    stop = ⟨word.reverse ++ (blanks.reverse ++ start.before), rest⟩

namespace PartedAt

variable {field : Field} {start stop : Cursor} {parts : List Group} {value : FieldValue}

theorem occursAt (parted : field.PartedAt start stop parts value) :
    field.OccursAt start stop value := by
  rcases parted with ⟨blanks, word, rest, split, blank, parted, ends, place, stopEq⟩
  exact ⟨blanks, word, rest, split, blank, parted.spells, ends, place, stopEq⟩

theorem name_mem (parted : field.PartedAt start stop parts value) :
    ∀ part ∈ parts, part.name ∈ field.partNames := by
  rcases parted with ⟨_, _, _, _, _, parted, _⟩
  exact parted.name_mem

theorem valueOf_eq (parted : field.PartedAt start stop parts value) {way : Way}
    (groups : way.groups = ⟨field.name, start, stop⟩ :: parts) : field.valueOf way = value := by
  rcases parted with ⟨_, _, _, _, _, parted, _⟩
  exact parted.valueOf_eq groups

end PartedAt

/-- Whatever is read after an alias, the alias is read after blanks and captures nothing. -/
theorem mem_ways_introduced {field : Field} (proper : field.IsProper)
    (nonempty : field.aliases ≠ []) {next : Pattern} {before after : List Char} {way : Way}
    (member : way ∈ (andThen opening (andThen (anyAlias field.aliases) next)).ways false
      ⟨before, after⟩) :
    ∃ blanks found rest, after = blanks ++ (found ++ rest) ∧ AllBlank blanks ∧
      (before = [] ∨ field.isPositional = false ∧ blanks ≠ []) ∧
      (rest.head?.any isWordCharacter = false → field.Introduces found) ∧
      way ∈ next.ways false ⟨found.reverse ++ (blanks.reverse ++ before), rest⟩ := by
  rcases mem_ways_andThen.mp member with ⟨_, openMember, _, afterOpening, rfl⟩
  rcases mem_ways_opening.mp openMember with ⟨blanks, _, rfl, blank, place, rfl⟩
  rcases mem_ways_andThen.mp afterOpening with ⟨_, aliasMember, way, afterAlias, rfl⟩
  rcases introduces_of_mem_ways proper nonempty aliasMember with ⟨found, rest, rfl, rfl, introduced⟩
  have aliased : field.isPositional = false := by simpa [isPositional] using nonempty
  exact ⟨blanks, found, rest, rfl, blank, place.imp_right fun someBlanks => ⟨aliased, someBlanks⟩,
    introduced, afterAlias⟩

section Body

variable {field : Field} (proper : field.IsProper) {cursor : Cursor} {inner : Way}
  (member : inner ∈ field.body.ways false cursor) (ends : EndsWord inner.stop.after)

include proper member ends

/-- A flag is its alias, which has to end as a word because nothing else follows it. -/
theorem partedAt_of_flag (kind : field.kind = .flag) :
    field.PartedAt cursor inner.stop inner.groups .flag := by
  rcases cursor with ⟨before, after⟩
  simp only [body, kind] at member
  have nonempty := proper.aliases_ne_nil (by simp [kind])
  rcases mem_ways_andThen.mp member with ⟨_, openMember, _, aliasMember, rfl⟩
  rcases mem_ways_opening.mp openMember with ⟨blanks, _, rfl, blank, place, rfl⟩
  rcases introduces_of_mem_ways proper nonempty aliasMember with ⟨found, rest, rfl, rfl, introduced⟩
  have introduced := introduced (any_isWordCharacter_of_endsWord ends)
  have aliased : field.isPositional = false := by simpa [isPositional] using nonempty
  exact ⟨blanks, found, rest, rfl, blank, .flag kind introduced, ends,
    place.imp_right fun someBlanks => ⟨aliased, someBlanks⟩, rfl⟩

/-- A text is an alias and a value, and the blanks between them end the alias. -/
theorem exists_partedAt_of_text {quotable : Bool} (kind : field.kind = .text quotable)
    (aliased : field.isPositional = false) :
    ∃ value, field.PartedAt cursor inner.stop inner.groups value := by
  rcases cursor with ⟨before, after⟩
  simp only [body, kind, aliased, inOrder, Bool.false_eq_true, if_false] at member
  have nonempty : field.aliases ≠ [] := by simpa [isPositional] using aliased
  rcases mem_ways_introduced proper nonempty member with
    ⟨blanks, found, _, rfl, blank, place, introduced, afterAlias⟩
  rcases mem_ways_andThen.mp afterAlias with ⟨_, gapMember, _, valueMember, rfl⟩
  rcases (Describes.oneOrMore .blank _ _ _).mp gapMember with
    ⟨gap, _, rfl, ⟨gapNonempty, gapBlank⟩, rfl⟩
  rcases mem_ways_captured.mp valueMember with ⟨_, insideMember, rfl⟩
  rcases (describes_textValue quotable _ _ _).mp insideMember with ⟨value, rest, rfl, inside, rfl⟩
  have introduced := introduced (any_isWordCharacter_of_blanks gapNonempty gapBlank _)
  exact ⟨_, blanks, found ++ (gap ++ value), rest, by simp, blank,
    .text kind aliased introduced gapNonempty gapBlank inside, ends, place, by simp [Way.andThen]⟩

omit proper in
/-- Without an alias the value of a text comes first in the input. -/
theorem exists_partedAt_of_positional {quotable : Bool} (kind : field.kind = .text quotable)
    (positional : field.isPositional = true) :
    ∃ value, field.PartedAt cursor inner.stop inner.groups value := by
  rcases cursor with ⟨before, after⟩
  simp only [body, kind, positional, inOrder, if_true] at member
  rcases mem_ways_andThen.mp member with ⟨_, startMember, _, afterStart, rfl⟩
  simp only [ways] at startMember
  split at startMember
  · rename_i atStart
    rw [List.mem_singleton] at startMember
    subst startMember
    rcases mem_ways_andThen.mp afterStart with ⟨_, blankMember, _, valueMember, rfl⟩
    rcases (Describes.anyNumber .blank _ _ _).mp blankMember with ⟨blanks, _, rfl, blank, rfl⟩
    rcases mem_ways_captured.mp valueMember with ⟨_, insideMember, rfl⟩
    rcases (describes_textValue quotable _ _ _).mp insideMember with ⟨value, rest, rfl, inside, rfl⟩
    exact ⟨_, blanks, value, rest, rfl, blank, .positional kind positional inside, ends,
      Or.inl (by simpa using atStart), rfl⟩
  · cases startMember

/-- A number is an alias, an operator and digits, and the operator ends the alias. -/
theorem exists_partedAt_of_number {signed whole : Bool} (kind : field.kind = .number signed whole) :
    ∃ value, field.PartedAt cursor inner.stop inner.groups value := by
  rcases cursor with ⟨before, after⟩
  simp only [body, kind, inOrder] at member
  have nonempty := proper.aliases_ne_nil (by simp [kind])
  rcases mem_ways_introduced proper nonempty member with
    ⟨blanks, found, _, rfl, blank, place, introduced, afterAlias⟩
  rcases mem_ways_andThen.mp afterAlias with ⟨_, operatorMember, _, numberMember, rfl⟩
  rcases mem_ways_captured.mp operatorMember with ⟨_, symbolMember, rfl⟩
  rcases (describes_operators _ _ _).mp symbolMember with ⟨_, _, rfl, ⟨operator, given, rfl⟩, rfl⟩
  rcases mem_ways_captured.mp numberMember with ⟨_, digitsMember, rfl⟩
  rcases (describes_numberValue signed whole _ _ _).mp digitsMember with
    ⟨digits, rest, rfl, inside, rfl⟩
  have introduced := introduced (any_isWordCharacter_of_operator given _)
  exact ⟨_, blanks, found ++ (operator.symbol.toList ++ digits), rest, by simp, blank,
    .number kind introduced given inside, ends, place, by simp [Way.andThen]⟩

/-- What the body of a field reads before the end of a word is a word of the field, and the groups
are its parts. -/
theorem exists_partedAt_of_mem_ways_body :
    ∃ value, field.PartedAt cursor inner.stop inner.groups value := by
  cases kind : field.kind with
  | flag => exact ⟨_, partedAt_of_flag proper member ends kind⟩
  | text quotable =>
      cases position : field.isPositional with
      | false => exact exists_partedAt_of_text proper member ends kind position
      | true => exact exists_partedAt_of_positional member ends kind position
  | number signed whole => exact exists_partedAt_of_number proper member ends kind

end Body

/-- A way to match the pattern of a field starts with the group of the field.  After it come the
parts of a word that stands there, whose value is the one that is looked up. -/
theorem partedAt_of_mem_ways {field : Field} (proper : field.IsProper) {cursor : Cursor}
    {way : Way} (member : way ∈ field.pattern.ways false cursor) :
    ∃ stop parts, way.groups = ⟨field.name, cursor, stop⟩ :: parts ∧
      field.PartedAt cursor stop parts (field.valueOf way) := by
  rcases mem_ways_andThen.mp member with ⟨_, bodyMember, closing, closingMember, rfl⟩
  rcases mem_ways_captured.mp bodyMember with ⟨inner, innerMember, rfl⟩
  have ends : EndsWord inner.stop.after := exists_mem_ways_closing.mp ⟨closing, closingMember⟩
  rcases exists_partedAt_of_mem_ways_body proper innerMember ends with ⟨value, parted⟩
  have groups : (Way.andThen ⟨inner.stop, ⟨field.name, cursor, inner.stop⟩ :: inner.groups⟩
      closing).groups = ⟨field.name, cursor, inner.stop⟩ :: inner.groups := by
    simp [Way.andThen, groups_of_mem_ways_closing closingMember]
  rw [parted.valueOf_eq groups]
  exact ⟨inner.stop, inner.groups, groups, parted⟩

/-- A way to match the pattern of a field starts with the group of the field, which is an
occurrence. -/
theorem occursAt_of_mem_ways {field : Field} (proper : field.IsProper) {cursor : Cursor}
    {way : Way} (member : way ∈ field.pattern.ways false cursor) :
    ∃ stop parts, way.groups = ⟨field.name, cursor, stop⟩ :: parts ∧
      (∀ group ∈ parts, group.name ∈ field.partNames) ∧
      field.OccursAt cursor stop (field.valueOf way) := by
  rcases partedAt_of_mem_ways proper member with ⟨stop, parts, groups, parted⟩
  exact ⟨stop, parts, groups, parted.name_mem, parted.occursAt⟩

/-- An alias and what follows it are read from where the blanks before them end. -/
theorem mem_ways_opening_of_place {before blanks rest : List Char} (blank : AllBlank blanks)
    (place : before = [] ∨ blanks ≠ []) :
    ⟨⟨blanks.reverse ++ before, rest⟩, []⟩ ∈ opening.ways false ⟨before, blanks ++ rest⟩ :=
  mem_ways_opening.mpr ⟨blanks, rest, rfl, blank, place, rfl⟩

/-- What is read behind an alias is read after the blanks before the alias as well. -/
theorem mem_ways_of_introduced {field : Field} (proper : field.IsProper)
    {before blanks found rest : List Char} (blank : AllBlank blanks)
    (place : before = [] ∨ blanks ≠ []) (introduced : field.Introduces found)
    (outside : rest.head?.any isWordCharacter = false) {next : Pattern} {way : Way}
    (member : way ∈ next.ways false ⟨found.reverse ++ (blanks.reverse ++ before), rest⟩) :
    way ∈ (andThen opening (andThen (anyAlias field.aliases) next)).ways false
      ⟨before, blanks ++ (found ++ rest)⟩ :=
  mem_ways_andThen.mpr ⟨_, mem_ways_opening_of_place blank place, _,
    mem_ways_andThen.mpr ⟨_, mem_ways_of_introduces proper _ introduced outside, way, member, rfl⟩,
    rfl⟩

/-- An occurrence of a field is read by the body of the field. -/
theorem exists_mem_ways_body {field : Field} (proper : field.IsProper) {cursor stop : Cursor}
    {value : FieldValue} (occurs : field.OccursAt cursor stop value) :
    ∃ inner ∈ field.body.ways false cursor, inner.stop = stop := by
  rcases cursor with ⟨before, after⟩
  rcases occurs with ⟨blanks, word, rest, rfl, blank, spells, ends, place, rfl⟩
  have place' : before = [] ∨ blanks ≠ [] := place.imp_right And.right
  cases spells with
  | flag kind introduced =>
      simp only [body, kind]
      have aliasWay := mem_ways_of_introduces proper (blanks.reverse ++ before) introduced
        (any_isWordCharacter_of_endsWord ends)
      exact ⟨_, mem_ways_andThen.mpr ⟨_, mem_ways_opening_of_place blank place', _, aliasWay, rfl⟩,
        rfl⟩
  | @text quotable name gap value kind aliased introduced nonempty gapBlank inside =>
      simp only [body, kind, aliased, inOrder, Bool.false_eq_true, if_false]
      have gapWay (before : List Char) :=
        (Describes.oneOrMore .blank before (gap ++ (value ++ rest)) _).mpr
          ⟨gap, value ++ rest, rfl, ⟨nonempty, gapBlank⟩, rfl⟩
      have valueWay (before : List Char) :=
        (describes_textValue quotable before (value ++ rest) _).mpr ⟨value, rest, rfl, inside, rfl⟩
      have outside := any_isWordCharacter_of_blanks nonempty gapBlank (value ++ rest)
      rw [List.append_assoc, List.append_assoc]
      refine ⟨_, mem_ways_of_introduced proper blank place' introduced outside
        (mem_ways_andThen.mpr ⟨_, gapWay _, _, mem_ways_captured.mpr ⟨_, valueWay _, rfl⟩, rfl⟩), ?_⟩
      simp [Way.andThen]
  | @positional quotable value kind positional inside =>
      simp only [body, kind, positional, inOrder, if_true]
      have atStart : before = [] := place.resolve_right (by simp [positional])
      subst atStart
      have startWay : ⟨⟨[], blanks ++ (word ++ rest)⟩, []⟩ ∈
          inputStart.ways false ⟨[], blanks ++ (word ++ rest)⟩ := by simp [ways]
      have blankWay := (Describes.anyNumber .blank [] (blanks ++ (word ++ rest)) _).mpr
        ⟨blanks, word ++ rest, rfl, blank, rfl⟩
      have valueWay := (describes_textValue quotable (blanks.reverse ++ []) (word ++ rest) _).mpr
        ⟨word, rest, rfl, inside, rfl⟩
      exact ⟨_, mem_ways_andThen.mpr ⟨_, startWay, _, mem_ways_andThen.mpr ⟨_, blankWay, _,
        mem_ways_captured.mpr ⟨_, valueWay, rfl⟩, rfl⟩, rfl⟩, rfl⟩
  | @number signed whole name digits operator kind introduced given inside =>
      simp only [body, kind, inOrder]
      have operatorWay (before : List Char) :=
        (describes_operators before (operator.symbol.toList ++ (digits ++ rest)) _).mpr
          ⟨operator.symbol.toList, digits ++ rest, rfl, ⟨operator, given, rfl⟩, rfl⟩
      have numberWay (before : List Char) :=
        (describes_numberValue signed whole before (digits ++ rest) _).mpr
          ⟨digits, rest, rfl, inside, rfl⟩
      have outside := any_isWordCharacter_of_operator given (digits ++ rest)
      rw [List.append_assoc, List.append_assoc]
      refine ⟨_, mem_ways_of_introduced proper blank place' introduced outside
        (mem_ways_andThen.mpr ⟨_, mem_ways_captured.mpr ⟨_, operatorWay _, rfl⟩, _,
          mem_ways_captured.mpr ⟨_, numberWay _, rfl⟩, rfl⟩), ?_⟩
      simp [Way.andThen]

/-- Where a field occurs, its pattern matches. -/
theorem exists_mem_ways_of_occursAt {field : Field} (proper : field.IsProper)
    {cursor stop : Cursor} {value : FieldValue} (occurs : field.OccursAt cursor stop value) :
    ∃ way, way ∈ field.pattern.ways false cursor := by
  rcases exists_mem_ways_body proper occurs with ⟨inner, innerMember, rfl⟩
  rcases occurs with ⟨_, _, rest, _, _, _, ends, _, stopEq⟩
  have ends : EndsWord inner.stop.after := by rw [stopEq]; exact ends
  rcases exists_mem_ways_closing.mpr ends with ⟨closing, closingMember⟩
  exact ⟨_, mem_ways_andThen.mpr ⟨_, mem_ways_captured.mpr ⟨inner, innerMember, rfl⟩, closing,
    closingMember, rfl⟩⟩

end Field

end SearchCommands
