import SearchCommands.Proofs.Field.AliasOrder
import SearchCommands.Proofs.Grammar.Permuting
import SearchCommands.Proofs.Grammar.Positional

/-!
# Aliases in any order

The aliases of a field can be declared in any order and more than once.  In another order the
pattern of the grammar is the same, and with repetitions it is another one that takes the same
tokens everywhere (`Grammar.tokenAt?_withAliases`).  Where several aliases of a number field can be
read, the number is read behind the longest of them (`Field.exists_readsLongest`).
-/

namespace SearchCommands

open Text Pattern FieldPattern

namespace Field

variable {field : Field}

/-- A word of a number field with a single alias is the alias in any letter case, an operator and
digits. -/
theorem Spells.of_single {signed whole : Bool} (kind : field.kind = .number signed whole)
    {name : String} (only : field.aliases = [name]) {word : List Char} {value : FieldValue}
    (spells : field.Spells word value) :
    ∃ found operator digits, SpelledAs name.toList found ∧ operator ≠ .absent ∧
      NumberText signed whole digits ∧ word = found ++ (operator.symbol.toList ++ digits) ∧
      value = boundOf operator digits := by
  rcases spells.of_number kind with ⟨_, _, _, rfl, rfl, ⟨other, member, spelled, _⟩, given, inside⟩
  rw [only, List.mem_singleton] at member
  exact ⟨_, _, _, member ▸ spelled, given, inside, rfl, rfl⟩

/-- With a single alias a number field reads one operator and one number at a place. -/
theorem OccursAt.unique_of_single (proper : field.IsProper) {signed whole : Bool}
    (kind : field.kind = .number signed whole) {name : String} (only : field.aliases = [name])
    {start stop stop' : Cursor} {value value' : FieldValue}
    (occurs : field.OccursAt start stop value) (occurs' : field.OccursAt start stop' value') :
    stop' = stop ∧ value' = value := by
  rcases occurs.exists_word proper occurs' with ⟨word, _, spells, spells', _, stopEq⟩
  refine ⟨stopEq, ?_⟩
  rcases spells.of_single kind only with ⟨found, operator, digits, spelled, given, inside, rfl, rfl⟩
  rcases spells'.of_single kind only with
    ⟨found', operator', digits', spelled', given', inside', words, rfl⟩
  -- the alias is as long in both spellings, so the operators start at the same place
  have lengths : found.length = found'.length := spelled.length_eq.symm.trans spelled'.length_eq
  have noName : ∀ c ∈ ([] : List Char), isOperatorCharacter c = false := by simp
  rcases number_unique noName noName given given' (isNumberCharacter_of_numberText inside)
    (isNumberCharacter_of_numberText inside') (List.append_inj words lengths).2 with
    ⟨_, rfl, rfl⟩
  rfl

/-- What a number field has between two places is an operator and digits behind one of its aliases,
the only ones that it can read there behind this alias.  The alias is the longest one in bytes with
which it can read anything there, the first in the order of code points among equally long ones. -/
structure ReadsLongest (field : Field) (start stop : Cursor) (value : FieldValue)
    (name : String) : Prop where
  declared : name ∈ field.aliases
  spelled : ∃ blanks found operator digits, AllBlank blanks ∧ SpelledAs name.toList found ∧
    operator ≠ .absent ∧ value = boundOf operator digits ∧
    start.textTo stop = blanks ++ (found ++ (operator.symbol.toList ++ digits))
  occurs : (field.withAliases [name]).OccursAt start stop value
  unique : ∀ stop' value', (field.withAliases [name]).OccursAt start stop' value' →
    stop' = stop ∧ value' = value
  longest : ∀ other ∈ field.aliases, ∀ stop' value',
    (field.withAliases [other]).OccursAt start stop' value' →
      byteLength other.toList < byteLength name.toList ∨
        byteLength other.toList = byteLength name.toList ∧ name ≤ other

/-- Where a number field occurs, it reads behind the longest alias. -/
theorem exists_readsLongest (proper : field.IsProper) {signed whole : Bool}
    (kind : field.kind = .number signed whole) {cursor : Cursor} {token : Token}
    (found : field.tokenAt? cursor = some token) :
    ∃ name, field.ReadsLongest cursor token.stop token.value name := by
  rcases (tokenAt?_eq_some proper found).2.2 with
    ⟨blanks, word, rest, split, blank, spells, _, place, _⟩
  rcases cursor with ⟨before, after⟩
  simp only at split
  subst split
  have inked : StartsInked (word ++ rest) :=
    (spells.startsInked proper).append (spells.ne_nil proper)
  have tries := match?_of_number proper kind (place.imp_right And.right) blank inked
  cases preferred : field.pattern.match? ⟨before, blanks ++ (word ++ rest)⟩ with
  | none => simp [tokenAt?, preferred] at found
  | some way =>
      rw [preferred] at tries
      rcases findSome?_sortAliases_eq_some_iff.mp tries.symm with ⟨name, member, own, first⟩
      have properSingle := proper.single member
      have foundSingle : (field.withAliases [name]).tokenAt? ⟨before, blanks ++ (word ++ rest)⟩ =
          some token := by
        rw [← found, tokenAt?, tokenAt?, own, preferred]
        rfl
      have occurs := (tokenAt?_eq_some properSingle foundSingle).2.2
      have kindSingle : (field.withAliases [name]).kind = .number signed whole := kind
      refine ⟨name, member, ?_, occurs, ?_, ?_⟩
      · rcases occurs.after_blanks properSingle blank inked with
          ⟨word', rest', same, spells', _, _, stop⟩
        rcases spells'.of_single kindSingle withAliases_aliases with
          ⟨found, operator, digits, spelled, given, _, rfl, value⟩
        refine ⟨blanks, found, operator, digits, blank, spelled, given, value, ?_⟩
        rw [same, stop, ← List.append_assoc, Cursor.textTo_split]
      · exact fun stop' value' => occurs.unique_of_single properSingle kindSingle rfl
      · intro other otherMember stop' value' occurs'
        have something : (field.withAliases [other]).pattern.match?
            ⟨before, blanks ++ (word ++ rest)⟩ ≠ none := by
          intro nothing
          have properOther := proper.single otherMember
          exact (tokenAt?_eq_none_iff properOther).mp
            ((match?_eq_none_iff properOther).mp nothing) stop' value' occurs'
        exact (precedes_iff.mp (first other otherMember something)).imp_right
          (And.imp_left Eq.symm)

/-- A field finds the same with the same aliases in any order and any number of times. -/
theorem tokenAt?_withAliases {names : List String}
    (same : ∀ name, name ∈ names ↔ name ∈ field.aliases) (cursor : Cursor) :
    (field.withAliases names).tokenAt? cursor = field.tokenAt? cursor := by
  rw [tokenAt?, tokenAt?, (pattern_withAliases_agrees same).match?_eq]
  rfl

end Field

namespace Grammar

variable {grammar other : Grammar} {aliases : String → List String}

section SameAliases

variable (same : ∀ field ∈ grammar.fields, ∀ name,
  name ∈ aliases field.name ↔ name ∈ field.aliases)

include same

/-- The declaration with the same aliases is accepted. -/
theorem exists_ofFields_withAliases :
    ∃ other, ofFields (grammar.fields.map fun field => field.withAliases (aliases field.name)) =
      .ok other ∧
        other.fields = grammar.fields.map fun field => field.withAliases (aliases field.name) := by
  apply exists_ofFields
  · intro field member
    rcases List.mem_map.mp member with ⟨own, ownMember, rfl⟩
    refine ⟨(isSound ownMember).isName, (isProper ownMember).withAliases (same own ownMember), ?_⟩
    intro rule ruleMember name reference
    rcases (isSound ownMember).known rule ruleMember name reference with ⟨other, inside, named⟩
    exact ⟨_, List.mem_map_of_mem inside, named⟩
  · rw [List.map_map]
    exact grammar.names_nodup

/-- The fields are tried in the order in which they were tried before. -/
theorem tried_withAliases :
    tried (grammar.fields.map fun field => field.withAliases (aliases field.name)) =
      (tried grammar.fields).map fun field => field.withAliases (aliases field.name) := by
  have positional : ∀ field ∈ grammar.fields,
      (field.withAliases (aliases field.name)).isPositional = field.isPositional :=
    fun field member => Field.isPositional_withAliases (same field member)
  rw [tried, tried, List.filter_map, List.filter_map, List.map_append]
  congr 2
  · apply List.filter_congr
    intro field member
    simp [positional field member]
  · apply List.filter_congr
    intro field member
    simp [positional field member]

theorem tokenAt?_withAliases
    (fields : other.fields = grammar.fields.map fun field =>
      field.withAliases (aliases field.name)) (cursor : Cursor) :
    other.tokenAt? cursor = grammar.tokenAt? cursor := by
  rw [tokenAt?_eq_findSome?, tokenAt?_eq_findSome?, fields, tried_withAliases same,
    List.findSome?_map]
  apply findSome?_congr
  intro field member
  exact Field.tokenAt?_withAliases (same field (mem_tried_iff.mp member)) cursor

theorem tokens_withAliases
    (fields : other.fields = grammar.fields.map fun field =>
      field.withAliases (aliases field.name)) (input : String) :
    other.tokens input = grammar.tokens input :=
  tokens_eq_iff.mpr ((grammar.scans_tokens input).congr (tokenAt?_withAliases same fields))

end SameAliases

/-- A capture of a number field is what the field reads behind the longest of its aliases there. -/
theorem exists_readsLongest {field : Field} (member : field ∈ grammar.fields)
    {signed whole : Bool} (kind : field.kind = .number signed whole) {input : String}
    {capture : Capture} (captured : capture ∈ grammar.captures input)
    (named : capture.field = field.name) :
    ∃ start stop name, (Cursor.ofText input.toList).Reaches start ∧
      capture.start = start.offset ∧ capture.stop = stop.offset ∧
      field.ReadsLongest start stop capture.value name := by
  rcases List.mem_map.mp captured with ⟨token, tokenMember, rfl⟩
  have scans := grammar.scans_tokens input
  have found := scans.tokenAt?_eq tokenMember
  rw [tokenAt?_eq_findSome?] at found
  rcases List.exists_of_findSome?_eq_some found with ⟨owner, inside, own⟩
  have ownerMember := mem_tried_iff.mp inside
  have ownerName := (Field.tokenAt?_eq_some (isProper ownerMember) own).1
  have same : owner = field := field_eq_of_name ownerMember member (ownerName.symm.trans named)
  subst same
  rcases Field.exists_readsLongest (isProper member) kind own with ⟨name, reads⟩
  exact ⟨token.start, token.stop, name, (scans.reaches tokenMember).1, rfl, rfl, reads⟩

/-- With the aliases of every field in another order the pattern is the same. -/
theorem pattern_withAliases
    (permuted : ∀ field ∈ grammar.fields, (aliases field.name).Perm field.aliases)
    (fields : other.fields = grammar.fields.map fun field =>
      field.withAliases (aliases field.name)) : other.pattern = grammar.pattern := by
  have same : ∀ field ∈ grammar.fields, ∀ name,
      name ∈ aliases field.name ↔ name ∈ field.aliases :=
    fun field member name => (permuted field member).mem_iff
  rw [pattern, pattern, fields, tried_withAliases same, List.map_map]
  congr 1
  apply List.map_congr_left
  intro field member
  exact Field.pattern_withAliases_of_perm (permuted field (mem_tried_iff.mp member))

/-- With the same aliases in any order and any number of times, every input is read the same. -/
theorem read_withAliases
    (same : ∀ field ∈ grammar.fields, ∀ name, name ∈ aliases field.name ↔ name ∈ field.aliases)
    (fields : other.fields = grammar.fields.map fun field =>
      field.withAliases (aliases field.name)) (input : String) :
    other.captures input = grammar.captures input ∧
      other.leftover input = grammar.leftover input ∧ other.read input = grammar.read input := by
  have tokens := tokens_withAliases same fields input
  have captures : other.captures input = grammar.captures input := by
    rw [Grammar.captures, Grammar.captures, tokens]
  have leftover : other.leftover input = grammar.leftover input := by
    rw [Grammar.leftover, Grammar.leftover, tokens]
  have rejects (found : Captures) : other.rejection? found = grammar.rejection? found := by
    rw [rejection?, rejection?, fields, List.findSome?_map]
    rfl
  have values (found : Captures) : other.values found = grammar.values found := by
    rw [Grammar.values, Grammar.values, fields, List.map_map]
    rfl
  refine ⟨captures, leftover, ?_⟩
  simp only [read, captures, leftover, rejects, values]

/-- The order of aliases and their repetition make no difference.  In another order they give the
same pattern, with repetitions they read every input with the same captures, verdict and leftover,
and a number field reads behind the longest of its aliases that can be read at a place. -/
theorem alias_order_insignificant (grammar : Grammar) :
    (∀ aliases : String → List String,
      (∀ field ∈ grammar.fields, (aliases field.name).Perm field.aliases) →
        ∃ other, ofFields (grammar.fields.map fun field =>
            field.withAliases (aliases field.name)) = .ok other ∧
          other.pattern = grammar.pattern ∧ other.source = grammar.source) ∧
    (∀ aliases : String → List String,
      (∀ field ∈ grammar.fields, ∀ name, name ∈ aliases field.name ↔ name ∈ field.aliases) →
        ∃ other, ofFields (grammar.fields.map fun field =>
            field.withAliases (aliases field.name)) = .ok other ∧
          ∀ input, other.captures input = grammar.captures input ∧
            other.leftover input = grammar.leftover input ∧
            other.read input = grammar.read input) ∧
    ∀ field ∈ grammar.fields, ∀ signed whole, field.kind = .number signed whole →
      ∀ input, ∀ capture ∈ grammar.captures input, capture.field = field.name →
        ∃ start stop name, (Cursor.ofText input.toList).Reaches start ∧
          capture.start = start.offset ∧ capture.stop = stop.offset ∧
          field.ReadsLongest start stop capture.value name := by
  refine ⟨?_, ?_, ?_⟩
  · intro aliases permuted
    rcases exists_ofFields_withAliases fun field member _ => (permuted field member).mem_iff with
      ⟨other, declared, fields⟩
    have patterns := pattern_withAliases permuted fields
    exact ⟨other, declared, patterns, congrArg Pattern.source patterns⟩
  · intro aliases same
    rcases exists_ofFields_withAliases same with ⟨other, declared, fields⟩
    exact ⟨other, declared, read_withAliases same fields⟩
  · intro field member signed whole kind input capture captured named
    exact exists_readsLongest member kind captured named

/-- The alias `s<` leaves an equality of `s<=5`, also where `s` is declared behind it and twice. -/
theorem alias_order_insignificant_stars :
    ∃ grammar other : Grammar,
      grammar.fields = [⟨"stars", .number false false, ["s", "s<"], []⟩] ∧
      ofFields [⟨"stars", .number false false, ["s<", "s", "s"], []⟩] = .ok other ∧
      other.captures "s<=5" = [⟨"stars", 0, 4, Field.boundOf .equal ['5']⟩] ∧
      ∃ start stop name, (Field.mk "stars" (.number false false) ["s", "s<"] []).ReadsLongest
        start stop (Field.boundOf .equal ['5']) name := by
  let stars : Field := ⟨"stars", .number false false, ["s", "s<"], []⟩
  let grammar : Grammar := ⟨[stars], by decide +kernel⟩
  have own : grammar.captures "s<=5" = [⟨"stars", 0, 4, Field.boundOf .equal ['5']⟩] := by
    decide +kernel
  have same : ∀ field ∈ grammar.fields, ∀ name,
      name ∈ ["s<", "s", "s"] ↔ name ∈ field.aliases := by
    intro field member name
    rw [List.mem_singleton.mp member]
    simp [stars, or_comm]
  rcases alias_order_insignificant grammar with ⟨_, repeated, longest⟩
  rcases repeated (fun _ => ["s<", "s", "s"]) same with ⟨other, declared, reads⟩
  rcases longest stars List.mem_cons_self false false rfl "s<=5" _
    (own ▸ List.mem_cons_self) rfl with ⟨start, stop, name, _, _, _, readsLongest⟩
  exact ⟨grammar, other, rfl, declared, (reads "s<=5").1.trans own, start, stop, name, readsLongest⟩

end Grammar

end SearchCommands
