import Mathlib.Data.List.Pairwise
import SearchCommands.Proofs.Grammar.GroupNames
import SearchCommands.Proofs.Grammar.Preference
import SearchCommands.Search.Command

/-!
# Whose match it is

A match has groups, and they are looked up by their names.  Since no two groups of a pattern have
the same name, the groups of a match are those of the one field whose alternative matched, and
every look-up gives the part of the match that this field captured.

`Pattern.names_sublist` says for all patterns which groups a match can have.  `Field.ReadsFrom` says
what the groups of a field are, and `Grammar.BelongsTo` what makes a match that of a field.
-/

namespace SearchCommands

open Text Pattern FieldPattern

/-- Among groups with distinct names each one is found under its name. -/
theorem Way.group?_of_mem {way : Way} (distinct : (way.groups.map Group.name).Nodup) {group : Group}
    (member : group ∈ way.groups) : way.group? group.name = some group := by
  cases found : way.group? group.name with
  | none =>
      have missed := List.find?_eq_none.mp found group member
      simp at missed
  | some other =>
      have same : other.name = group.name := by simpa using List.find?_some found
      have otherMember := List.mem_of_find?_eq_some found
      exact congrArg some (List.inj_on_of_nodup_map distinct otherMember member same)

theorem Way.group?_eq_none {way : Way} {name : String} (absent : name ∉ way.groups.map Group.name) :
    way.group? name = none := by
  apply List.find?_eq_none.mpr
  intro group member same
  exact absent (List.mem_map.mpr ⟨group, member, by simpa using same⟩)

namespace Pattern

/-- A match captures groups of the pattern, each name at most as often as the pattern has it. -/
theorem names_sublist {pattern : Pattern} {folding : Bool} {cursor : Cursor} {way : Way}
    (member : way ∈ pattern.ways folding cursor) :
    (way.groups.map Group.name).Sublist pattern.groupNames := by
  induction pattern generalizing folding cursor way with
  | empty =>
      simp only [ways, List.mem_singleton] at member
      simp [member]
  | inputStart | inputEnd | wordEdge =>
      simp only [ways] at member
      split at member <;> simp_all
  | one set =>
      rcases cursor with ⟨before, _ | ⟨c, after⟩⟩
      · simp [ways] at member
      · simp only [ways] at member
        split at member <;> simp_all
  | oneOrMore set | anyNumber set | literal text =>
      simp only [ways, List.mem_map] at member
      rcases member with ⟨place, _, rfl⟩
      exact List.nil_sublist _
  | andThen first second ihFirst ihSecond =>
      rcases mem_ways_andThen.mp member with ⟨head, headMember, tail, tailMember, rfl⟩
      simp only [Way.andThen, List.map_append, groupNames]
      exact (ihFirst headMember).append (ihSecond tailMember)
  | orElse left right ihLeft ihRight =>
      simp only [ways, List.mem_append] at member
      rcases member with inLeft | inRight
      · exact (ihLeft inLeft).trans (List.sublist_append_left _ _)
      · exact (ihRight inRight).trans (List.sublist_append_right _ _)
  | optional body ih =>
      simp only [ways, List.mem_append, List.mem_singleton] at member
      rcases member with read | rfl
      · exact ih read
      · exact List.nil_sublist _
  | grouped body ih | anyCase body ih => exact ih member
  | captured name body ih =>
      rcases mem_ways_captured.mp member with ⟨inner, innerMember, rfl⟩
      exact (ih innerMember).cons_cons name

end Pattern

namespace Field

variable {field : Field}

/-- The groups of the parts of an occurrence that stops at a place, and the value that they give.
A flag has none; a text is all that comes last; an operator adjoins the digits behind it. -/
inductive ReadsFrom (field : Field) (stop : Cursor) : List Group → FieldValue → Prop where
  | flag (kind : field.kind = .flag) : ReadsFrom field stop [] .flag
  | text {quotable : Bool} {text : Group} (kind : field.kind = .text quotable)
      (named : text.name = textGroup field.name) (last : text.stop = stop)
      (inside : TextValue quotable text.text) :
      ReadsFrom field stop [text] (textOf text.text)
  | number {signed whole : Bool} {symbol digits : Group} {operator : Operator}
      (kind : field.kind = .number signed whole) (named : symbol.name = operatorGroup field.name)
      (named' : digits.name = numberGroup field.name) (adjoins : digits.start = symbol.stop)
      (last : digits.stop = stop) (given : operator ≠ .absent)
      (spelled : symbol.text = operator.symbol.toList)
      (inside : NumberText signed whole digits.text) :
      ReadsFrom field stop [symbol, digits] (boundOf operator digits.text)

theorem ReadsFrom.of_text {stop : Cursor} {quotable : Bool} {part : Group} {text : List Char}
    (kind : field.kind = .text quotable) (named : part.name = textGroup field.name)
    (last : part.stop = stop) (textEq : part.text = text) (inside : TextValue quotable text) :
    field.ReadsFrom stop [part] (textOf text) := by
  subst textEq
  exact .text kind named last inside

theorem ReadsFrom.of_number {stop : Cursor} {signed whole : Bool} {symbol digits : Group}
    {operator : Operator} {text : List Char} (kind : field.kind = .number signed whole)
    (named : symbol.name = operatorGroup field.name)
    (named' : digits.name = numberGroup field.name) (adjoins : digits.start = symbol.stop)
    (last : digits.stop = stop) (given : operator ≠ .absent)
    (spelled : symbol.text = operator.symbol.toList) (textEq : digits.text = text)
    (inside : NumberText signed whole text) :
    field.ReadsFrom stop [symbol, digits] (boundOf operator text) := by
  subst textEq
  exact .number kind named named' adjoins last given spelled inside

/-- The parts of a word are the groups from which its value is read. -/
theorem WordParts.readsFrom {before rest word : List Char} {parts : List Group}
    {value : FieldValue} (parted : field.WordParts before rest word parts value) :
    field.ReadsFrom ⟨word.reverse ++ before, rest⟩ parts value := by
  cases parted with
  | flag kind => exact .flag kind
  | text kind _ _ _ _ inside =>
      exact .of_text kind rfl (by simp [Group.ofText]) (Group.text_ofText ..) inside
  | positional kind _ inside => exact .of_text kind rfl rfl (Group.text_ofText ..) inside
  | number kind _ given inside =>
      exact .of_number kind rfl rfl rfl (by simp [Group.ofText]) given (Group.text_ofText ..)
        (Group.text_ofText ..) inside

end Field

namespace Grammar

variable {grammar : Grammar}

/-- A match is that of a field: the field is the first one whose pattern matches, the match has
exactly its groups, a look-up by name finds each of them and none of another field, and the token
at the place is the field with the value that these groups give. -/
structure BelongsTo (grammar : Grammar) (cursor : Cursor) (way : Way) (field : Field) : Prop where
  first : ∃ earlier later, tried grammar.fields = earlier ++ field :: later ∧
    (∀ other ∈ earlier, other.pattern.match? cursor = none) ∧
    field.pattern.match? cursor = some way
  own : ∃ stop parts, way.groups = ⟨field.name, cursor, stop⟩ :: parts ∧
    (∀ group ∈ way.groups, way.group? group.name = some group) ∧
    field.ReadsFrom stop parts (field.valueOf way) ∧
    grammar.occurrence? way = some (field, ⟨field.name, cursor, stop⟩) ∧
    grammar.tokenAt? cursor = some ⟨field.name, cursor, stop, field.valueOf way⟩
  alone : ∀ other ∈ grammar.fields, other ≠ field → ∀ name ∈ other.name :: other.parts,
    way.group? name = none

/-- The groups of a pattern are those of the declared fields and their parts. -/
theorem groupNames_perm (grammar : Grammar) : grammar.pattern.groupNames.Perm
    (grammar.fields.flatMap fun field => field.name :: field.parts) := by
  rw [groupNames_eq]
  exact (tried_perm grammar.fields).flatMap_right _

/-- No two fields have a group in common. -/
theorem field_eq_of_group {field other : Field} (member : field ∈ grammar.fields)
    (otherMember : other ∈ grammar.fields) {name : String}
    (inside : name ∈ field.name :: field.parts) (inside' : name ∈ other.name :: other.parts) :
    field = other := by
  have distinct := grammar.groupNames_perm.nodup_iff.mp grammar.nodup_groupNames
  have symmetric : Std.Symm (Function.onFun List.Disjoint fun field : Field =>
      field.name :: field.parts) := ⟨fun _ _ apart _ inside inside' => apart inside' inside⟩
  by_contra different
  exact (List.nodup_flatMap.mp distinct).2.forall member otherMember different inside inside'

/-- The match of the pattern is that of the first field that matches. -/
theorem exists_first_of_match? (nonempty : grammar.fields ≠ []) {cursor : Cursor} {way : Way}
    (preferred : grammar.pattern.match? cursor = some way) :
    ∃ field earlier later, tried grammar.fields = earlier ++ field :: later ∧
      (∀ other ∈ earlier, other.pattern.match? cursor = none) ∧
      field.pattern.match? cursor = some way := by
  rw [match?_pattern (List.exists_mem_of_ne_nil _ nonempty)] at preferred
  rcases List.findSome?_eq_some_iff.mp preferred with ⟨earlier, field, later, split, found, none⟩
  exact ⟨field, earlier, later, split, none, found⟩

theorem belongsTo_of_first {field : Field} {cursor : Cursor} {way : Way}
    (preferred : grammar.pattern.match? cursor = some way)
    (first : ∃ earlier later, tried grammar.fields = earlier ++ field :: later ∧
      (∀ other ∈ earlier, other.pattern.match? cursor = none) ∧
      field.pattern.match? cursor = some way) : grammar.BelongsTo cursor way field := by
  have ⟨earlier, later, split, _, found⟩ := first
  have member : field ∈ grammar.fields := mem_tried_iff.mp (by simp [split])
  have wayMember := List.mem_of_mem_head? found
  have names := names_sublist (List.mem_of_mem_head? preferred)
  have lookup : ∀ group ∈ way.groups, way.group? group.name = some group :=
    fun group => way.group?_of_mem (names.nodup grammar.nodup_groupNames)
  rcases Field.partedAt_of_mem_ways (isProper member) wayMember with
    ⟨stop, parts, groups, _, _, _, _, _, parted, _, _, rfl⟩
  have occurrence := occurrence?_eq member groups parted.name_mem
  refine ⟨first, ⟨_, parts, groups, lookup, parted.readsFrom, occurrence, ?_⟩, ?_⟩
  · simp [tokenAt?, preferred, occurrence]
  · intro other otherMember different name inside
    apply Way.group?_eq_none
    intro captured
    have ownName := (names_sublist wayMember).subset captured
    rw [field.groupNames_pattern] at ownName
    exact different (field_eq_of_group otherMember member inside ownName)

theorem BelongsTo.unique {cursor : Cursor} {way : Way} {field other : Field}
    (belongs : grammar.BelongsTo cursor way field) (belongs' : grammar.BelongsTo cursor way other) :
    field = other := by
  rcases belongs.own with ⟨stop, _, _, _, _, found, _⟩
  rcases belongs'.own with ⟨stop', _, _, _, _, found', _⟩
  rw [found, Option.some.injEq, Prod.mk.injEq] at found'
  exact found'.1

/-- The groups of a pattern are the fields and their parts, called by distinct identifiers, and so
every match belongs to exactly one field.  Only without any field is there a match of none. -/
theorem groups_identify_field (grammar : Grammar) :
    grammar.pattern.groupNames.Perm
        (grammar.fields.flatMap fun field => field.name :: field.parts) ∧
      grammar.pattern.groupNames.Nodup ∧
      (∀ name ∈ grammar.pattern.groupNames, Field.IsIdentifier name) ∧
      ∀ cursor way, grammar.fields ≠ [] → grammar.pattern.match? cursor = some way →
        ∃! field, grammar.BelongsTo cursor way field := by
  refine ⟨grammar.groupNames_perm, grammar.nodup_groupNames,
    fun _ => isIdentifier_of_mem_groupNames, ?_⟩
  intro cursor way nonempty preferred
  rcases exists_first_of_match? nonempty preferred with ⟨field, first⟩
  have belongs := belongsTo_of_first preferred first
  exact ⟨field, belongs, fun other belongs' => belongs'.unique belongs⟩

/-- `c>=5` is a play count, of at least five. -/
theorem groups_identify_playcount :
    ∃ way field stop, Search.grammar.pattern.match? (Cursor.ofText "c>=5".toList) = some way ∧
      Search.grammar.BelongsTo (Cursor.ofText "c>=5".toList) way field ∧
      Search.grammar.tokenAt? (Cursor.ofText "c>=5".toList) = some
        ⟨"playcount", Cursor.ofText "c>=5".toList, stop, Field.boundOf .greaterOrEqual ['5']⟩ := by
  have found : (Search.grammar.pattern.match? (Cursor.ofText "c>=5".toList)).isSome = true := by
    decide +kernel
  have token : (Search.grammar.tokenAt? (Cursor.ofText "c>=5".toList)).map
      (fun token => (token.field, token.value)) =
      some ("playcount", Field.boundOf .greaterOrEqual ['5']) := by
    decide +kernel
  rcases Option.isSome_iff_exists.mp found with ⟨way, preferred⟩
  rcases (groups_identify_field Search.grammar).2.2.2 _ way (by decide) preferred with
    ⟨field, belongs, _⟩
  rcases belongs.own with ⟨stop, _, _, _, _, _, own⟩
  simp only [own, Option.map_some, Option.some.injEq, Prod.mk.injEq] at token
  refine ⟨way, field, stop, preferred, belongs, ?_⟩
  rw [own, token.1, token.2]

end Grammar

end SearchCommands
