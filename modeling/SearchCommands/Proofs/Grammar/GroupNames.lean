import SearchCommands.Proofs.Grammar.Tokens

/-!
# The names of groups

The pattern of a grammar has a group for every field, which has the name of the field, and groups
for the parts of a field, which have that name with a suffix.  The suffixes start with two
underscores, which no field name contains, and end in different characters.  So the groups of an
accepted declaration have distinct names, and all of them are identifiers.
-/

namespace SearchCommands

open Pattern FieldPattern

namespace Field

/-- ASCII letters, digits and underscores, of which the first is no digit. -/
structure IsIdentifier (name : String) : Prop where
  starts : ∃ first ∈ name.toList.head?, first.isAlpha = true ∨ first = '_'
  consists : ∀ c ∈ name.toList, c.isAlphanum = true ∨ c = '_'

/-- What a field can be called: an identifier without two underscores in a row. -/
structure IsFieldName (name : String) : Prop extends IsIdentifier name where
  noDouble : ¬ ['_', '_'] <:+: name.toList

theorem hasDoubleUnderscore_iff {text : List Char} :
    hasDoubleUnderscore text = true ↔ ['_', '_'] <:+: text := by
  constructor
  · intro double
    induction text with
    | nil => cases double
    | cons c text ih =>
        unfold hasDoubleUnderscore at double
        split at double
        · rename_i rest same
          exact ⟨[], rest, same.symm⟩
        · rename_i same
          rcases List.cons.inj same with ⟨_, rfl⟩
          exact (ih double).trans (List.suffix_cons _ _).isInfix
        · cases double
  · rintro ⟨before, after, rfl⟩
    rw [List.append_assoc]
    exact hasDoubleUnderscore_append before after

theorem isName_iff {name : String} : isName name = true ↔ IsFieldName name := by
  have double : hasDoubleUnderscore name.toList = false ↔ ¬ ['_', '_'] <:+: name.toList := by
    rw [← hasDoubleUnderscore_iff, Bool.not_eq_true]
  unfold isName
  split
  · rename_i empty
    refine ⟨fun impossible => Bool.noConfusion impossible, fun named => ?_⟩
    rcases named.starts with ⟨first, member, _⟩
    simp [empty] at member
  · rename_i first rest shown
    rw [shown] at double
    simp only [Bool.and_eq_true, Bool.or_eq_true, beq_iff_eq, Bool.not_eq_true', double,
      List.all_eq_true]
    constructor
    · rintro ⟨⟨starts, consists⟩, noDouble⟩
      refine ⟨⟨⟨first, by simp [shown], starts⟩, ?_⟩, by rwa [shown]⟩
      rw [shown]
      intro c member
      rcases List.mem_cons.mp member with rfl | member
      · exact starts.imp_left fun letter => by simp [Char.isAlphanum, letter]
      · exact consists c member
    · intro named
      rcases named.starts with ⟨c, member, starts⟩
      rw [shown, List.head?_cons, Option.mem_some_iff] at member
      have consists := named.consists
      have noDouble := named.noDouble
      rw [shown] at consists noDouble
      refine ⟨⟨member ▸ starts, ?_⟩, noDouble⟩
      exact fun c member => consists c (List.mem_cons_of_mem _ member)

end Field

namespace Pattern

theorem groupNames_anyOf (patterns : List Pattern) :
    (anyOf patterns).groupNames = patterns.flatMap groupNames := by
  match patterns with
  | [] => rfl
  | [only] => simp [anyOf]
  | first :: second :: rest =>
      rw [anyOf, groupNames, groupNames_anyOf (second :: rest)]
      rfl

end Pattern

namespace FieldPattern

theorem groupNames_anyAlias (names : List String) : (anyAlias names).groupNames = [] := by
  have each (name : String) : (oneAlias name).groupNames = [] := by
    unfold oneAlias
    split <;> rfl
  simp [anyAlias, groupNames, groupNames_anyOf, List.flatMap_map, each]

theorem groupNames_textValue (quotable : Bool) : (textValue quotable).groupNames = [] := by
  cases quotable <;> rfl

theorem groupNames_numberValue (signed whole : Bool) :
    (numberValue signed whole).groupNames = [] := by
  cases signed <;> cases whole <;> rfl

end FieldPattern

namespace Field

/-- The names of the groups for the parts of a field. -/
def parts (field : Field) : List String :=
  match field.kind with
  | .flag => []
  | .text _ => [textGroup field.name]
  | .number _ _ => [operatorGroup field.name, numberGroup field.name]

/-- The groups of a field are the field and its parts. -/
theorem groupNames_pattern (field : Field) :
    field.pattern.groupNames = field.name :: field.parts := by
  have body : field.body.groupNames = field.parts := by
    unfold body parts
    cases field.kind with
    | flag => simp [groupNames, groupNames_anyAlias, opening]
    | text quotable =>
        cases field.isPositional <;>
          simp [groupNames, groupNames_anyAlias, groupNames_textValue, opening, inOrder]
    | number signed whole =>
        simp [groupNames, groupNames_anyAlias, groupNames_numberValue, opening, inOrder, operators,
          anyOf]
  simp [pattern, groupNames, body, closing]

/-- What follows the name of a field in the name of a part. -/
def partSuffixes : List String := ["__text", "__op", "__value"]

theorem exists_suffix_of_mem_parts {field : Field} {part : String} (member : part ∈ field.parts) :
    ∃ suffix ∈ partSuffixes, part = field.name ++ suffix := by
  unfold parts at member
  cases kind : field.kind with
  | flag => simp [kind] at member
  | text quotable =>
      simp only [kind, List.mem_singleton] at member
      exact ⟨"__text", by decide, member⟩
  | number signed whole =>
      simp only [kind, List.mem_cons, List.not_mem_nil, or_false] at member
      rcases member with rfl | rfl
      · exact ⟨"__op", by decide, rfl⟩
      · exact ⟨"__value", by decide, rfl⟩

theorem nodup_parts (field : Field) : field.parts.Nodup := by
  unfold parts
  cases field.kind with
  | flag => exact List.nodup_nil
  | text quotable => exact List.nodup_singleton _
  | number signed whole => simp [operatorGroup_ne_numberGroup]

/-- The last character tells which part it is, and then the rest is the name of the field. -/
theorem name_eq_of_part_eq {name name' suffix suffix' : String} (member : suffix ∈ partSuffixes)
    (member' : suffix' ∈ partSuffixes) (same : name ++ suffix = name' ++ suffix') :
    name = name' := by
  have nonempty : ∀ one ∈ partSuffixes, one.toList ≠ [] := by decide
  have told : ∀ one ∈ partSuffixes, ∀ other ∈ partSuffixes,
      one.toList.getLast? = other.toList.getLast? → one = other := by decide
  have characters := congrArg String.toList same
  rw [String.toList_append, String.toList_append] at characters
  have lasts := congrArg List.getLast? characters
  rw [List.getLast?_append_of_ne_nil _ (nonempty suffix member),
    List.getLast?_append_of_ne_nil _ (nonempty suffix' member')] at lasts
  rw [told suffix member suffix' member' lasts] at characters
  exact String.toList_inj.mp (List.append_cancel_right characters)

/-- A part is called by an identifier if the field is. -/
theorem IsIdentifier.append {name suffix : String} (named : IsIdentifier name)
    (member : suffix ∈ partSuffixes) : IsIdentifier (name ++ suffix) where
  starts := by
    rcases named.starts with ⟨first, member, starts⟩
    rw [Option.mem_def] at member
    exact ⟨first, by simp [member], starts⟩
  consists := by
    have each : ∀ one ∈ partSuffixes, ∀ c ∈ one.toList, c.isAlphanum = true ∨ c = '_' := by decide
    intro c inside
    rw [String.toList_append, List.mem_append] at inside
    exact inside.elim (named.consists c) (each suffix member c)

end Field

namespace Grammar

variable {grammar : Grammar}

theorem isFieldName {field : Field} (member : field ∈ grammar.fields) :
    Field.IsFieldName field.name :=
  Field.isName_iff.mp (isSound member).isName

theorem name_not_mem_parts {field other : Field} (member : field ∈ grammar.fields) :
    field.name ∉ other.parts := by
  intro part
  rcases Field.exists_suffix_of_mem_parts part with ⟨suffix, inside, same⟩
  have double : ∀ one ∈ Field.partSuffixes, ['_', '_'] <:+: one.toList := by decide
  apply (isFieldName member).noDouble
  rw [same, String.toList_append]
  exact (double suffix inside).trans (List.suffix_append _ _).isInfix

theorem groupNames_eq (grammar : Grammar) : grammar.pattern.groupNames =
    (tried grammar.fields).flatMap fun field => field.name :: field.parts := by
  rw [pattern, groupNames_anyOf, List.flatMap_map]
  exact List.flatMap_congr fun field _ => field.groupNames_pattern

/-- The fields are tried each once. -/
theorem tried_perm (fields : List Field) : (tried fields).Perm fields :=
  List.perm_append_comm.trans (List.filter_append_perm Field.isPositional fields)

/-- No two groups in the pattern of a grammar have the same name. -/
theorem nodup_groupNames (grammar : Grammar) : grammar.pattern.groupNames.Nodup := by
  rw [groupNames_eq, ((tried_perm grammar.fields).flatMap_right _).nodup_iff, List.nodup_flatMap]
  constructor
  · intro field member
    exact List.nodup_cons.mpr ⟨name_not_mem_parts member, field.nodup_parts⟩
  · have apart := List.pairwise_map.mp grammar.names_nodup
    refine apart.imp_of_mem ?_
    intro field other member otherMember different name inside inside'
    rcases List.mem_cons.mp inside with rfl | part
    · rcases List.mem_cons.mp inside' with same | part'
      · exact different same
      · exact name_not_mem_parts member part'
    · rcases List.mem_cons.mp inside' with rfl | part'
      · exact name_not_mem_parts otherMember part
      · rcases Field.exists_suffix_of_mem_parts part with ⟨suffix, suffixMember, rfl⟩
        rcases Field.exists_suffix_of_mem_parts part' with ⟨suffix', suffixMember', same⟩
        exact different (Field.name_eq_of_part_eq suffixMember suffixMember' same)

/-- All groups in the pattern of a grammar are called by identifiers. -/
theorem isIdentifier_of_mem_groupNames {name : String}
    (member : name ∈ grammar.pattern.groupNames) : Field.IsIdentifier name := by
  rw [groupNames_eq, List.mem_flatMap] at member
  rcases member with ⟨field, tried, inside⟩
  have named := (isFieldName (mem_tried_iff.mp tried)).toIsIdentifier
  rcases List.mem_cons.mp inside with rfl | part
  · exact named
  · rcases Field.exists_suffix_of_mem_parts part with ⟨suffix, suffixMember, rfl⟩
    exact named.append suffixMember

end Grammar

end SearchCommands
