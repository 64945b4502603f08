import Mathlib.Data.List.Nodup
import SearchCommands.Grammar.Scan
import SearchCommands.Proofs.Field.Occurrence

/-!
# The token at a place

An accepted declaration has proper fields with distinct names, none of which is the name of a part
of a field.  So the way that the pattern of a grammar prefers is an occurrence of the one field
whose group it captured.  The main statements characterise `Grammar.tokenAt?` by the occurrences of
the fields: it finds one of them, and it finds none only if there is none.
-/

namespace SearchCommands

open Text Pattern FieldPattern

namespace Field

theorem hasDoubleUnderscore_append (text rest : List Char) :
    hasDoubleUnderscore (text ++ '_' :: '_' :: rest) = true := by
  induction text with
  | nil => rfl
  | cons c text ih =>
      rw [List.cons_append]
      unfold hasDoubleUnderscore
      split
      · rfl
      · rename_i same
        simp only [List.cons.injEq] at same
        rw [← same.2]
        exact ih
      · rename_i same
        cases same

/-- A list of checks finds no mistake if none of the checks does. -/
theorem check_eq_none_iff {α : Type} {mistaken : Bool} {mistake : α} {rest : Option α} :
    (if mistaken then some mistake else rest) = none ↔ mistaken = false ∧ rest = none := by
  cases mistaken <;> simp

/-- What a declaration with the given fields asks of a field, other than a name of its own. -/
structure IsSound (field : Field) (all : List Field) : Prop where
  isName : isName field.name = true
  proper : field.IsProper
  known : ∀ rule ∈ field.rules, ∀ name ∈ rule.references, ∃ other ∈ all, other.name = name

theorem positionalText_iff {field : Field} :
    (field.isPositional && !(field.kind matches .text _)) = false ↔
      (field.isPositional = true → ∃ quotable, field.kind = .text quotable) := by
  have isText : (∃ quotable, field.kind = .text quotable) ↔
      (field.kind matches .text _) = true := by
    cases field.kind <;> simp
  rw [Bool.and_eq_false_imp, Bool.not_eq_false', ← isText]

theorem isProper_iff {field : Field} :
    field.IsProper ↔
      (field.isPositional && !(field.kind matches .text _)) = false ∧
        (field.aliases.find? fun name => !isAlias name) = none := by
  have aliases : (field.aliases.find? fun name => !isAlias name) = none ↔
      ∀ name ∈ field.aliases, isAlias name = true := by simp
  rw [aliases, positionalText_iff]
  exact ⟨fun proper => ⟨proper.positionalText, proper.aliasProper⟩,
    fun ⟨positionalText, aliasProper⟩ => ⟨aliasProper, positionalText⟩⟩

theorem fault?_eq_none_iff {all earlier : List Field} {field : Field} :
    field.fault? all earlier = none ↔
      field.IsSound all ∧ ∀ other ∈ earlier, other.name ≠ field.name := by
  have fresh : (earlier.any fun other => other.name == field.name) = false ↔
      ∀ other ∈ earlier, other.name ≠ field.name := by simp
  have known : ((field.rules.flatMap Rule.references).find? fun name =>
        !all.any fun other => other.name == name).map
          (DeclarationError.unknownField .validationRule) = none ↔
      ∀ rule ∈ field.rules, ∀ name ∈ rule.references, ∃ other ∈ all, other.name = name := by
    simp only [Option.map_eq_none_iff, List.find?_eq_none, List.mem_flatMap, forall_exists_index,
      and_imp, Bool.not_eq_true, Bool.not_eq_false', List.any_eq_true, beq_iff_eq]
    exact forall_comm.trans (forall_congr' fun rule => forall_comm)
  unfold fault?
  rw [check_eq_none_iff, check_eq_none_iff, check_eq_none_iff, Bool.not_eq_false', fresh]
  constructor
  · rintro ⟨nameValid, fresh, present, aliases⟩
    split at aliases
    · cases aliases
    · rename_i noInvalid
      exact ⟨⟨nameValid, isProper_iff.mpr ⟨present, noInvalid⟩, known.mp aliases⟩, fresh⟩
  · rintro ⟨sound, fresh⟩
    obtain ⟨present, noInvalid⟩ := isProper_iff.mp sound.proper
    refine ⟨sound.isName, fresh, present, ?_⟩
    rw [noInvalid]
    exact known.mpr sound.known

theorem faultAfter?_eq_none_iff {all earlier fields : List Field} :
    faultAfter? all earlier fields = none ↔
      (∀ field ∈ fields, field.IsSound all ∧ ∀ other ∈ earlier, other.name ≠ field.name) ∧
        (fields.map Field.name).Nodup := by
  induction fields generalizing earlier with
  | nil => simp [faultAfter?]
  | cons field rest ih =>
      have split (other : Field) : (∀ first ∈ earlier ++ [field], first.name ≠ other.name) ↔
          (∀ first ∈ earlier, first.name ≠ other.name) ∧ field.name ≠ other.name := by
        simp only [List.mem_append, List.mem_singleton, or_imp, forall_and, forall_eq]
      have absent : field.name ∉ rest.map Field.name ↔
          ∀ other ∈ rest, field.name ≠ other.name := by
        simp [eq_comm]
      rw [faultAfter?, Option.or_eq_none_iff, ih, fault?_eq_none_iff, List.map_cons,
        List.nodup_cons, List.forall_mem_cons, absent]
      simp only [split]
      constructor
      · rintro ⟨first, each, distinct⟩
        exact ⟨⟨first, fun other member => ⟨(each other member).1, (each other member).2.1⟩⟩,
          fun other member => (each other member).2.2, distinct⟩
      · rintro ⟨⟨first, each⟩, apart, distinct⟩
        exact ⟨first, fun other member => ⟨(each other member).1, (each other member).2,
          apart other member⟩, distinct⟩

/-- There is no mistake in a declaration exactly if its fields are sound and have distinct names. -/
theorem firstFault?_eq_none_iff {fields : List Field} :
    firstFault? fields = none ↔
      (∀ field ∈ fields, field.IsSound fields) ∧ (fields.map Field.name).Nodup := by
  simp [firstFault?, faultAfter?_eq_none_iff]

end Field

namespace Grammar

variable {grammar : Grammar}

theorem isSound {field : Field} (member : field ∈ grammar.fields) :
    field.IsSound grammar.fields :=
  (Field.firstFault?_eq_none_iff.mp grammar.accepted).1 field member

theorem isProper {field : Field} (member : field ∈ grammar.fields) : field.IsProper :=
  (isSound member).proper

theorem names_nodup (grammar : Grammar) : (grammar.fields.map Field.name).Nodup :=
  (Field.firstFault?_eq_none_iff.mp grammar.accepted).2

/-- Sound fields with distinct names are the fields of a grammar. -/
theorem exists_ofFields {fields : List Field} (sound : ∀ field ∈ fields, field.IsSound fields)
    (distinct : (fields.map Field.name).Nodup) :
    ∃ grammar, ofFields fields = .ok grammar ∧ grammar.fields = fields := by
  have accepted := Field.firstFault?_eq_none_iff.mpr ⟨sound, distinct⟩
  refine ⟨⟨fields, accepted⟩, ?_, rfl⟩
  unfold ofFields
  split
  · rfl
  · rename_i fault mistaken
    rw [accepted] at mistaken
    cases mistaken

/-- A field is known by its name. -/
theorem field_eq_of_name {first second : Field} (firstMember : first ∈ grammar.fields)
    (secondMember : second ∈ grammar.fields) (same : first.name = second.name) :
    first = second :=
  List.inj_on_of_nodup_map grammar.names_nodup firstMember secondMember same

/-- No field is named like a part of a field. -/
theorem name_not_mem_partNames {field other : Field} (member : field ∈ grammar.fields) :
    field.name ∉ other.partNames := by
  have valid := (isSound member).isName
  unfold Field.isName at valid
  split at valid
  · exact fun _ => Bool.noConfusion valid
  · rename_i first rest split
    rw [← split] at valid
    simp only [Bool.and_eq_true, Bool.not_eq_true'] at valid
    have single := valid.2
    intro part
    have double : Field.hasDoubleUnderscore field.name.toList = true := by
      simp only [Field.partNames, List.mem_cons, List.not_mem_nil, or_false] at part
      rcases part with same | same | same
      · rw [same, Field.textGroup, String.toList_append]
        exact Field.hasDoubleUnderscore_append _ _
      · rw [same, Field.operatorGroup, String.toList_append]
        exact Field.hasDoubleUnderscore_append _ _
      · rw [same, Field.numberGroup, String.toList_append]
        exact Field.hasDoubleUnderscore_append _ _
    rw [double] at single
    exact Bool.noConfusion single

theorem mem_tried_iff {fields : List Field} {field : Field} :
    field ∈ tried fields ↔ field ∈ fields := by
  simp only [tried, List.mem_append, List.mem_filter]
  cases field.isPositional <;> simp

theorem group?_of_groups {field other : Field} (otherMember : other ∈ grammar.fields) {way : Way}
    {cursor stop : Cursor} {parts : List Group}
    (groups : way.groups = ⟨field.name, cursor, stop⟩ :: parts)
    (partNames : ∀ group ∈ parts, group.name ∈ field.partNames) :
    way.group? other.name =
      if other.name = field.name then some ⟨field.name, cursor, stop⟩ else none := by
  rw [Way.group?, groups, List.find?_cons]
  by_cases same : other.name = field.name
  · simp [same]
  · have different : (field.name == other.name) = false := by simpa using Ne.symm same
    simp only [different, if_neg same]
    apply List.find?_eq_none.mpr
    intro group member equal
    have name := partNames group member
    rw [beq_iff_eq.mp equal] at name
    exact name_not_mem_partNames otherMember name

/-- The occurrence in a match is that of the field whose pattern matched. -/
theorem occurrence?_eq {field : Field} (member : field ∈ grammar.fields) {way : Way}
    {cursor stop : Cursor} {parts : List Group}
    (groups : way.groups = ⟨field.name, cursor, stop⟩ :: parts)
    (partNames : ∀ group ∈ parts, group.name ∈ field.partNames) :
    grammar.occurrence? way = some (field, ⟨field.name, cursor, stop⟩) := by
  have distinct := grammar.names_nodup
  unfold occurrence?
  have each : ∀ other ∈ grammar.fields, ((way.group? other.name).map fun group => (other, group)) =
      if other.name = field.name then some (other, ⟨field.name, cursor, stop⟩) else none := by
    intro other otherMember
    rw [group?_of_groups otherMember groups partNames]
    split <;> rfl
  rcases List.append_of_mem member with ⟨first, rest, split⟩
  have firstNone : first.findSome?
      (fun other => (way.group? other.name).map fun group => (other, group)) = none := by
    apply List.findSome?_eq_none_iff.mpr
    intro other otherMember
    have inside : other ∈ grammar.fields := by simp [split, otherMember]
    rw [each other inside, if_neg]
    intro same
    rw [split, List.map_append, List.nodup_append] at distinct
    exact distinct.2.2 other.name (List.mem_map_of_mem otherMember) field.name (by simp) same
  rw [split, List.findSome?_append, firstNone, Option.none_or, List.findSome?_cons,
    each field member, if_pos rfl]

theorem pattern_ne_empty (member : ∃ field, field ∈ grammar.fields) :
    (tried grammar.fields).map Field.pattern ≠ [] := by
  rcases member with ⟨field, member⟩
  intro empty
  have inside : field.pattern ∈ (tried grammar.fields).map Field.pattern :=
    List.mem_map_of_mem (mem_tried_iff.mpr member)
  rw [empty] at inside
  exact List.not_mem_nil inside

/-- The ways of the pattern of a grammar are those of its fields. -/
theorem mem_ways_pattern (member : ∃ field, field ∈ grammar.fields) {cursor : Cursor} {way : Way} :
    way ∈ grammar.pattern.ways false cursor ↔
      ∃ field ∈ grammar.fields, way ∈ field.pattern.ways false cursor := by
  rw [pattern, mem_ways_anyOf (pattern_ne_empty member)]
  simp only [List.mem_map, mem_tried_iff]
  constructor
  · rintro ⟨_, ⟨field, inside, rfl⟩, wayMember⟩
    exact ⟨field, inside, wayMember⟩
  · rintro ⟨field, inside, wayMember⟩
    exact ⟨_, ⟨field, inside, rfl⟩, wayMember⟩

theorem tokenAt?_of_match? {field : Field} (member : field ∈ grammar.fields) {cursor : Cursor}
    {way : Way} (preferred : grammar.pattern.match? cursor = some way)
    (wayMember : way ∈ field.pattern.ways false cursor) :
    ∃ stop, grammar.tokenAt? cursor = some ⟨field.name, cursor, stop, field.valueOf way⟩ ∧
      field.OccursAt cursor stop (field.valueOf way) := by
  rcases Field.occursAt_of_mem_ways (isProper member) wayMember with
    ⟨stop, parts, groups, partNames, occurs⟩
  refine ⟨stop, ?_, occurs⟩
  simp only [tokenAt?, preferred, Option.bind_some, occurrence?_eq member groups partNames,
    Option.map_some]

/-- Without fields there is no token. -/
theorem tokenAt?_of_no_field (none : ∀ field, field ∉ grammar.fields) (cursor : Cursor) :
    grammar.tokenAt? cursor = .none := by
  have fields : grammar.fields = [] := List.eq_nil_iff_forall_not_mem.mpr none
  have noOccurrence (way : Way) : grammar.occurrence? way = .none := by
    simp [occurrence?, fields]
  unfold tokenAt?
  cases grammar.pattern.match? cursor with
  | none => rfl
  | some way => simp [noOccurrence]

/-- A token is an occurrence of a declared field at the place where it was looked for. -/
theorem tokenAt?_eq_some {cursor : Cursor} {token : Token}
    (found : grammar.tokenAt? cursor = some token) :
    ∃ field ∈ grammar.fields, token.field = field.name ∧ token.start = cursor ∧
      field.OccursAt cursor token.stop token.value := by
  by_cases any : ∃ field, field ∈ grammar.fields
  · cases preferred : grammar.pattern.match? cursor with
    | none => simp [tokenAt?, preferred] at found
    | some way =>
        rcases (mem_ways_pattern any).mp (List.mem_of_mem_head? preferred) with
          ⟨field, member, wayMember⟩
        rcases tokenAt?_of_match? member preferred wayMember with ⟨stop, token', occurs⟩
        rw [token', Option.some.injEq] at found
        subst found
        exact ⟨field, member, rfl, rfl, occurs⟩
  · rw [tokenAt?_of_no_field (by simpa using any)] at found
    cases found

/-- There is no token exactly where no declared field occurs. -/
theorem tokenAt?_eq_none_iff {cursor : Cursor} :
    grammar.tokenAt? cursor = none ↔
      ∀ field ∈ grammar.fields, ∀ stop value, ¬ field.OccursAt cursor stop value := by
  constructor
  · intro nothing field member stop value occurs
    rcases Field.exists_mem_ways_of_occursAt (isProper member) occurs with ⟨way, wayMember⟩
    have inPattern := (mem_ways_pattern ⟨field, member⟩).mpr ⟨field, member, wayMember⟩
    cases preferred : grammar.pattern.match? cursor with
    | none =>
        rw [match?, List.head?_eq_none_iff] at preferred
        rw [preferred] at inPattern
        exact List.not_mem_nil inPattern
    | some first =>
        rcases (mem_ways_pattern ⟨field, member⟩).mp (List.mem_of_mem_head? preferred) with
          ⟨other, otherMember, firstMember⟩
        rcases tokenAt?_of_match? otherMember preferred firstMember with ⟨_, token, _⟩
        rw [token] at nothing
        cases nothing
  · intro nowhere
    cases found : grammar.tokenAt? cursor with
    | none => rfl
    | some token =>
        rcases tokenAt?_eq_some found with ⟨field, member, _, _, occurs⟩
        exact absurd occurs (nowhere field member _ _)

/-- Where a single field occurs in a single manner, that is the token. -/
theorem tokenAt?_of_unique {field : Field} (member : field ∈ grammar.fields)
    {cursor stop : Cursor} {value : FieldValue} (occurs : field.OccursAt cursor stop value)
    (unique : ∀ other ∈ grammar.fields, ∀ stop' value', other.OccursAt cursor stop' value' →
      other = field ∧ stop' = stop ∧ value' = value) :
    grammar.tokenAt? cursor = some ⟨field.name, cursor, stop, value⟩ := by
  cases found : grammar.tokenAt? cursor with
  | none => exact absurd occurs (tokenAt?_eq_none_iff.mp found field member stop value)
  | some token =>
      rcases tokenAt?_eq_some found with ⟨other, otherMember, name, start, otherOccurs⟩
      rcases unique other otherMember _ _ otherOccurs with ⟨rfl, stopEq, valueEq⟩
      rcases token with ⟨tokenField, tokenStart, tokenStop, tokenValue⟩
      simp only at name start stopEq valueEq
      subst name start stopEq valueEq
      rfl

end Grammar

end SearchCommands
