import SearchCommands.Proofs.Grammar.Joining

/-!
# One field at a time

In an unambiguous grammar of flags and numbers the fields do not compete.  A scan for one of the
fields passes over the words that the others take, blanks included, and finds its own where the scan
for all of them does (`Grammar.Scans.filter_own`, by induction on that scan).  So the captures of a
field are those of a grammar that declares nothing else.
-/

namespace SearchCommands

open Text

/-- The same declaration guarded by other rules. -/
def Field.withRules (field : Field) (rules : List Rule) : Field := { field with rules := rules }

/-- What a field finds does not depend on its rules. -/
theorem Field.tokenAt?_withRules (field : Field) (rules : List Rule) (cursor : Cursor) :
    (field.withRules rules).tokenAt? cursor = field.tokenAt? cursor := rfl

namespace Grammar

variable {grammar lone : Grammar} {field : Field} {rules : List Rule}

/-- A grammar with a single field has the tokens of the field. -/
theorem tokenAt?_of_lone (alone : lone.fields = [field.withRules rules]) (cursor : Cursor) :
    lone.tokenAt? cursor = field.tokenAt? cursor := by
  have tried : tried [field.withRules rules] = [field.withRules rules] := by
    unfold tried
    cases positional : (field.withRules rules).isPositional <;> simp [positional]
  rw [tokenAt?_eq_findSome?, alone, tried, List.findSome?_singleton, Field.tokenAt?_withRules]

/-- A token is that of one of the fields by itself. -/
theorem exists_field_of_tokenAt? {cursor : Cursor} {token : Token}
    (found : grammar.tokenAt? cursor = some token) :
    ∃ field ∈ grammar.fields, token.field = field.name ∧ field.tokenAt? cursor = some token := by
  rw [tokenAt?_eq_findSome?] at found
  rcases List.exists_of_findSome?_eq_some found with ⟨field, tried, found⟩
  have member := mem_tried_iff.mp tried
  exact ⟨field, member, (Field.tokenAt?_eq_some (isProper member) found).1, found⟩

/-- A scan passes over a word that is an occurrence of a field of another grammar, if it finds
nothing before the blanks of the word. -/
theorem Scans.pass_occurrence {cursor stop : Cursor} {value : FieldValue} {tokens : List Token}
    (proper : field.IsProper) (noText : ∀ quotable, field.kind ≠ .text quotable)
    (occurs : field.OccursAt cursor stop value)
    (nothing : grammar.tokenAt? cursor = none ∨ cursor.insideQuotes = true)
    (scans : grammar.Scans stop tokens) : grammar.Scans cursor tokens := by
  rcases cursor with ⟨before, after⟩
  rcases occurs with ⟨blanks, word, rest, rfl, blank, spells, _, _, rfl⟩
  exact Scans.pass_word blank (spells.ne_nil proper) (spells.noBlank proper noText) nothing scans

/-- A scan for one of the fields takes the tokens of this field that a scan for all fields takes. -/
theorem Scans.filter_own
    (noText : ∀ other ∈ grammar.fields, ∀ quotable, other.kind ≠ .text quotable)
    (unambiguous : grammar.IsUnambiguous) (member : field ∈ grammar.fields)
    (alone : lone.fields = [field.withRules rules]) {cursor : Cursor} {tokens : List Token}
    (scans : grammar.Scans cursor tokens) :
    lone.Scans cursor (tokens.filter fun token => token.field == field.name) := by
  have aliased {other : Field} (otherMember : other ∈ grammar.fields) :
      other.isPositional = false :=
    (isProper otherMember).isPositional_eq_false (noText other otherMember)
  induction scans with
  | done before => exact .done before
  | @pass before after c tokens nothing _ ih =>
      refine .pass (nothing.imp_left fun none => ?_) ih
      rw [tokenAt?_eq_findSome?, List.findSome?_eq_none_iff] at none
      rw [tokenAt?_of_lone alone]
      exact none field (mem_tried_iff.mpr member)
  | @take cursor token tokens found outside _ ih =>
      rcases exists_field_of_tokenAt? found with ⟨other, otherMember, name, otherFound⟩
      by_cases same : other = field
      · subst same
        rw [List.filter_cons_of_pos (by simp [name])]
        exact .take (by rw [tokenAt?_of_lone alone, otherFound]) outside ih
      · -- the word of the other field is none of this one
        have different : token.field ≠ field.name := fun own =>
          same (field_eq_of_name otherMember member (name.symm.trans own))
        have nothing : field.tokenAt? cursor = none := by
          rw [Option.eq_none_iff_forall_ne_some]
          intro own ownFound
          exact same (unambiguous.field_eq_of_tokenAt? otherMember member (aliased otherMember)
            (aliased member) otherFound ownFound)
        rw [List.filter_cons_of_neg (by simpa using different)]
        rcases Field.tokenAt?_eq_some (isProper otherMember) otherFound with ⟨_, _, occurs⟩
        exact Scans.pass_occurrence (isProper otherMember) (noText other otherMember) occurs
          (Or.inl (by rw [tokenAt?_of_lone alone, nothing])) ih

/-- A field that is declared among others can be declared alone, without its rules. -/
theorem exists_ofFields_alone (member : field ∈ grammar.fields) :
    ∃ lone, Grammar.ofFields [field.withRules []] = .ok lone ∧
      lone.fields = [field.withRules []] := by
  have sound := isSound member
  apply exists_ofFields
  · intro other only
    rw [List.mem_singleton.mp only]
    exact ⟨sound.isName, ⟨sound.proper.aliasProper, sound.proper.positionalText⟩,
      by simp [Field.withRules]⟩
  · exact List.nodup_singleton _

/-- In a grammar of flags and numbers no two of which share an alias, each field has the captures
that it has in a grammar of its own, with the same spans and values and in the same order. -/
theorem captures_separate
    (noText : ∀ field ∈ grammar.fields, ∀ quotable, field.kind ≠ .text quotable)
    (unambiguous : grammar.IsUnambiguous) :
    ∀ field ∈ grammar.fields,
      (∃ lone, Grammar.ofFields [field.withRules []] = .ok lone ∧
        lone.fields = [field.withRules []]) ∧
      ∀ (lone : Grammar) (rules : List Rule), lone.fields = [field.withRules rules] →
        ∀ input, lone.captures input =
          (grammar.captures input).filter fun capture => capture.field == field.name := by
  intro field member
  refine ⟨exists_ofFields_alone member, ?_⟩
  intro lone rules alone input
  have scans := Scans.filter_own noText unambiguous member alone (grammar.scans_tokens input)
  rw [captures, tokens_eq_iff.mpr scans, captures, List.filter_map]
  rfl

/-- The approach rate is captured in `ar>9 bpm<200 "cs>3" ar<10` as if nothing else was declared. -/
theorem captures_separate_approachRate :
    let field := Beatmap.Measure.approachRate.declaration
    let input := "ar>9 bpm<200 \"cs>3\" ar<10"
    field ∈ Beatmap.Criteria.grammar.fields ∧
      ∃ lone, Grammar.ofFields [field.withRules []] = .ok lone ∧ lone.captures input =
        [⟨"approach_rate", 0, 4, .comparison (.single ⟨.greater, "9"⟩)⟩,
          ⟨"approach_rate", 19, 25, .comparison (.single ⟨.less, "10"⟩)⟩] := by
  intro field input
  have member : field ∈ Beatmap.Criteria.grammar.fields :=
    Beatmap.Criteria.declaration_mem .approachRate
  rcases captures_separate Beatmap.Criteria.isWordwise.noText
      Beatmap.Criteria.isPlain.isUnambiguous field member with
    ⟨⟨lone, declared, alone⟩, same⟩
  refine ⟨member, lone, declared, ?_⟩
  rw [same lone [] alone input]
  decide +kernel

end Grammar

end SearchCommands
