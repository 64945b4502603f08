import SearchCommands.Proofs.Command.Rebinding
import SearchCommands.Proofs.Grammar.GroupNames

/-!
# Declarations of commands

A declaration is subject to provisos, each of which comes with the mistake that it is not to meet
it.  First come those of the fields, one field after the other, then those of the setters.  A
command is declared exactly if all of them are met, and otherwise the mistake is that of the first
one that is not.  The pattern of a declared command has groups with distinct identifiers for names,
so that an engine for regular expressions has nothing against them.
-/

namespace SearchCommands

/-- Something that is asked of a declaration, and the mistake of a declaration that does not meet
it. -/
structure Proviso where
  met : Prop
  mistake : DeclarationError

namespace Proviso

/-- The mistake is that of the first proviso which is not met. -/
def IsFirstUnmet (provisos : List Proviso) (mistake : DeclarationError) : Prop :=
  ∃ before proviso after, provisos = before ++ proviso :: after ∧
    (∀ earlier ∈ before, earlier.met) ∧ ¬ proviso.met ∧ proviso.mistake = mistake

/-- What checking provisos one after the other finds: the mistake of the first one that is not met,
if there is such a proviso. -/
inductive Checked : List Proviso → Option DeclarationError → Prop
  | done : Checked [] none
  | mistaken {proviso : Proviso} {rest : List Proviso} (unmet : ¬ proviso.met) :
      Checked (proviso :: rest) (some proviso.mistake)
  | next {proviso : Proviso} {rest : List Proviso} {found : Option DeclarationError}
      (met : proviso.met) (checked : Checked rest found) : Checked (proviso :: rest) found

namespace Checked

variable {provisos rest : List Proviso} {found : Option DeclarationError}

theorem isFirstUnmet {mistake : DeclarationError} (checked : Checked provisos (some mistake)) :
    IsFirstUnmet provisos mistake := by
  generalize foundEq : some mistake = found at checked
  induction checked with
  | done => cases foundEq
  | mistaken unmet =>
      exact ⟨[], _, _, rfl, by simp, unmet, (Option.some.inj foundEq).symm⟩
  | next met checked ih =>
      rcases ih foundEq with ⟨before, proviso, after, rfl, earlier, unmet, same⟩
      exact ⟨_ :: before, proviso, after, rfl, List.forall_mem_cons.mpr ⟨met, earlier⟩, unmet, same⟩

/-- The provisos decide what is found. -/
theorem eq_some_iff {mistake : DeclarationError} (checked : Checked provisos found) :
    found = some mistake ↔ IsFirstUnmet provisos mistake := by
  constructor
  · rintro rfl
    exact checked.isFirstUnmet
  · rintro ⟨before, proviso, after, rfl, earlier, unmet, rfl⟩
    induction before generalizing found with
    | nil =>
        cases checked with
        | mistaken _ => rfl
        | next met _ => exact absurd met unmet
    | cons first before ih =>
        rcases List.forall_mem_cons.mp earlier with ⟨firstMet, earlier⟩
        cases checked with
        | mistaken unmet' => exact absurd firstMet unmet'
        | next _ checked => exact ih checked earlier

theorem append {left right : List Proviso} {found found' : Option DeclarationError}
    (checked : Checked left found) (checked' : Checked right found') :
    Checked (left ++ right) (found.or found') := by
  induction checked with
  | done => exact checked'
  | mistaken unmet => exact .mistaken unmet
  | next met _ ih => exact .next met ih

/-- What comes behind a mistake is not checked. -/
theorem append_of_mistaken {left : List Proviso} {mistake : DeclarationError}
    (checked : Checked left (some mistake)) (right : List Proviso) :
    Checked (left ++ right) (some mistake) := by
  generalize foundEq : some mistake = found at checked ⊢
  induction checked with
  | done => cases foundEq
  | mistaken unmet => exact .mistaken unmet
  | next met _ ih => exact .next met (ih foundEq)

/-- One check before the others. -/
theorem check (mistake : DeclarationError) {met : Prop} {mistaken : Bool}
    (means : mistaken = false ↔ met) (checked : Checked rest found) :
    Checked (⟨met, mistake⟩ :: rest) (if mistaken then some mistake else found) := by
  cases mistaken with
  | false => exact .next (means.mp rfl) checked
  | true =>
      refine .mistaken fun isMet => ?_
      cases means.mpr isMet

/-- The same check for each of some names. -/
theorem checkEach (mistake : String → DeclarationError) {met : String → Prop}
    {mistaken : String → Bool} (means : ∀ name, mistaken name = false ↔ met name)
    (names : List String) :
    Checked (names.map fun name => ⟨met name, mistake name⟩)
      ((names.find? mistaken).map mistake) := by
  induction names with
  | nil => exact .done
  | cons name names ih =>
      cases verdict : mistaken name with
      | false =>
          rw [List.find?_cons_of_neg (by simp [verdict])]
          exact .next ((means name).mp verdict) ih
      | true =>
          rw [List.find?_cons_of_pos verdict]
          refine .mistaken fun met => ?_
          cases verdict.symm.trans ((means name).mpr met)

end Checked

end Proviso

namespace Field

/-- What a declaration asks of a field, given the names of all fields and of those before it. -/
def provisos (declared earlier : List String) (field : Field) : List Proviso :=
  [⟨IsFieldName field.name, .invalidFieldName field.name⟩,
    ⟨field.name ∉ earlier, .duplicateField field.name⟩,
    ⟨field.aliases = [] → ∃ quotable, field.kind = .text quotable, .missingAlias field.name⟩] ++
  (field.aliases.map fun name =>
    ⟨name ≠ "" ∧ Text.NoBlank name.toList, .invalidAlias name field.name⟩) ++
  (field.rules.flatMap Rule.references).map fun name =>
    ⟨name ∈ declared, .unknownField .validationRule name⟩

/-- What a declaration asks of all its fields, one after the other. -/
def allProvisos (fields : List Field) : List Proviso :=
  fields.zipIdx.flatMap fun (field, place) =>
    field.provisos (fields.map Field.name) ((fields.take place).map Field.name)

theorem isAlias_iff {name : String} :
    isAlias name = true ↔ name ≠ "" ∧ Text.NoBlank name.toList := by
  simp [isAlias, Text.NoBlank]

theorem checked_fault? (all earlier : List Field) (field : Field) :
    Proviso.Checked (field.provisos (all.map Field.name) (earlier.map Field.name))
      (field.fault? all earlier) := by
  have named : (!isName field.name) = false ↔ IsFieldName field.name := by
    rw [Bool.not_eq_false', isName_iff]
  have fresh : (earlier.any fun other => other.name == field.name) = false ↔
      field.name ∉ earlier.map Field.name := by
    simp
  have introduced := @positionalText_iff field
  rw [isPositional, List.isEmpty_iff] at introduced
  have aliases : ∀ name, (!isAlias name) = false ↔ name ≠ "" ∧ Text.NoBlank name.toList := by
    intro name
    rw [Bool.not_eq_false', isAlias_iff]
  have known : ∀ name, (!all.any fun other => other.name == name) = false ↔
      name ∈ all.map Field.name := by
    simp
  have aliasesChecked := Proviso.Checked.checkEach (.invalidAlias · field.name) aliases
    field.aliases
  have knownChecked := Proviso.Checked.checkEach (.unknownField .validationRule) known
    (field.rules.flatMap Rule.references)
  have checked := Proviso.Checked.check (.invalidFieldName field.name) named
    (.check (.duplicateField field.name) fresh
      (.check (.missingAlias field.name) introduced (aliasesChecked.append knownChecked)))
  unfold fault?
  cases invalid : field.aliases.find? fun name => !isAlias name with
  | none =>
      rw [invalid] at checked
      exact checked
  | some name =>
      rw [invalid] at checked
      exact checked

theorem checked_faultAfter? (earlier fields : List Field) :
    Proviso.Checked ((fields.zipIdx earlier.length).flatMap fun (field, place) =>
        field.provisos ((earlier ++ fields).map Field.name)
          (((earlier ++ fields).take place).map Field.name))
      (faultAfter? (earlier ++ fields) earlier fields) := by
  induction fields generalizing earlier with
  | nil => exact .done
  | cons field fields ih =>
      have first := checked_fault? (earlier ++ field :: fields) earlier field
      have others := ih (earlier ++ [field])
      rw [List.append_assoc, List.length_append] at others
      simp only [List.zipIdx_cons, List.flatMap_cons, faultAfter?, List.take_left]
      exact first.append others

/-- Checking a declaration field by field finds the first proviso that is not met. -/
theorem checked_firstFault? (fields : List Field) :
    Proviso.Checked (allProvisos fields) (firstFault? fields) :=
  checked_faultAfter? [] fields

end Field

namespace Setter

variable {σ : Type}

/-- What a declaration asks of all setters, one after the other: each is for a field, and none
before it is for the same one. -/
def allProvisos (declared names : List String) : List Proviso :=
  names.zipIdx.flatMap fun (name, place) =>
    [⟨name ∈ declared, .unknownField .setter name⟩,
      ⟨name ∉ names.take place, .duplicateSetter name⟩]

theorem isNone_field?_iff {grammar : Grammar} {name : String} :
    (grammar.field? name).isNone = false ↔ name ∈ grammar.fields.map Field.name := by
  simp [Grammar.field?]

theorem checked_faultAfter? (grammar : Grammar) (earlier : List String)
    (setters : List (Setter σ)) :
    Proviso.Checked (((setters.map Setter.field).zipIdx earlier.length).flatMap fun (name, place) =>
        [⟨name ∈ grammar.fields.map Field.name, .unknownField .setter name⟩,
          ⟨name ∉ (earlier ++ setters.map Setter.field).take place, .duplicateSetter name⟩])
      (faultAfter? grammar earlier setters) := by
  induction setters generalizing earlier with
  | nil => exact .done
  | cons setter setters ih =>
      have fresh : earlier.contains setter.field = false ↔ setter.field ∉ earlier := by simp
      have others := ih (earlier ++ [setter.field])
      rw [List.append_assoc, List.length_append] at others
      simp only [List.map_cons, List.zipIdx_cons, List.flatMap_cons, faultAfter?, List.take_left]
      exact .check _ isNone_field?_iff (.check _ fresh others)

theorem checked_firstFault? (grammar : Grammar) (setters : List (Setter σ)) :
    Proviso.Checked (allProvisos (grammar.fields.map Field.name) (setters.map Setter.field))
      (firstFault? grammar setters) :=
  checked_faultAfter? grammar [] setters

end Setter

/-- Fields as a declaration asks for them. -/
structure Field.AreDeclarable (fields : List Field) : Prop where
  named : ∀ field ∈ fields, IsFieldName field.name
  distinct : (fields.map Field.name).Nodup
  introduced : ∀ field ∈ fields, field.aliases = [] → ∃ quotable, field.kind = .text quotable
  aliases : ∀ field ∈ fields, ∀ name ∈ field.aliases, name ≠ "" ∧ Text.NoBlank name.toList
  known : ∀ field ∈ fields, ∀ rule ∈ field.rules, ∀ name ∈ rule.references,
    name ∈ fields.map Field.name

theorem Field.firstFault?_eq_none_iff_areDeclarable {fields : List Field} :
    firstFault? fields = none ↔ AreDeclarable fields := by
  rw [firstFault?_eq_none_iff]
  constructor
  · rintro ⟨sound, distinct⟩
    refine ⟨fun field member => isName_iff.mp (sound field member).isName, distinct, ?_, ?_, ?_⟩
    · intro field member empty
      exact (sound field member).proper.positionalText (by simp [isPositional, empty])
    · intro field member name inside
      exact isAlias_iff.mp ((sound field member).proper.aliasProper name inside)
    · intro field member rule attached name referenced
      exact List.mem_map.mpr ((sound field member).known rule attached name referenced)
  · intro declarable
    refine ⟨fun field member => ⟨isName_iff.mpr (declarable.named field member), ⟨?_, ?_⟩, ?_⟩,
      declarable.distinct⟩
    · intro name inside
      exact isAlias_iff.mpr (declarable.aliases field member name inside)
    · intro positional
      exact declarable.introduced field member (List.isEmpty_iff.mp positional)
    · intro rule attached name referenced
      exact List.mem_map.mp (declarable.known field member rule attached name referenced)

/-- The names for which setters are bound, as a declaration asks for them. -/
structure Setter.AreBindable (declared names : List String) : Prop where
  declared : ∀ name ∈ names, name ∈ declared
  once : names.Nodup

theorem Setter.firstFault?_eq_none_iff_areBindable {σ : Type} {grammar : Grammar}
    {setters : List (Setter σ)} : firstFault? grammar setters = none ↔
      AreBindable (grammar.fields.map Field.name) (setters.map Setter.field) := by
  rw [firstFault?_eq_none_iff]
  have known : ∀ setter : Setter σ, (grammar.field? setter.field).isSome = true ↔
      setter.field ∈ grammar.fields.map Field.name := fun setter => by
    rw [← isNone_field?_iff, Option.isNone_eq_false_iff]
  constructor
  · rintro ⟨declared, once⟩
    exact ⟨List.forall_mem_map.mpr fun setter member => (known setter).mp (declared setter member),
      once⟩
  · rintro ⟨declared, once⟩
    exact ⟨fun setter member => (known setter).mpr (List.forall_mem_map.mp declared setter member),
      once⟩

theorem Grammar.ofFields_of_accepted {fields : List Field}
    (accepted : Field.firstFault? fields = none) : ofFields fields = .ok ⟨fields, accepted⟩ := by
  unfold ofFields
  split
  · rfl
  · rename_i mistaken
    cases accepted.symm.trans mistaken

theorem Grammar.ofFields_of_mistaken {fields : List Field} {mistake : DeclarationError}
    (mistaken : Field.firstFault? fields = some mistake) : ofFields fields = .error mistake := by
  unfold ofFields
  split
  · rename_i accepted
    cases accepted.symm.trans mistaken
  · rename_i mistaken'
    rw [Option.some.inj (mistaken.symm.trans mistaken')]

namespace Command

variable {σ : Type}

/-- All provisos on a declaration: those on its fields before those on its setters. -/
def provisos (fields : List Field) (names : List String) : List Proviso :=
  Field.allProvisos fields ++ Setter.allProvisos (fields.map Field.name) names

theorem ofFields_of_accepted {fields : List Field} {setters : List (Setter σ)}
    (phases : Phases σ) (accepted : Field.firstFault? fields = none)
    (bound : Setter.firstFault? ⟨fields, accepted⟩ setters = none) :
    ofFields fields setters phases = .ok (.mk ⟨fields, accepted⟩ setters bound phases) := by
  simp only [ofFields, Grammar.ofFields_of_accepted accepted]
  split
  · rfl
  · rename_i mistaken
    cases bound.symm.trans mistaken

theorem ofFields_of_mistaken {fields : List Field} {setters : List (Setter σ)}
    (phases : Phases σ) (accepted : Field.firstFault? fields = none) {mistake : DeclarationError}
    (mistaken : Setter.firstFault? ⟨fields, accepted⟩ setters = some mistake) :
    ofFields fields setters phases = .error mistake := by
  simp only [ofFields, Grammar.ofFields_of_accepted accepted]
  split
  · rename_i bound
    cases bound.symm.trans mistaken
  · rename_i mistaken'
    rw [Option.some.inj (mistaken.symm.trans mistaken')]

/-- A declaration makes a command of its fields, setters and phases, unless it has a mistake. -/
theorem checked_ofFields (fields : List Field) (setters : List (Setter σ)) (phases : Phases σ) :
    ∃ found, Proviso.Checked (provisos fields (setters.map Setter.field)) found ∧
      match found with
      | some mistake => ofFields fields setters phases = .error mistake
      | none => ∃ command, ofFields fields setters phases = .ok command ∧
          command.grammar.fields = fields ∧ command.setterNames = setters.map Setter.field ∧
          command.phaseCount = phases.count := by
  have fieldsChecked := Field.checked_firstFault? fields
  cases accepted : Field.firstFault? fields with
  | some mistake =>
      rw [accepted] at fieldsChecked
      refine ⟨some mistake, fieldsChecked.append_of_mistaken _, ?_⟩
      simp only [ofFields, Grammar.ofFields_of_mistaken accepted]
  | none =>
      have settersChecked := Setter.checked_firstFault? ⟨fields, accepted⟩ setters
      refine ⟨_, fieldsChecked.append settersChecked, ?_⟩
      rw [accepted, Option.none_or]
      cases bound : Setter.firstFault? ⟨fields, accepted⟩ setters with
      | some mistake => exact ofFields_of_mistaken phases accepted bound
      | none => exact ⟨_, ofFields_of_accepted phases accepted bound, rfl, rfl, rfl⟩

theorem exists_ofFields_iff {fields : List Field} {setters : List (Setter σ)}
    {phases : Phases σ} : (∃ command, ofFields fields setters phases = .ok command) ↔
      Field.AreDeclarable fields ∧
        Setter.AreBindable (fields.map Field.name) (setters.map Setter.field) := by
  rw [← Field.firstFault?_eq_none_iff_areDeclarable]
  cases accepted : Field.firstFault? fields with
  | some mistake => simp [ofFields, Grammar.ofFields_of_mistaken accepted]
  | none =>
      have bindable : Setter.firstFault? ⟨fields, accepted⟩ setters = none ↔
          Setter.AreBindable (fields.map Field.name) (setters.map Setter.field) :=
        Setter.firstFault?_eq_none_iff_areBindable
      cases bound : Setter.firstFault? ⟨fields, accepted⟩ setters with
      | some mistake =>
          rw [bound] at bindable
          simp [ofFields_of_mistaken phases accepted bound, ← bindable]
      | none =>
          rw [bound] at bindable
          simp [ofFields_of_accepted phases accepted bound, ← bindable]

/-- A command is declared exactly if its fields and setters are as a declaration asks for them, and
otherwise the mistake is the first one.  A declared command has the fields, setters and phases that
it was declared with, and the groups of its pattern have distinct identifiers for names. -/
theorem ofFields_verdict (fields : List Field) (setters : List (Setter σ)) (phases : Phases σ) :
    ((∃ command, ofFields fields setters phases = .ok command) ↔
      Field.AreDeclarable fields ∧
        Setter.AreBindable (fields.map Field.name) (setters.map Setter.field)) ∧
    (∀ mistake, ofFields fields setters phases = .error mistake ↔
      Proviso.IsFirstUnmet (provisos fields (setters.map Setter.field)) mistake) ∧
    ∀ command, ofFields fields setters phases = .ok command →
      command.grammar.fields = fields ∧ command.setterNames = setters.map Setter.field ∧
        command.phaseCount = phases.count ∧ command.grammar.pattern.groupNames.Nodup ∧
        ∀ name ∈ command.grammar.pattern.groupNames, Field.IsIdentifier name := by
  refine ⟨exists_ofFields_iff, ?_⟩
  rcases checked_ofFields fields setters phases with ⟨found, checked, declared⟩
  cases found with
  | some first =>
      refine ⟨fun mistake => ?_, fun command made => ?_⟩
      · rw [← checked.eq_some_iff, declared, Except.error.injEq, Option.some.injEq]
      · cases declared.symm.trans made
  | none =>
      rcases declared with ⟨command, made, same⟩
      refine ⟨fun mistake => ?_, fun command' made' => ?_⟩
      · rw [← checked.eq_some_iff, made]
        simp
      · rcases Except.ok.inj (made.symm.trans made') with rfl
        exact ⟨same.1, same.2.1, same.2.2, command.grammar.nodup_groupNames,
          fun name => Grammar.isIdentifier_of_mem_groupNames⟩

example : Field.firstFault? [⟨"first", .flag, ["-f"], [.excludes "second", .excludes "third"]⟩,
    ⟨"second", .flag, [], []⟩] = some (.unknownField .validationRule "third") := by
  decide

end Command

end SearchCommands
