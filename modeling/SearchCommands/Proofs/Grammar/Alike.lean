import Mathlib.Data.List.Forall2
import SearchCommands.Proofs.Grammar.Isolation

/-!
# Readings that are alike

Two inputs are often read alike: the same fields are captured in the same order, with values that
are related in some way.  Then the same rule is broken or none, and setters that respect the
relation give related targets or the same error.  What the relation is, and what the leftovers have
in common, is left to the inputs.
-/

namespace SearchCommands

/-- Both results are failures or both are successes, and what they carry is related. -/
inductive ResultsAlike {ε α : Type} (errors : ε → ε → Prop) (values : α → α → Prop) :
    Except ε α → Except ε α → Prop where
  | failed {error error' : ε} (alike : errors error error') :
      ResultsAlike errors values (.error error) (.error error')
  | done {value value' : α} (alike : values value value') :
      ResultsAlike errors values (.ok value) (.ok value')

variable {values : FieldValue → FieldValue → Prop} {captured : Capture → Capture → Prop}
  {texts : String → String → Prop} {σ : Type} {targets : σ → σ → Prop}

/-- The same error, with related leftovers. -/
structure Failure.Alike (texts : String → String → Prop) (failure failure' : Failure) : Prop where
  error : failure.error = failure'.error
  leftover : texts failure.leftover failure'.leftover

/-- Related targets with related leftovers. -/
structure Outcome.Alike (targets : σ → σ → Prop) (texts : String → String → Prop)
    (outcome outcome' : Outcome σ) : Prop where
  value : targets outcome.value outcome'.value
  leftover : texts outcome.leftover outcome'.leftover

/-- Values of the same fields that are related. -/
def EntriesAlike (values : FieldValue → FieldValue → Prop) (entry entry' : String × FieldValue) :
    Prop :=
  entry.1 = entry'.1 ∧ values entry.2 entry'.2

/-- Related values, captures and leftovers. -/
structure Reading.Alike (values : FieldValue → FieldValue → Prop)
    (captured : Capture → Capture → Prop) (texts : String → String → Prop)
    (reading reading' : Reading) : Prop where
  values : List.Forall₂ (EntriesAlike values) reading.values reading'.values
  captures : List.Forall₂ captured reading.captures reading'.captures
  leftover : texts reading.leftover reading'.leftover

theorem Captures.valuesOf_alike (fields : ∀ {c c'}, captured c c' → c.field = c'.field)
    (contents : ∀ {c c'}, captured c c' → values c.value c'.value) {captures captures' : Captures}
    (alike : List.Forall₂ captured captures captures') (field : String) :
    List.Forall₂ values (captures.valuesOf field) (captures'.valuesOf field) := by
  rw [valuesOf, valuesOf, List.forall₂_map_left_iff, List.forall₂_map_right_iff]
  have filtered : List.Forall₂ captured (captures.filter fun capture => capture.field == field)
      (captures'.filter fun capture => capture.field == field) := by
    refine List.rel_filter ?_ alike
    intro c c' related
    simp only [fields related]
  exact filtered.imp fun _ _ related => contents related

namespace Grammar

variable {grammar : Grammar} {input input' : String}

/-- Inputs with related captures are read alike. -/
theorem HasBuiltInRules.read_alike (builtIn : grammar.HasBuiltInRules)
    (fields : ∀ {c c'}, captured c c' → c.field = c'.field)
    (contents : ∀ {c c'}, captured c c' → values c.value c'.value)
    (closed : ∀ {found found'}, List.Forall₂ values found found' →
      values (FieldValue.ofCaptured found) (FieldValue.ofCaptured found'))
    (captures : List.Forall₂ captured (grammar.captures input) (grammar.captures input'))
    (leftover : texts (grammar.leftover input) (grammar.leftover input')) :
    ResultsAlike (Failure.Alike texts) (Reading.Alike values captured texts)
      (grammar.read input) (grammar.read input') := by
  have names : (grammar.captures input).map Capture.field =
      (grammar.captures input').map Capture.field := by
    rw [← List.forall₂_eq_eq_eq, List.forall₂_map_left_iff, List.forall₂_map_right_iff]
    exact captures.imp fun _ _ related => fields related
  rw [read, read, builtIn.rejection?_congr names]
  cases grammar.rejection? (grammar.captures input') with
  | some reason => exact .failed ⟨rfl, leftover⟩
  | none =>
      refine .done ⟨?_, captures, leftover⟩
      simp only [Grammar.values, List.forall₂_map_left_iff, List.forall₂_map_right_iff,
        List.forall₂_same]
      exact fun field _ => ⟨rfl, closed (Captures.valuesOf_alike fields contents captures _)⟩

end Grammar

/-- From related values and targets the setter makes related targets, or the same error. -/
def Setter.Respects (values : FieldValue → FieldValue → Prop) (targets : σ → σ → Prop)
    (setter : Setter σ) : Prop :=
  ∀ {value value' target target'}, values value value' → targets target target' →
    ResultsAlike Eq targets (setter.assign value target) (setter.assign value' target')

theorem Setter.assignAll_alike {setters : List (Setter σ)}
    (respects : ∀ setter ∈ setters, setter.Respects values targets)
    {entries entries' : List (String × FieldValue)}
    (alike : List.Forall₂ (EntriesAlike values) entries entries') {target target' : σ}
    (same : targets target target') :
    ResultsAlike Eq targets (assignAll setters entries target)
      (assignAll setters entries' target') := by
  induction alike generalizing target target' with
  | nil => exact .done same
  | @cons entry entry' _ _ first _ ih =>
      rcases entry with ⟨field, value⟩
      rcases entry' with ⟨field', value'⟩
      rcases first with ⟨rfl, related⟩
      rw [assignAll, assignAll]
      cases found : setters.find? fun setter => setter.field == field with
      | none => exact ih same
      | some setter =>
          have assigned := respects setter (List.mem_of_find?_eq_some found) related same
          simp only
          generalize setter.assign value target = result,
            setter.assign value' target' = result' at assigned
          cases assigned with
          | failed alike => exact .failed alike
          | done alike => exact ih alike

/-- Readings that are alike fill related targets with related ones. -/
theorem Grammar.fill_alike {grammar : Grammar} {input input' : String}
    {setters : List (Setter σ)} (respects : ∀ setter ∈ setters, setter.Respects values targets)
    (present : ∀ {value value'}, values value value' → value.isPresent = value'.isPresent)
    (readings : ResultsAlike (Failure.Alike texts) (Reading.Alike values captured texts)
      (grammar.read input) (grammar.read input')) {target target' : σ}
    (same : targets target target') :
    ResultsAlike (Failure.Alike texts) (Outcome.Alike targets texts)
      (grammar.fill setters target input) (grammar.fill setters target' input') := by
  rw [fill, fill]
  generalize grammar.read input = reading, grammar.read input' = reading' at readings
  cases readings with
  | failed alike => exact .failed alike
  | @done reading reading' alike =>
      have matched : List.Forall₂ (EntriesAlike values) reading.matched reading'.matched := by
        refine List.rel_filter ?_ alike.values
        intro entry entry' related
        simp only [present related.2]
      have assigned := Setter.assignAll_alike respects matched same
      simp only
      generalize Setter.assignAll setters reading.matched target = result,
        Setter.assignAll setters reading'.matched target' = result' at assigned
      cases assigned with
      | failed error => exact .failed ⟨error, alike.leftover⟩
      | done filled => exact .done ⟨filled, alike.leftover⟩

end SearchCommands
