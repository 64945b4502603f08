import SearchCommands.Command
import Mathlib.Data.List.Perm.Basic

/-!
# The order of setters

A field has at most one setter, so setters are found whatever their order is, and a command does the
same when the setters of any command within it change places (`Command.Rebound.run_eq`).
-/

namespace SearchCommands

namespace Setter

variable {σ : Type} {grammar : Grammar} {setters setters' : List (Setter σ)}

theorem faultAfter?_cons_eq_none_iff {earlier : List String} {setter : Setter σ} :
    faultAfter? grammar earlier (setter :: setters) = none ↔
      (grammar.field? setter.field).isSome = true ∧ setter.field ∉ earlier ∧
        faultAfter? grammar (earlier ++ [setter.field]) setters = none := by
  cases declared : grammar.field? setter.field with
  | none => simp [faultAfter?, declared]
  | some field => by_cases again : setter.field ∈ earlier <;> simp [faultAfter?, declared, again]

theorem faultAfter?_eq_none_iff {earlier : List String} :
    faultAfter? grammar earlier setters = none ↔
      (∀ setter ∈ setters, (grammar.field? setter.field).isSome = true ∧
        setter.field ∉ earlier) ∧ (setters.map Setter.field).Nodup := by
  induction setters generalizing earlier with
  | nil => simp [faultAfter?]
  | cons setter rest ih =>
      simp only [faultAfter?_cons_eq_none_iff, ih, List.mem_append, List.mem_singleton, not_or,
        List.forall_mem_cons, List.map_cons, List.nodup_cons, List.mem_map]
      grind

theorem firstFault?_eq_none_iff : firstFault? grammar setters = none ↔
    (∀ setter ∈ setters, (grammar.field? setter.field).isSome = true) ∧
      (setters.map Setter.field).Nodup := by
  simp [firstFault?, faultAfter?_eq_none_iff]

/-- Setters without a mistake are without one in every order. -/
theorem firstFault?_perm (same : setters.Perm setters')
    (accepted : firstFault? grammar setters = none) : firstFault? grammar setters' = none := by
  rw [firstFault?_eq_none_iff] at accepted ⊢
  obtain ⟨declared, distinct⟩ := accepted
  constructor
  · intro setter member
    exact declared setter (same.mem_iff.mpr member)
  · exact (same.map Setter.field).nodup_iff.mp distinct

theorem find?_perm (same : setters.Perm setters') (distinct : (setters.map Setter.field).Nodup)
    (field : String) :
    (setters.find? fun setter => setter.field == field) =
      setters'.find? fun setter => setter.field == field := by
  induction same with
  | nil => rfl
  | cons setter _ ih =>
      simp only [List.map_cons, List.nodup_cons] at distinct
      simp only [List.find?_cons, ih distinct.2]
  | swap first second rest =>
      have apart : second.field ≠ first.field := by
        intro equal
        simp [equal] at distinct
      by_cases isFirst : first.field = field
      · simp [isFirst, isFirst ▸ apart]
      · simp [List.find?_cons, isFirst]
  | trans front _ ih ih' =>
      exact (ih distinct).trans (ih' ((front.map Setter.field).nodup_iff.mp distinct))

theorem assignAll_congr (found : ∀ field, (setters.find? fun setter => setter.field == field) =
      setters'.find? fun setter => setter.field == field)
    (entries : List (String × FieldValue)) (target : σ) :
    assignAll setters entries target = assignAll setters' entries target := by
  induction entries generalizing target with
  | nil => rfl
  | cons entry rest ih => simp only [assignAll, found, ih]

end Setter

/-- The order of setters makes no difference to what a grammar fills. -/
theorem Grammar.fill_perm {σ : Type} {grammar : Grammar} {setters setters' : List (Setter σ)}
    (same : setters.Perm setters') (accepted : Setter.firstFault? grammar setters = none)
    (target : σ) (input : String) :
    grammar.fill setters target input = grammar.fill setters' target input := by
  have distinct := (Setter.firstFault?_eq_none_iff.mp accepted).2
  simp only [fill, Setter.assignAll_congr (Setter.find?_perm same distinct)]

mutual

/-- The commands differ in the order of setters alone, their own or those of commands within
them. -/
inductive Command.Rebound : {σ : Type} → Command σ → Command σ → Prop where
  | mk {σ : Type} {grammar : Grammar} {setters setters' : List (Setter σ)}
      {accepted : Setter.firstFault? grammar setters = none} {phases phases' : Phases σ}
      (same : setters.Perm setters') (inner : Phases.Rebound phases phases') :
      Command.Rebound (.mk grammar setters accepted phases)
        (.mk grammar setters' (Setter.firstFault?_perm same accepted) phases')

/-- The phases differ in the order of setters alone. -/
inductive Phases.Rebound : {σ : Type} → Phases σ → Phases σ → Prop where
  | done {σ : Type} : Phases.Rebound (.done : Phases σ) .done
  | next {σ τ : Type} {command command' : Command τ} {rest rest' : Phases σ} {initial : τ}
      {put : τ → σ → σ} (first : Command.Rebound command command')
      (later : Phases.Rebound rest rest') :
      Phases.Rebound (.next command initial put rest) (.next command' initial put rest')

end

mutual

theorem Command.Rebound.run_eq : ∀ {σ : Type} (command command' : Command σ),
    command.Rebound command' → ∀ (target : σ) (input : String),
      command'.run target input = command.run target input
  | _, .mk grammar setters accepted phases, _, .mk same inner, target, input => by
      simp only [Command.run, Phases.Rebound.run_eq phases _ inner target input,
        Grammar.fill_perm same accepted]

theorem Phases.Rebound.run_eq : ∀ {σ : Type} (phases phases' : Phases σ),
    phases.Rebound phases' → ∀ (target : σ) (input : String),
      phases'.run target input = phases.run target input
  | _, .done, _, .done, _, _ => rfl
  | _, .next command initial put rest, _, .next first later, target, input => by
      simp only [Phases.run, Command.Rebound.run_eq command _ first,
        Phases.Rebound.run_eq rest _ later]

end

end SearchCommands
