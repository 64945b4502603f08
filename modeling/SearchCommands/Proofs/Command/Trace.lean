import SearchCommands.Command
import Mathlib.Data.List.Basic

/-!
# Traces of commands

A command runs the commands in its phases before its own grammar, and so do these with theirs.
Here every command within a command has a place, and running it keeps a trace: which grammar read
which text, which setter got which value, when the value of a phase was put into its target, and
whether it went well.  Running with a trace is running (`Command.result_traced`).
-/

namespace SearchCommands

/-- The way from a command to one within it: the number of the phase at each step. -/
abbrev Place := List Nat

/-- A command within a command: where it stands, what it fills, its own grammar and its setters. -/
structure Node where
  place : Place
  {Target : Type}
  grammar : Grammar
  setters : List (Setter Target)

mutual

/-- All commands within a command and the command itself.  A command comes after its phases. -/
def Command.nodes : {σ : Type} → Command σ → Place → List Node
  | _, .mk grammar setters _ phases, place =>
      phases.nodes place 0 ++ [⟨place, grammar, setters⟩]

/-- All commands within phases, which have numbers from the given one on. -/
def Phases.nodes : {σ : Type} → Phases σ → Place → Nat → List Node
  | _, .done, _, _ => []
  | _, .next command _ _ rest, place, index =>
      command.nodes (place ++ [index]) ++ rest.nodes place (index + 1)

end

/-- A command within a command and the text that its grammar reads. -/
structure Stage extends Node where
  input : String

namespace Stage

/-- The occurrences of fields in the text. -/
def captures (stage : Stage) : Captures := stage.grammar.captures stage.input

/-- What no occurrence covers. -/
def leftover (stage : Stage) : String := stage.grammar.leftover stage.input

/-- The setter of a field, if the field has one. -/
def setter? (stage : Stage) (field : String) : Option (Setter stage.Target) :=
  stage.setters.find? fun setter => setter.field == field

/-- The fields that occur and have a setter, in the order of declaration, with their values. -/
def calls (stage : Stage) : List (String × FieldValue) :=
  (stage.grammar.fields.filter fun field =>
      stage.captures.has field.name && (stage.setter? field.name).isSome).map fun field =>
    (field.name, .ofCaptured (stage.captures.valuesOf field.name))

end Stage

/-- What the last of some commands leaves over when each reads what the one before it left over. -/
def Node.leftoverOf (nodes : List Node) (input : String) : String :=
  nodes.foldl (fun input node => node.grammar.leftover input) input

/-- Some commands with their texts when each reads what the one before it left over. -/
def Node.stages : List Node → String → List Stage
  | [], _ => []
  | node :: rest, input => ⟨node, input⟩ :: stages rest (node.grammar.leftover input)

/-- What happens in a run. -/
inductive Event where
  /-- A grammar reads its text. -/
  | read (stage : Stage)
  /-- The setter of a field gets a value. -/
  | assign (stage : Stage) (field : String) (value : FieldValue)
  /-- The value of the phase at a place is put into the target of the command that it is for. -/
  | put (place : Place)

/-- A computation that may fail, with everything that happened and how it went. -/
structure Traced (α : Type) where
  trace : List (Event × Option Failure)
  result : Except Failure α

namespace Traced

variable {α β : Type}

/-- Nothing happens. -/
def pure (value : α) : Traced α := ⟨[], .ok value⟩

/-- One thing happens. -/
def one (event : Event) (result : Except Failure α) : Traced α :=
  match result with
  | .ok value => ⟨[(event, none)], .ok value⟩
  | .error failure => ⟨[(event, some failure)], .error failure⟩

/-- The one computation and then the other, unless the one fails. -/
def bind (first : Traced α) (next : α → Traced β) : Traced β :=
  match first.result with
  | .ok value => ⟨first.trace ++ (next value).trace, (next value).result⟩
  | .error failure => ⟨first.trace, .error failure⟩

@[simp]
theorem result_pure (value : α) : (pure value).result = .ok value := rfl

@[simp]
theorem result_one (event : Event) (result : Except Failure α) :
    (one event result).result = result := by
  cases result <;> rfl

@[simp]
theorem result_bind (first : Traced α) (next : α → Traced β) :
    (first.bind next).result = first.result.bind fun value => (next value).result := by
  unfold bind
  cases first.result <;> rfl

theorem bind_of_ok {first : Traced α} {next : α → Traced β} {value : α}
    (succeeds : first.result = .ok value) :
    first.bind next = ⟨first.trace ++ (next value).trace, (next value).result⟩ := by
  simp only [bind, succeeds]

theorem bind_of_error {first : Traced α} {next : α → Traced β} {failure : Failure}
    (fails : first.result = .error failure) : first.bind next = ⟨first.trace, .error failure⟩ := by
  simp only [bind, fails]

end Traced

/-- Hands values to the setters of their fields; a failure keeps what the grammar left over. -/
def Stage.assignAll (stage : Stage) (leftover : String) :
    List (String × FieldValue) → stage.Target → Traced stage.Target
  | [], target => .pure target
  | (field, value) :: rest, target =>
      match stage.setter? field with
      | none => stage.assignAll leftover rest target
      | some setter =>
          (Traced.one (.assign stage field value)
              ((setter.assign value target).mapError fun error => ⟨error, leftover⟩)).bind
            (stage.assignAll leftover rest)

/-- Runs the grammar of a stage on its text, and then the setters. -/
def Stage.fill (stage : Stage) (target : stage.Target) : Traced (Outcome stage.Target) :=
  (Traced.one (.read stage) (stage.grammar.read stage.input)).bind fun reading =>
    (stage.assignAll reading.leftover reading.matched target).bind fun value =>
      .pure ⟨value, reading.leftover⟩

mutual

/-- Runs a command that stands at a place. -/
def Command.traced : {σ : Type} → Command σ → Place → σ → String → Traced (Outcome σ)
  | _, .mk grammar setters _ phases, place, target, input =>
      (phases.traced place 0 target input).bind fun outcome =>
        Stage.fill ⟨⟨place, grammar, setters⟩, outcome.leftover⟩ outcome.value

/-- Runs phases that have numbers from the given one on. -/
def Phases.traced : {σ : Type} → Phases σ → Place → Nat → σ → String → Traced (Outcome σ)
  | _, .done, _, _, target, input => .pure ⟨target, input⟩
  | _, .next command initial put rest, place, index, target, input =>
      (command.traced (place ++ [index]) initial input).bind fun outcome =>
        (Traced.one (.put (place ++ [index])) (.ok (put outcome.value target))).bind fun target =>
          rest.traced place (index + 1) target outcome.leftover

end

namespace Stage

variable (stage : Stage)

theorem result_assignAll (leftover : String) (entries : List (String × FieldValue))
    (target : stage.Target) : (stage.assignAll leftover entries target).result =
      (Setter.assignAll stage.setters entries target).mapError fun error => ⟨error, leftover⟩ := by
  induction entries generalizing target with
  | nil => rfl
  | cons entry rest ih =>
      obtain ⟨field, value⟩ := entry
      simp only [assignAll, Setter.assignAll, setter?]
      cases stage.setters.find? fun setter => setter.field == field with
      | none => exact ih target
      | some setter =>
          simp only [Traced.result_bind, Traced.result_one, ih]
          cases setter.assign value target <;> rfl

theorem result_fill (target : stage.Target) :
    (stage.fill target).result = stage.grammar.fill stage.setters target stage.input := by
  simp only [fill, Grammar.fill, Traced.result_bind, Traced.result_one, result_assignAll]
  cases stage.grammar.read stage.input with
  | error failure => rfl
  | ok reading =>
      simp only [Except.bind]
      cases Setter.assignAll stage.setters reading.matched target <;> rfl

end Stage

mutual

/-- The trace changes nothing. -/
theorem Command.result_traced : ∀ {σ : Type} (command : Command σ) (place : Place) (target : σ)
    (input : String), (command.traced place target input).result = command.run target input
  | _, .mk grammar setters accepted phases, place, target, input => by
      simp only [Command.traced, Command.run, Traced.result_bind, Stage.result_fill,
        Phases.result_traced phases]
      cases phases.run target input <;> rfl

theorem Phases.result_traced : ∀ {σ : Type} (phases : Phases σ) (place : Place) (index : Nat)
    (target : σ) (input : String),
    (phases.traced place index target input).result = phases.run target input
  | _, .done, _, _, _, _ => rfl
  | _, .next command initial put rest, place, index, target, input => by
      simp only [Phases.traced, Phases.run, Traced.result_bind, Traced.result_one,
        Command.result_traced command, Phases.result_traced rest]
      cases command.run initial input <;> rfl

end

end SearchCommands
