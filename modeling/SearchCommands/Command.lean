import SearchCommands.Grammar.Reading

/-!
# Commands

A command fills a target from an input. It has phases, which are commands for parts of the target:
they run first, each on what the one before it left over. Then its own grammar reads what is left,
and every field that the input has anything for is handed to its setter, in the order of
declaration. The first failure ends the reading, and no half-filled target is ever returned.
-/

namespace SearchCommands

/-- How the value of a field changes the target. -/
structure Setter (σ : Type) where
  field : String
  assign : FieldValue → σ → Except CommandError σ

namespace Setter

/-- The first mistake in the setters that follow the earlier ones: a setter for a field that is not
declared, or a second setter for a field. -/
def faultAfter? (grammar : Grammar) (earlier : List String) :
    List (Setter σ) → Option DeclarationError
  | [] => none
  | setter :: rest =>
      if (grammar.field? setter.field).isNone then some (.unknownField .setter setter.field)
      else if earlier.contains setter.field then some (.duplicateSetter setter.field)
      else faultAfter? grammar (earlier ++ [setter.field]) rest

/-- The first mistake in the setters for a grammar. -/
def firstFault? (grammar : Grammar) (setters : List (Setter σ)) : Option DeclarationError :=
  faultAfter? grammar [] setters

/-- Hands values to the setters of their fields. Fields without a setter are passed over. -/
def assignAll (setters : List (Setter σ)) :
    List (String × FieldValue) → σ → Except CommandError σ
  | [], target => .ok target
  | (field, value) :: rest, target =>
      match setters.find? fun setter => setter.field == field with
      | none => assignAll setters rest target
      | some setter =>
          match setter.assign value target with
          | .ok target => assignAll setters rest target
          | .error error => .error error

end Setter

/-- A filled target and the text that nothing consumed. -/
structure Outcome (σ : Type) where
  value : σ
  leftover : String
  deriving DecidableEq, Repr

mutual

/-- A command that fills a target of the given type. -/
inductive Command : Type → Type 1 where
  | mk {σ : Type} (grammar : Grammar) (setters : List (Setter σ))
      (accepted : Setter.firstFault? grammar setters = none) (phases : Phases σ) : Command σ

/-- The phases of a command, in the order in which they run. A phase fills a target of its own from
an initial one, and the result is put into the target of the command. -/
inductive Phases : Type → Type 1 where
  | done {σ : Type} : Phases σ
  | next {σ τ : Type} (command : Command τ) (initial : τ) (put : τ → σ → σ)
      (rest : Phases σ) : Phases σ

end

/-- The number of phases. -/
def Phases.count : Phases σ → Nat
  | .done => 0
  | .next _ _ _ rest => rest.count + 1

/-- Runs a grammar and its setters on an input. -/
def Grammar.fill (grammar : Grammar) (setters : List (Setter σ)) (target : σ) (input : String) :
    Except Failure (Outcome σ) :=
  match grammar.read input with
  | .error failure => .error failure
  | .ok reading =>
      match Setter.assignAll setters reading.matched target with
      | .error error => .error ⟨error, reading.leftover⟩
      | .ok target => .ok ⟨target, reading.leftover⟩

mutual

/-- Fills a target from an input: the phases first, the grammar on what they left over. -/
def Command.run : {σ : Type} → Command σ → σ → String → Except Failure (Outcome σ)
  | _, .mk grammar setters _ phases, target, input =>
      match phases.run target input with
      | .error failure => .error failure
      | .ok outcome => grammar.fill setters outcome.value outcome.leftover

/-- Runs the phases one after the other, each on what the one before it left over. -/
def Phases.run : {σ : Type} → Phases σ → σ → String → Except Failure (Outcome σ)
  | _, .done, target, input => .ok ⟨target, input⟩
  | _, .next command initial put rest, target, input =>
      match command.run initial input with
      | .error failure => .error failure
      | .ok outcome => rest.run (put outcome.value target) outcome.leftover

end

namespace Command

/-- The command with the given fields, setters and phases, or the first mistake in the fields or
else in the setters. -/
def ofFields (fields : List Field) (setters : List (Setter σ)) (phases : Phases σ) :
    Except DeclarationError (Command σ) :=
  match Grammar.ofFields fields with
  | .error fault => .error fault
  | .ok grammar =>
      match accepted : Setter.firstFault? grammar setters with
      | none => .ok (.mk grammar setters accepted phases)
      | some fault => .error fault

/-- The grammar of the command's own fields. -/
def grammar : Command σ → Grammar
  | .mk grammar _ _ _ => grammar

/-- The names of the fields that have a setter. -/
def setterNames : Command σ → List String
  | .mk _ setters _ _ => setters.map Setter.field

/-- The number of phases. -/
def phaseCount : Command σ → Nat
  | .mk _ _ _ phases => phases.count

/-- The command as it is shown to developers: its pattern, the fields that have a setter and the
number of phases. -/
def debugText (command : Command σ) : String :=
  "Parser \x7b pattern: " ++ Text.quoted command.grammar.source ++ ", setters: [" ++
    ", ".intercalate (command.setterNames.map Text.quoted) ++ "], nested: " ++
    toString command.phaseCount ++ " \x7d"

end Command

end SearchCommands
