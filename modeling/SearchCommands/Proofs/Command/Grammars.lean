import SearchCommands.Proofs.Command.Order
import SearchCommands.Proofs.Grammar.Alike

/-!
# The grammars of a command

What a command has to do with its input is a matter of the grammars within it, each of which reads
what the ones before it left over.  If all of them find the same in another input, the command has
the same verdict and the same value there (`Command.run_alike`), whatever else stands in the inputs.
-/

namespace SearchCommands

/-- The rule holds alike for captures that say the same, wherever they stand. -/
def Rule.IgnoresPlaces (rule : Rule) : Prop :=
  ∀ field captures captures', captures.map Capture.entry = captures'.map Capture.entry →
    rule.holds field captures = rule.holds field captures'

theorem Rule.IsBuiltIn.ignoresPlaces {rule : Rule} (builtIn : rule.IsBuiltIn) :
    rule.IgnoresPlaces := by
  intro field captures captures' same
  have fields := congrArg (List.map Prod.fst) same
  simp only [List.map_map] at fields
  cases rule with
  | atMost limit => simp only [holds, Captures.countOf_congr fields]
  | excludes other => simp only [holds, Captures.has_congr fields]
  | custom => exact builtIn.elim

namespace Grammar

/-- No rule of the grammar depends on the places of captures. -/
def IgnoresPlaces (grammar : Grammar) : Prop :=
  ∀ field ∈ grammar.fields, ∀ rule ∈ field.rules, rule.IgnoresPlaces

variable {grammar : Grammar}

theorem HasBuiltInRules.ignoresPlaces (builtIn : grammar.HasBuiltInRules) :
    grammar.IgnoresPlaces :=
  fun field member rule ruleMember => (builtIn field member rule ruleMember).ignoresPlaces

/-- What the last of some grammars leaves over. -/
def leftoverOf (grammars : List Grammar) (input : String) : String :=
  grammars.foldl (fun input grammar => grammar.leftover input) input

@[simp]
theorem leftoverOf_nil (input : String) : leftoverOf [] input = input := rfl

@[simp]
theorem leftoverOf_cons (grammar : Grammar) (grammars : List Grammar) (input : String) :
    leftoverOf (grammar :: grammars) input = leftoverOf grammars (grammar.leftover input) := rfl

@[simp]
theorem leftoverOf_append (grammars grammars' : List Grammar) (input : String) :
    leftoverOf (grammars ++ grammars') input = leftoverOf grammars' (leftoverOf grammars input) :=
  List.foldl_append

/-- Each of some grammars captures the same in two inputs, or rather in what the grammars before it
left over of them. -/
def FindAlike : List Grammar → String → String → Prop
  | [], _, _ => True
  | grammar :: rest, input, input' =>
      (grammar.captures input).map Capture.entry = (grammar.captures input').map Capture.entry ∧
        FindAlike rest (grammar.leftover input) (grammar.leftover input')

theorem findAlike_append {grammars grammars' : List Grammar} {input input' : String} :
    FindAlike (grammars ++ grammars') input input' ↔ FindAlike grammars input input' ∧
      FindAlike grammars' (leftoverOf grammars input) (leftoverOf grammars input') := by
  induction grammars generalizing input input' with
  | nil => simp [FindAlike]
  | cons grammar rest ih => simp [FindAlike, ih, and_assoc]

end Grammar

theorem Node.leftoverOf_eq (nodes : List Node) (input : String) :
    leftoverOf nodes input = Grammar.leftoverOf (nodes.map Node.grammar) input := by
  rw [leftoverOf, Grammar.leftoverOf, List.foldl_map]

mutual

/-- The grammars of all commands within a command and its own one, which reads last. -/
def Command.grammars : {σ : Type} → Command σ → List Grammar
  | _, .mk grammar _ _ phases => phases.grammars ++ [grammar]

/-- The grammars of all commands within phases. -/
def Phases.grammars : {σ : Type} → Phases σ → List Grammar
  | _, .done => []
  | _, .next command _ _ rest => command.grammars ++ rest.grammars

end

mutual

/-- Where a command stands makes no difference to its grammars. -/
theorem Command.grammars_nodes : ∀ {σ : Type} (command : Command σ) (place : Place),
    (command.nodes place).map Node.grammar = command.grammars
  | _, .mk grammar setters accepted phases, place => by
      simp [Command.nodes, Command.grammars, Phases.grammars_nodes phases place 0]

theorem Phases.grammars_nodes : ∀ {σ : Type} (phases : Phases σ) (place : Place) (index : Nat),
    (phases.nodes place index).map Node.grammar = phases.grammars
  | _, .done, _, _ => rfl
  | _, .next command initial put rest, place, index => by
      simp [Phases.nodes, Phases.grammars, Command.grammars_nodes command,
        Phases.grammars_nodes rest]

end

theorem Command.leftover_eq_of_run {σ : Type} {command : Command σ} {target : σ} {input : String}
    {outcome : Outcome σ} (succeeds : command.run target input = .ok outcome) :
    outcome.leftover = Grammar.leftoverOf command.grammars input := by
  have left := command.leftover_of_run [] target input outcome succeeds
  rwa [Node.leftoverOf_eq, grammars_nodes] at left

theorem Phases.leftover_eq_of_run {σ : Type} {phases : Phases σ} {target : σ} {input : String}
    {outcome : Outcome σ} (succeeds : phases.run target input = .ok outcome) :
    outcome.leftover = Grammar.leftoverOf phases.grammars input := by
  have left := phases.leftover_of_run [] 0 target input outcome succeeds
  rwa [Node.leftoverOf_eq, grammars_nodes] at left

/-- Both runs fail or both have the same value. -/
abbrev RunsAlike {σ : Type} : Except Failure (Outcome σ) → Except Failure (Outcome σ) → Prop :=
  ResultsAlike (Failure.Alike fun _ _ => True) (Outcome.Alike Eq fun _ _ => True)

theorem RunsAlike.ok_iff {σ : Type} {result result' : Except Failure (Outcome σ)}
    (alike : RunsAlike result result') {value : σ} :
    (∃ left, result = .ok ⟨value, left⟩) ↔ ∃ left, result' = .ok ⟨value, left⟩ := by
  cases alike with
  | failed => simp
  | @done outcome outcome' same =>
      rcases outcome with ⟨value, left⟩
      rcases outcome' with ⟨value', left'⟩
      have sameValue : value = value' := same.value
      simp [sameValue]

theorem Grammar.IgnoresPlaces.fill_alike {σ : Type} {grammar : Grammar} {input input' : String}
    (ignores : grammar.IgnoresPlaces)
    (same : (grammar.captures input).map Capture.entry =
      (grammar.captures input').map Capture.entry) (setters : List (Setter σ)) (target : σ) :
    RunsAlike (grammar.fill setters target input) (grammar.fill setters target input') := by
  have rules : grammar.rejection? (grammar.captures input) =
      grammar.rejection? (grammar.captures input') := by
    apply rejection?_congr
    intro field member rule ruleMember
    exact ignores field member rule ruleMember _ _ _ same
  rcases grammar.fill_congr rules same setters target with
    ⟨error, refused, refused'⟩ | ⟨filled, done, done'⟩
  · rw [refused, refused']
    exact .failed ⟨rfl, trivial⟩
  · rw [done, done']
    exact .done ⟨rfl, trivial⟩

theorem ResultsAlike.bind {ε α β : Type} {errors : ε → ε → Prop} {values : α → α → Prop}
    {values' : β → β → Prop} {first first' : Except ε α} {next next' : α → Except ε β}
    (alike : ResultsAlike errors values first first')
    (more : ∀ value value', first = .ok value → first' = .ok value' → values value value' →
      ResultsAlike errors values' (next value) (next' value')) :
    ResultsAlike errors values' (first.bind next) (first'.bind next') := by
  cases alike with
  | failed alike => exact .failed alike
  | done alike => exact more _ _ rfl rfl alike

section Bind

variable {σ τ : Type}

theorem Command.run_mk (grammar : Grammar) (setters : List (Setter σ))
    (accepted : Setter.firstFault? grammar setters = none) (phases : Phases σ) (target : σ)
    (input : String) : (Command.mk grammar setters accepted phases).run target input =
      (phases.run target input).bind fun filled =>
        grammar.fill setters filled.value filled.leftover := by
  rw [run]
  cases phases.run target input with
  | error failure => rfl
  | ok filled => rfl

theorem Phases.run_next (command : Command τ) (initial : τ) (put : τ → σ → σ) (rest : Phases σ)
    (target : σ) (input : String) : (Phases.next command initial put rest).run target input =
      (command.run initial input).bind fun filled =>
        rest.run (put filled.value target) filled.leftover := by
  rw [run]
  cases command.run initial input with
  | error failure => rfl
  | ok filled => rfl

end Bind

mutual

/-- Where its grammars find the same, a command has the same verdict and the same value. -/
theorem Command.run_alike : ∀ {σ : Type} (command : Command σ),
    (∀ grammar ∈ command.grammars, grammar.IgnoresPlaces) → ∀ (target : σ) (input input' : String),
      Grammar.FindAlike command.grammars input input' →
        RunsAlike (command.run target input) (command.run target input')
  | _, .mk grammar setters accepted phases, ignores, target, input, input', alike => by
      simp only [Command.grammars, List.forall_mem_append, List.forall_mem_singleton] at ignores
      rw [Command.grammars, Grammar.findAlike_append] at alike
      rw [Command.run_mk, Command.run_mk]
      apply (Phases.run_alike phases ignores.1 target input input' alike.1).bind
      intro filled filled' ran ran' same
      have own := alike.2.1
      rw [← Phases.leftover_eq_of_run ran, ← Phases.leftover_eq_of_run ran'] at own
      rw [same.value]
      exact ignores.2.fill_alike own setters filled'.value

theorem Phases.run_alike : ∀ {σ : Type} (phases : Phases σ),
    (∀ grammar ∈ phases.grammars, grammar.IgnoresPlaces) → ∀ (target : σ) (input input' : String),
      Grammar.FindAlike phases.grammars input input' →
        RunsAlike (phases.run target input) (phases.run target input')
  | _, .done, _, _, _, _, _ => .done ⟨rfl, trivial⟩
  | _, .next command initial put rest, ignores, target, input, input', alike => by
      simp only [Phases.grammars, List.forall_mem_append] at ignores
      rw [Phases.grammars, Grammar.findAlike_append] at alike
      rw [Phases.run_next, Phases.run_next]
      apply (Command.run_alike command ignores.1 initial input input' alike.1).bind
      intro filled filled' ran ran' same
      have later := alike.2
      rw [← Command.leftover_eq_of_run ran, ← Command.leftover_eq_of_run ran'] at later
      rw [same.value]
      exact Phases.run_alike rest ignores.2 _ _ _ later

end

end SearchCommands
