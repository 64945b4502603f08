import SearchCommands.Proofs.Command.Trace
import SearchCommands.Proofs.Grammar.Values

/-!
# The order of a run

What a run does can be told from the command and its input: the grammars read in the order of their
nodes, each what the one before it left over, and after each come the setters of the fields that it
found.  A run that succeeds does all of it and a run that fails stops at the first failure.
-/

namespace SearchCommands

namespace Node

@[simp]
theorem leftoverOf_nil (input : String) : leftoverOf [] input = input := rfl

@[simp]
theorem leftoverOf_cons (node : Node) (nodes : List Node) (input : String) :
    leftoverOf (node :: nodes) input = leftoverOf nodes (node.grammar.leftover input) := rfl

@[simp]
theorem leftoverOf_append (nodes nodes' : List Node) (input : String) :
    leftoverOf (nodes ++ nodes') input = leftoverOf nodes' (leftoverOf nodes input) := by
  simp [leftoverOf]

theorem stages_append (nodes nodes' : List Node) (input : String) :
    stages (nodes ++ nodes') input =
      stages nodes input ++ stages nodes' (leftoverOf nodes input) := by
  induction nodes generalizing input with
  | nil => rfl
  | cons node rest ih => simp [stages, ih]

theorem map_toNode_stages (nodes : List Node) (input : String) :
    (stages nodes input).map Stage.toNode = nodes := by
  induction nodes generalizing input with
  | nil => rfl
  | cons node rest ih => simp [stages, ih]

end Node

namespace Stage

/-- What happens at a stage before its value is put anywhere. -/
def ownEvents (stage : Stage) : List Event :=
  .read stage :: stage.calls.map fun (field, value) => .assign stage field value

/-- What happens at a stage.  The value of the outermost command is put nowhere. -/
def events (stage : Stage) : List Event :=
  stage.ownEvents ++ if stage.place = [] then [] else [.put stage.place]

end Stage

/-- How an event fails: a rule does not hold, or a setter refuses its value.  The failure keeps what
the grammar of the stage leaves over. -/
inductive Event.FailsWith : Event → Failure → Prop where
  | rule {stage : Stage} {reason : Rejection}
      (refused : stage.grammar.rejection? stage.captures = some reason) :
      FailsWith (.read stage) ⟨.rejected reason, stage.leftover⟩
  | setter {stage : Stage} {field : String} {value : FieldValue} {setter : Setter stage.Target}
      {target : stage.Target} {error : CommandError} (isSetter : stage.setter? field = some setter)
      (refused : setter.assign value target = .error error) :
      FailsWith (.assign stage field value) ⟨error, stage.leftover⟩

/-- What happened is what was to happen, up to the first failure if there is one. -/
inductive Traced.Follows {α : Type} (traced : Traced α) (events : List Event) : Prop where
  | done {value : α} (result : traced.result = .ok value)
      (trace : traced.trace = events.map (·, none))
  | failed {failure : Failure} (before : List Event) (event : Event) (after : List Event)
      (result : traced.result = .error failure) (planned : events = before ++ event :: after)
      (trace : traced.trace = before.map (·, none) ++ [(event, some failure)])
      (fails : event.FailsWith failure)

namespace Traced.Follows

variable {α β : Type} {first : Traced α} {next : α → Traced β} {events events' : List Event}

theorem pure (value : α) : Follows (.pure value) [] := .done rfl rfl

theorem one {event : Event} {result : Except Failure α}
    (fails : ∀ failure, result = .error failure → event.FailsWith failure) :
    Follows (.one event result) [event] := by
  cases result with
  | ok value => exact .done rfl rfl
  | error failure => exact .failed [] event [] rfl rfl rfl (fails failure rfl)

theorem bind (one : Follows first events)
    (other : ∀ value, first.result = .ok value → Follows (next value) events') :
    Follows (first.bind next) (events ++ events') := by
  cases one with
  | failed before event after result planned trace fails =>
      rw [bind_of_error result]
      exact .failed before event (after ++ events') rfl (by simp [planned]) trace fails
  | @done value result trace =>
      rw [bind_of_ok result]
      cases other value result with
      | done result' trace' => exact .done result' (by simp [trace, trace'])
      | failed before event after result' planned' trace' fails =>
          exact .failed (events ++ before) event after result' (by simp [planned'])
            (by simp [trace, trace']) fails

end Traced.Follows

namespace Stage

variable (stage : Stage)

theorem filter_matched :
    (((stage.grammar.values stage.captures).filter fun entry => entry.2.isPresent).filter
      fun entry => (stage.setter? entry.1).isSome) = stage.calls := by
  simp only [Grammar.values, List.filter_map, List.filter_filter, calls]
  congr 1
  apply List.filter_congr
  intro field member
  simp [captures, Grammar.isPresent_value _ member, Bool.and_comm]

/-- No setter is called twice. -/
theorem nodup_calls : (stage.calls.map Prod.fst).Nodup := by
  simp only [calls, List.map_map]
  exact stage.grammar.names_nodup.sublist (List.filter_sublist.map Field.name)

theorem follows_assignAll (entries : List (String × FieldValue)) (target : stage.Target) :
    (stage.assignAll stage.leftover entries target).Follows
      ((entries.filter fun entry => (stage.setter? entry.1).isSome).map
        fun (field, value) => .assign stage field value) := by
  induction entries generalizing target with
  | nil => exact .pure target
  | cons entry rest ih =>
      obtain ⟨field, value⟩ := entry
      simp only [assignAll, List.filter_cons]
      cases found : stage.setter? field with
      | none => exact ih target
      | some setter =>
          refine Traced.Follows.bind (.one fun failure fails => ?_) fun next _ => ih next
          cases assigned : setter.assign value target with
          | ok next => simp [assigned, Except.mapError] at fails
          | error error =>
              rw [assigned] at fails
              cases fails
              exact .setter found assigned

theorem follows_fill (target : stage.Target) : (stage.fill target).Follows stage.ownEvents := by
  have reads : (Traced.one (.read stage) (stage.grammar.read stage.input)).Follows
      [.read stage] := by
    apply Traced.Follows.one
    intro failure refused
    obtain ⟨reason, rejected, rfl⟩ := Grammar.read_eq_error_iff.mp refused
    exact .rule rejected
  apply reads.bind
  intro reading accepted
  rw [Traced.result_one, Grammar.read_eq_ok_iff] at accepted
  obtain ⟨-, rfl⟩ := accepted
  have assigns := stage.follows_assignAll
    ((stage.grammar.values stage.captures).filter fun entry => entry.2.isPresent) target
  rw [filter_matched] at assigns
  have ends := assigns.bind fun value _ => Traced.Follows.pure (Outcome.mk value stage.leftover)
  rwa [List.append_nil] at ends

end Stage

/-- The stage of the command's own grammar. -/
def Command.ownStage : Command σ → Place → String → Stage
  | .mk grammar setters _ phases, place, input =>
      ⟨⟨place, grammar, setters⟩, Node.leftoverOf (phases.nodes place 0) input⟩

/-- The stages of the phases of the command. -/
def Command.phaseStages : Command σ → Place → String → List Stage
  | .mk _ _ _ phases, place, input => Node.stages (phases.nodes place 0) input

theorem Command.stages_nodes (command : Command σ) (place : Place) (input : String) :
    Node.stages (command.nodes place) input =
      command.phaseStages place input ++ [command.ownStage place input] := by
  cases command
  simp [nodes, phaseStages, ownStage, Node.stages_append, Node.stages]

theorem Command.leftoverOf_nodes (command : Command σ) (place : Place) (input : String) :
    Node.leftoverOf (command.nodes place) input = (command.ownStage place input).leftover := by
  cases command
  simp [nodes, ownStage, Stage.leftover]

theorem Command.place_ownStage (command : Command σ) (place : Place) (input : String) :
    (command.ownStage place input).place = place := by
  cases command
  rfl

theorem Command.events_stages (command : Command σ) {place : Place} (inner : place ≠ [])
    (input : String) : (Node.stages (command.nodes place) input).flatMap Stage.events =
      ((command.phaseStages place input).flatMap Stage.events ++
        (command.ownStage place input).ownEvents) ++ [.put place] := by
  simp [stages_nodes, Stage.events, place_ownStage, inner]

mutual

theorem Command.leftover_of_run : ∀ {σ : Type} (command : Command σ) (place : Place) (target : σ)
    (input : String) (outcome : Outcome σ), command.run target input = .ok outcome →
      outcome.leftover = Node.leftoverOf (command.nodes place) input
  | _, .mk grammar setters accepted phases, place, target, input, outcome, succeeds => by
      simp only [Command.run] at succeeds
      split at succeeds
      · simp at succeeds
      · rename_i filled ran
        have before := Phases.leftover_of_run phases place 0 target input filled ran
        have own := (Grammar.fill_eq_ok_iff.mp succeeds).2.2
        simp [Command.nodes, ← before, own]

theorem Phases.leftover_of_run : ∀ {σ : Type} (phases : Phases σ) (place : Place) (index : Nat)
    (target : σ) (input : String) (outcome : Outcome σ), phases.run target input = .ok outcome →
      outcome.leftover = Node.leftoverOf (phases.nodes place index) input
  | _, .done, place, index, target, input, outcome, succeeds => by
      simp only [Phases.run, Except.ok.injEq] at succeeds
      simp [Phases.nodes, ← succeeds]
  | _, .next command initial put rest, place, index, target, input, outcome, succeeds => by
      simp only [Phases.run] at succeeds
      split at succeeds
      · simp at succeeds
      · rename_i filled ran
        have first := Command.leftover_of_run command (place ++ [index]) initial input filled ran
        have later := Phases.leftover_of_run rest place (index + 1) _ _ outcome succeeds
        simp [Phases.nodes, ← first, later]

end

mutual

theorem Command.follows_traced : ∀ {σ : Type} (command : Command σ) (place : Place) (target : σ)
    (input : String), (command.traced place target input).Follows
      ((command.phaseStages place input).flatMap Stage.events ++
        (command.ownStage place input).ownEvents)
  | _, .mk grammar setters accepted phases, place, target, input => by
      -- what the phases leave over is known from the input alone, so the plan can be made first
      apply (Phases.follows_traced phases place 0 target input).bind
      intro outcome ran
      rw [Phases.result_traced] at ran
      rw [Phases.leftover_of_run phases place 0 target input outcome ran]
      apply Stage.follows_fill

theorem Phases.follows_traced : ∀ {σ : Type} (phases : Phases σ) (place : Place) (index : Nat)
    (target : σ) (input : String), (phases.traced place index target input).Follows
      ((Node.stages (phases.nodes place index) input).flatMap Stage.events)
  | _, .done, _, _, target, input => .pure _
  | _, .next command initial put rest, place, index, target, input => by
      -- a phase has a place below that of its command, so its value is put somewhere
      have inner : place ++ [index] ≠ [] := by simp
      rw [Phases.nodes, Node.stages_append, List.flatMap_append, command.events_stages inner,
        List.append_assoc]
      apply (Command.follows_traced command (place ++ [index]) initial input).bind
      intro outcome ran
      rw [Command.result_traced] at ran
      rw [← Command.leftover_of_run command (place ++ [index]) initial input outcome ran]
      apply Traced.Follows.bind (.one (by simp))
      intro target _
      exact Phases.follows_traced rest place (index + 1) target outcome.leftover

end

section Places

mutual

theorem Command.prefix_place : ∀ {σ : Type} (command : Command σ) (place : Place),
    ∀ node ∈ command.nodes place, place <+: node.place
  | _, .mk grammar setters accepted phases, place, node, member => by
      simp only [Command.nodes, List.mem_append, List.mem_singleton] at member
      rcases member with inner | rfl
      · obtain ⟨i, -, more⟩ := Phases.prefix_place phases place 0 node inner
        exact (List.prefix_append place [i]).trans more
      · exact List.prefix_refl place

/-- The place of a node in phases goes on with the number of one of them. -/
theorem Phases.prefix_place : ∀ {σ : Type} (phases : Phases σ) (place : Place) (index : Nat),
    ∀ node ∈ phases.nodes place index, ∃ i, index ≤ i ∧ place ++ [i] <+: node.place
  | _, .done, _, _, _, member => by simp [Phases.nodes] at member
  | _, .next command _ _ rest, place, index, node, member => by
      simp only [Phases.nodes, List.mem_append] at member
      rcases member with first | later
      · exact ⟨index, Nat.le_refl _, Command.prefix_place command _ node first⟩
      · obtain ⟨i, after, more⟩ := Phases.prefix_place rest place (index + 1) node later
        exact ⟨i, by omega, more⟩

end

mutual

/-- Every command within a command has a place of its own. -/
theorem Command.nodup_place : ∀ {σ : Type} (command : Command σ) (place : Place),
    ((command.nodes place).map Node.place).Nodup
  | _, .mk grammar setters accepted phases, place => by
      simp only [Command.nodes, List.map_append, List.map_singleton, List.nodup_append,
        List.mem_map, List.mem_singleton]
      refine ⟨Phases.nodup_place phases place 0, by simp, ?_⟩
      rintro _ ⟨node, member, rfl⟩ own isPlace same
      obtain ⟨i, -, more⟩ := Phases.prefix_place phases place 0 node member
      have longer := more.length_le
      simp [same, isPlace] at longer

theorem Phases.nodup_place : ∀ {σ : Type} (phases : Phases σ) (place : Place) (index : Nat),
    ((phases.nodes place index).map Node.place).Nodup
  | _, .done, _, _ => by simp [Phases.nodes]
  | _, .next command _ _ rest, place, index => by
      simp only [Phases.nodes, List.map_append, List.nodup_append, List.mem_map]
      refine ⟨Command.nodup_place command _, Phases.nodup_place rest place (index + 1), ?_⟩
      rintro _ ⟨node, member, rfl⟩ _ ⟨other, later, rfl⟩ same
      have first := Command.prefix_place command _ node member
      obtain ⟨i, after, more⟩ := Phases.prefix_place rest place (index + 1) other later
      rw [← same] at more
      have apart := List.prefix_of_prefix_length_le first more (by simp)
      have equal := apart.eq_of_length (by simp)
      simp at equal
      omega

end

end Places

end SearchCommands
