import SearchCommands.Proofs.Command.Order
import SearchCommands.Proofs.Command.Rebinding
import SearchCommands.Proofs.Search.Reading

/-!
# Runs of commands

The order of a run and the order of setters, put together for commands with phases in phases of any
depth (`Command.run_in_order`).
-/

namespace SearchCommands

variable {σ : Type}

/-- The stages of a run: what every grammar reads if none of them fails. -/
def Command.stages (command : Command σ) (input : String) : List Stage :=
  Node.stages (command.nodes []) input

/-- Everything that happens in a run without failure. -/
def Command.events (command : Command σ) (input : String) : List Event :=
  (command.stages input).flatMap Stage.events

namespace Command

theorem stages_eq (command : Command σ) (input : String) :
    command.stages input = command.phaseStages [] input ++ [command.ownStage [] input] :=
  stages_nodes command [] input

theorem follows_events (command : Command σ) (target : σ) (input : String) :
    (command.traced [] target input).Follows (command.events input) := by
  have own : (command.ownStage [] input).events = (command.ownStage [] input).ownEvents := by
    simp [Stage.events, place_ownStage]
  simpa [events, stages_eq, own] using command.follows_traced [] target input

/-- No two commands within a command have one place, so each grammar reads once. -/
theorem nodup_stages (command : Command σ) (input : String) :
    ((command.stages input).map fun stage => stage.place).Nodup := by
  have places := command.nodup_place []
  rwa [← Node.map_toNode_stages (command.nodes []) input, List.map_map] at places

/-- The order of a run.  Every command within a command reads at most once, after its phases and
what the one before it left over, and then calls each setter of a field that it found at most once,
in the order of declaration, with the value made from all occurrences of the field.  A run that
succeeds does all of this and keeps what the outermost grammar left over.  A run that fails stops at
its first failure: the error is that of the rule or setter and the leftover is that of the stage.
The order in which setters are given, at whatever depth, makes no difference. -/
theorem run_in_order (command : Command σ) (target : σ) (input : String) :
    ((command.stages input).map fun stage => stage.place).Nodup ∧
      (∀ stage ∈ command.stages input, (stage.calls.map Prod.fst).Nodup) ∧
      (command.traced [] target input).result = command.run target input ∧
      (∀ outcome, command.run target input = .ok outcome →
        (command.traced [] target input).trace = (command.events input).map (·, none) ∧
          ∃ own, (command.stages input).getLast? = some own ∧ own.place = [] ∧
            outcome.leftover = own.leftover) ∧
      (∀ failure, command.run target input = .error failure →
        ∃ before event after, command.events input = before ++ event :: after ∧
          (command.traced [] target input).trace =
            before.map (·, none) ++ [(event, some failure)] ∧
          event.FailsWith failure) ∧
      ∀ command' : Command σ, command.Rebound command' →
        command'.run target input = command.run target input := by
  have follows := command.follows_events target input
  have runs := command.result_traced [] target input
  refine ⟨command.nodup_stages input, fun stage _ => stage.nodup_calls, runs, ?_, ?_, ?_⟩
  · intro outcome succeeds
    rw [← runs] at succeeds
    cases follows with
    | failed before event after result => simp [result] at succeeds
    | done result trace =>
        refine ⟨trace, command.ownStage [] input, by simp [stages_eq], place_ownStage _ _ _, ?_⟩
        rw [runs] at succeeds
        have kept := command.leftover_of_run [] target input outcome succeeds
        rwa [leftoverOf_nodes] at kept
  · intro failure fails
    rw [← runs] at fails
    cases follows with
    | done result => simp [result] at fails
    | failed before event after result planned trace why =>
        cases result.symm.trans fails
        exact ⟨before, event, after, planned, trace, why⟩
  · intro command' rebound
    exact Rebound.run_eq command command' rebound target input

theorem run_of_mrekk :
    (∃ outcome, Search.command.run Search.empty "mrekk cs>4 -e" = .ok outcome ∧
      (Search.command.traced [] Search.empty "mrekk cs>4 -e").trace =
        (Search.command.events "mrekk cs>4 -e").map (·, none)) ∧
      (∃ failure before event after,
        Search.command.run Search.empty "cs>4 -e -e" = .error failure ∧
        Search.command.events "cs>4 -e -e" = before ++ event :: after ∧
        (Search.command.traced [] Search.empty "cs>4 -e -e").trace =
          before.map (·, none) ++ [(event, some failure)] ∧ event.FailsWith failure) ∧
      ∃ command', Search.command.Rebound command' ∧
        command'.setterNames = ["playcount", "title", "artist", "query", "exact", "username"] ∧
        command'.run Search.empty "mrekk cs>4 -e" =
          Search.command.run Search.empty "mrekk cs>4 -e" := by
  refine ⟨?_, ?_, ?_⟩
  · have succeeded : (Search.read "mrekk cs>4 -e").isOk = true := by decide +kernel
    obtain ⟨outcome, done⟩ := Search.exists_of_isOk succeeded
    have order := (run_in_order Search.command Search.empty "mrekk cs>4 -e").2.2.2.1
    exact ⟨outcome, done, (order outcome done).1⟩
  · have refused : (Search.read "cs>4 -e -e").isOk = false := by decide +kernel
    cases failed : Search.command.run Search.empty "cs>4 -e -e" with
    | ok outcome => simp [Search.read, failed, Except.isOk, Except.toBool] at refused
    | error failure =>
        have order := (run_in_order Search.command Search.empty "cs>4 -e -e").2.2.2.2.1
        obtain ⟨before, event, after, planned, trace, why⟩ := order failure failed
        exact ⟨failure, before, event, after, rfl, planned, trace, why⟩
  · obtain ⟨command', rebound, names⟩ : ∃ command', Search.command.Rebound command' ∧
        command'.setterNames =
          ["playcount", "title", "artist", "query", "exact", "username"] := by
      refine ⟨_, .mk (List.reverse_perm _).symm (.next (.mk (List.Perm.refl _) .done) .done), ?_⟩
      rfl
    have order := (run_in_order Search.command Search.empty "mrekk cs>4 -e").2.2.2.2.2
    exact ⟨command', rebound, names, order command' rebound⟩

end Command

end SearchCommands
