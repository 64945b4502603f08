import SearchCommands.CommandLine.Options
import Mathlib.Tactic.Common

/-!
# Arguments with a command behind them

Arguments are taken in one after the other, so what comes last meets what the arguments before it
gave.  If those have no command of their own, a last argument that is taken as a command changes
nothing else (`Options.ofArguments_command`).
-/

namespace SearchCommands.CommandLine

variable {given taken own : Given} {arguments : List String} {line : String}

theorem commandsOnly_append (rest : List String)
    (goes : commandsOnly given arguments = some taken) :
    commandsOnly given (arguments ++ rest) = commandsOnly taken rest := by
  induction arguments generalizing given with
  | nil => simp_all [commandsOnly]
  | cons text arguments ih =>
      simp only [commandsOnly, Option.bind_eq_some_iff] at goes
      obtain ⟨next, set, goes⟩ := goes
      simpa [commandsOnly, set] using ih goes

/-- After the arguments that were taken in, either everything is a command or the arguments are
told apart as before. -/
theorem takeIn_append (rest : List String) (goes : takeIn given arguments = some taken) :
    takeIn given (arguments ++ rest) = takeIn taken rest ∨
      takeIn given (arguments ++ rest) = commandsOnly taken rest := by
  fun_induction takeIn given arguments with
  | case1 => simp_all
  | case2 given text arguments separator =>
      apply Or.inr
      simpa [takeIn, separator] using commandsOnly_append rest goes
  | case3 | case6 | case8 | case10 => simp at goes
  | case4 given text arguments word isWord ih =>
      obtain ⟨next, set, goes⟩ := Option.bind_eq_some_iff.mp goes
      simpa [takeIn, isWord, set] using ih next goes
  | case5 given text arguments isJson ih =>
      obtain ⟨next, set, goes⟩ := Option.bind_eq_some_iff.mp goes
      simpa [takeIn, isJson, set] using ih next goes
  | case7 given text name option value arguments named other isOption ih =>
      obtain ⟨next, set, goes⟩ := Option.bind_eq_some_iff.mp goes
      simpa [takeIn, isOption, named, set] using ih next goes
  | case9 given text name option value arguments named word isWord other isOption ih =>
      obtain ⟨next, set, goes⟩ := Option.bind_eq_some_iff.mp goes
      simpa [takeIn, isOption, named, isWord, set] using ih next goes

theorem Given.setJson_command (set : given.setJson = some taken) :
    taken.command = given.command := by
  unfold setJson at set
  split at set
  · simp at set
  · simp [← Option.some.inj set]

theorem Given.setValue_command {option : ValueOption} {value : String}
    (set : given.setValue option value = some taken) : taken.command = given.command := by
  unfold setValue at set
  split at set
  · simp at set
  · simp [← Option.some.inj set]

theorem commandsOnly_singleton (free : given.command = none) :
    commandsOnly given [line] = some { given with command := some line } := by
  simp [commandsOnly, Given.setCommand, free]

theorem Argument.eq_of_ofText_word {word : String} (isWord : ofText line = .word word) :
    word = line := by
  unfold ofText at isWord
  split at isWord
  · simp at isWord
  · dsimp only at isWord
    split at isWord <;> simp at isWord
  · simp at isWord
  · simpa using isWord.symm

/-- A single argument that gives a command gives nothing else, and the command is its text. -/
theorem takeIn_singleton (free : given.command = none) (goes : takeIn given [line] = some own)
    (asks : own.command.isSome = true) : own = { given with command := some line } := by
  have changed : own.command ≠ given.command := by
    intro same
    simp [same, free] at asks
  simp only [takeIn] at goes
  split at goes
  case h_1 =>
    obtain rfl := Option.some.inj goes
    exact absurd rfl changed
  case h_2 => simp at goes
  case h_3 word isWord =>
    simpa [Given.setCommand, free, Argument.eq_of_ofText_word isWord, eq_comm] using goes
  case h_4 => exact absurd (Given.setJson_command (by simpa using goes)) changed
  case h_5 =>
    split at goes
    · simp at goes
    · exact absurd (Given.setValue_command (by simpa [takeIn] using goes)) changed
    · simp at goes
    · simp_all

/-- Behind arguments without a command, a last argument that is taken as one asks for the same
options and for the command that it spells. -/
theorem Options.ofArguments_command {options : Options} {asked : Options}
    (before : Options.ofArguments arguments = some options) (free : options.command = none)
    (behind : Options.ofArguments (arguments ++ [line]) = some asked)
    (asks : asked.command.isSome = true) : asked = { options with command := some line } := by
  obtain ⟨taken, goes, rfl⟩ := Option.map_eq_some_iff.mp before
  obtain ⟨own, goesOn, rfl⟩ := Option.map_eq_some_iff.mp behind
  have same : own = { taken with command := some line } := by
    rcases takeIn_append [line] goes with more | more
    · apply takeIn_singleton free _ asks
      simp [← more, goesOn]
    · simpa [goesOn, commandsOnly_singleton free] using more
  simp [same, Given.options, Given.valueOr]

end SearchCommands.CommandLine
