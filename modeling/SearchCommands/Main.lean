import SearchCommands.CommandLine.Session

/-!
# The program

Reads the arguments and the environment, and runs one command or a session on the standard input.
-/

namespace SearchCommands.CommandLine

/-- Writes to both streams. -/
def write (output : Output) : IO Unit := do
  IO.print output.stdout
  (← IO.getStdout).flush
  IO.eprint output.stderr

/-- Writes the output of an ending and gives its exit code. -/
def finish (ending : Ending) : IO UInt32 := do
  write ending.output
  return ending.exitCode.toUInt32

/-- Asks for a line and answers it, until the session ends. -/
partial def converse (options : Options) : IO UInt32 := do
  write ⟨prompt, ""⟩
  let line ← try some <$> (← IO.getStdin).getLine catch _ => pure none
  match line with
  | none => finish unreadable
  | some "" => return 0
  | some line =>
      match step options line with
      | .leave => return 0
      | .goOn output =>
          write output
          converse options

end SearchCommands.CommandLine

open SearchCommands.CommandLine

/-- Runs the program. -/
def main (arguments : List String) : IO UInt32 := do
  match Options.ofArguments arguments with
  | none =>
      IO.eprintln "usage: [--json] [--relation NAME] [--score-relation NAME] [--log FILTER] [COMMAND]"
      finish misused
  | some options =>
      if !loggingStarts (← IO.getEnv "RUST_LOG") options.log then finish unloggable
      else
        match options.command with
        | some command => finish ⟨0, report options command⟩
        | none => converse options
