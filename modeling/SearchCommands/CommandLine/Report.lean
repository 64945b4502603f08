import SearchCommands.CommandLine.Options
import SearchCommands.Search.Command

/-!
# Reports

Every command that is run gets a report: what was understood, the clauses of the search and the text
that nothing consumed, or else why the command was refused.
-/

namespace SearchCommands.CommandLine

/-- What the program writes, on its two streams. -/
structure Output where
  stdout : String
  stderr : String
  deriving DecidableEq, Repr

namespace Output

/-- Nothing. -/
def empty : Output := ⟨"", ""⟩

/-- The one after the other. -/
def append (first second : Output) : Output :=
  ⟨first.stdout ++ second.stdout, first.stderr ++ second.stderr⟩

instance : Append Output := ⟨append⟩

/-- Lines on the standard output. -/
def ofLines (lines : List String) : Output := ⟨String.join (lines.map (· ++ "\n")), ""⟩

/-- Lines on the error output. -/
def ofErrorLines (lines : List String) : Output := ⟨"", String.join (lines.map (· ++ "\n"))⟩

end Output

/-- The line for the text that nothing consumed, if there is such a text. -/
def unrecognized (leftover : String) : List String :=
  if leftover.isEmpty then [] else ["unrecognized: " ++ leftover]

/-- The clauses of a search, each with its number. -/
def clauseLines (clauses : List String) : List String :=
  clauses.zipIdx.map fun (clause, index) => s!"[{index}] {clause}"

/-- The search as a document or as a command. -/
def searchLine (options : Options) (search : Search) : String :=
  if options.json then search.toJson.pretty else "search: " ++ search.text

/-- The report on the outcome of a command. -/
def reportOn (options : Options) : Except Failure (Outcome Search) → Output
  | .ok outcome =>
      .ofLines ([searchLine options outcome.value] ++
        clauseLines (outcome.value.clauses options.scoreRelation options.relation) ++
        unrecognized outcome.leftover)
  | .error failure =>
      .ofErrorLines (("Failed to parse: " ++ failure.message) :: unrecognized failure.leftover)

/-- The report on a command. -/
def report (options : Options) (command : String) : Output :=
  reportOn options (Search.read command)

end SearchCommands.CommandLine
