/-!
# Options of the command line

The arguments of the program are options, which start with two minus signs, and at most one command
to run. The value of an option is the rest of the argument after an equals sign or else the next
argument. After an argument of two minus signs alone everything is a command.
-/

namespace SearchCommands.CommandLine

/-- What the arguments ask for. -/
structure Options where
  /-- Whether searches are written as JSON. -/
  json : Bool
  /-- The relation of beatmaps in clauses. -/
  relation : String
  /-- The relation of scores in clauses. -/
  scoreRelation : String
  /-- What is logged, unless the environment says so. -/
  log : String
  /-- The command to run; without one, commands are read line by line. -/
  command : Option String
  deriving DecidableEq, Repr

/-- The options that take a value. -/
inductive ValueOption where
  | relation
  | scoreRelation
  | log
  deriving DecidableEq, Repr

/-- The option of a name. -/
def ValueOption.ofName : String → Option ValueOption
  | "relation" => some relation
  | "score-relation" => some scoreRelation
  | "log" => some log
  | _ => none

/-- The options given so far, each with its value. -/
structure Given where
  json : Bool
  values : List (ValueOption × String)
  command : Option String
  deriving DecidableEq, Repr

namespace Given

/-- No option at all. -/
def nothing : Given := ⟨false, [], none⟩

/-- Gives an option its value, which it can have only once. -/
def setValue (given : Given) (option : ValueOption) (value : String) : Option Given :=
  if (given.values.lookup option).isSome then none
  else some { given with values := (option, value) :: given.values }

/-- Asks for JSON, which can be asked for only once. -/
def setJson (given : Given) : Option Given :=
  if given.json then none else some { given with json := true }

/-- Gives the command, of which there can be only one. -/
def setCommand (given : Given) (command : String) : Option Given :=
  if given.command.isSome then none else some { given with command := some command }

/-- The value of an option, or what it is if it is not given. -/
def valueOr (given : Given) (option : ValueOption) (default : String) : String :=
  (given.values.lookup option).getD default

/-- The options with the usual values for those that are not given. -/
def options (given : Given) : Options where
  json := given.json
  relation := given.valueOr .relation "beatmaps"
  scoreRelation := given.valueOr .scoreRelation "scores"
  log := given.valueOr .log "warn"
  command := given.command

end Given

/-- What one argument is. -/
inductive Argument where
  /-- Two minus signs alone, after which everything is a command. -/
  | separator
  /-- An option, with a value if the argument has one after an equals sign. -/
  | option (name : String) (value : Option String)
  /-- A minus sign and letters, which the program has no use for. -/
  | letters
  /-- A plain word. -/
  | word (text : String)
  deriving DecidableEq, Repr

/-- Takes an argument apart. A minus sign alone is a plain word. -/
def Argument.ofText (text : String) : Argument :=
  match text.toList with
  | ['-', '-'] => separator
  | '-' :: '-' :: rest =>
      let name := String.ofList (rest.takeWhile (· != '='))
      match rest.dropWhile (· != '=') with
      | [] => option name none
      | _ :: value => option name (some (String.ofList value))
  | '-' :: _ :: _ => letters
  | _ => word text

/-- Takes in the arguments after a separator, all of them commands. -/
def commandsOnly (given : Given) : List String → Option Given
  | [] => some given
  | text :: rest => (given.setCommand text).bind fun given => commandsOnly given rest

/-- Takes in arguments one after the other; there is no result if any of them is out of place. -/
def takeIn (given : Given) : List String → Option Given
  | [] => some given
  | text :: rest =>
      match Argument.ofText text with
      | .separator => commandsOnly given rest
      | .letters => none
      | .word text => (given.setCommand text).bind fun given => takeIn given rest
      | .option "json" none => given.setJson.bind fun given => takeIn given rest
      | .option name value =>
          match ValueOption.ofName name, value, rest with
          | none, _, _ => none
          | some option, some value, rest =>
              (given.setValue option value).bind fun given => takeIn given rest
          | some _, none, [] => none
          | some option, none, next :: rest =>
              match Argument.ofText next with
              | .word value => (given.setValue option value).bind fun given => takeIn given rest
              | _ => none

/-- The options that the arguments of the program ask for, if they make sense. -/
def Options.ofArguments (arguments : List String) : Option Options :=
  (takeIn .nothing arguments).map Given.options

end SearchCommands.CommandLine
