import SearchCommands.CommandLine.Report
import SearchCommands.Text.Blank

/-!
# Sessions

The program runs one command and ends, or it reads commands line by line and asks for each with a
prompt. A line is trimmed; an empty one is passed over, and `/bye` ends the session like the end of
the input does.

Before that it decides whether logging can start. What is logged is given by directives with commas
between them: a level, the name of a part of the program, or a name, an equals sign and a level.
Only the levels are checked.
-/

namespace SearchCommands.CommandLine

/-- The names of the levels. -/
def levelNames : List String := ["off", "error", "warn", "info", "debug", "trace"]

/-- Whether a text is a level: a name in any letter case or a digit up to five. No text at all
stands for the finest level. -/
def isLevel (text : List Char) : Bool :=
  text.isEmpty || levelNames.contains (String.ofList (text.map Char.toLower)) ||
    ["0", "1", "2", "3", "4", "5"].contains (String.ofList text)

/-- Whether a directive is valid. -/
def isDirective (text : List Char) : Bool :=
  match text.dropWhile (· != '=') with
  | [] => true
  | _ :: level => isLevel level

/-- Whether directives with commas between them are valid. -/
def areDirectives (text : String) : Bool :=
  (text.toList.splitOn ',').all fun directive => isDirective (Text.trim directive)

/-- What is said of a level that is none. -/
def levelMessage : String :=
  "error parsing level filter: expected one of \"off\", \"error\", \"warn\", \"info\", " ++
    "\"debug\", \"trace\", or a number 0-5"

/-- Whether logging can start: the environment decides if it is set and valid, and else the
option does. -/
def loggingStarts (environment : Option String) (option : String) : Bool :=
  environment.any areDirectives || areDirectives option

/-- What stands before every line that is read. -/
def prompt : String := "> "

/-- The line that ends a session. -/
def farewell : String := "/bye"

/-- What to do with a line. -/
inductive Step where
  /-- Write something and ask for the next line. -/
  | goOn (output : Output)
  /-- End the session. -/
  | leave
  deriving DecidableEq, Repr

/-- What to do with a line of a session. -/
def step (options : Options) (line : String) : Step :=
  let command := String.ofList (Text.trim line.toList)
  if command.isEmpty then .goOn .empty
  else if command == farewell then .leave
  else .goOn (report options command)

/-- What the program wrote, and the exit code with which it ends. -/
structure Ending where
  exitCode : Nat
  output : Output
  deriving DecidableEq, Repr

/-- Writes something before an ending. -/
def Ending.after (output : Output) (ending : Ending) : Ending :=
  { ending with output := output ++ ending.output }

/-- The ending for a cause and the circumstances in which it arose. -/
def failed (circumstances cause : String) : Ending :=
  ⟨1, .ofErrorLines ["Error: " ++ circumstances, "", "Caused by:", "    " ++ cause]⟩

/-- The ending when a line is not UTF-8. -/
def unreadable : Ending :=
  failed "failed to read stdin" "stream did not contain valid UTF-8"

/-- The ending when the log directives are not valid. -/
def unloggable : Ending := failed levelMessage levelMessage

/-- The ending when the arguments make no sense. What is to be said about it depends on nothing but
the program, and the caller says it. -/
def misused : Ending := ⟨2, .empty⟩

/-- Runs a session on lines; a line that is not UTF-8 has no text. -/
def session (options : Options) : List (Option String) → Ending
  | [] => ⟨0, ⟨prompt, ""⟩⟩
  | none :: _ => unreadable.after ⟨prompt, ""⟩
  | some line :: rest =>
      match step options line with
      | .leave => ⟨0, ⟨prompt, ""⟩⟩
      | .goOn output => (session options rest).after (⟨prompt, ""⟩ ++ output)

/-- Splits bytes into lines, without the line feeds that end them. What follows the last line feed
is a line if it is not empty. -/
def splitLines (bytes : List UInt8) : List (List UInt8) :=
  let lines := bytes.splitOn 0x0A
  if lines.getLast? = some [] then lines.dropLast else lines

/-- The text of a line, if it is UTF-8. -/
def lineText (bytes : List UInt8) : Option String := String.fromUTF8? ⟨bytes.toArray⟩

/-- Runs the program on its arguments, the log directives of the environment and its input. -/
def run (arguments : List String) (environment : Option String) (input : List UInt8) : Ending :=
  match Options.ofArguments arguments with
  | none => misused
  | some options =>
      if !loggingStarts environment options.log then unloggable
      else
        match options.command with
        | some command => ⟨0, report options command⟩
        | none => session options ((splitLines input).map lineText)

end SearchCommands.CommandLine
