import SearchCommands.Beatmap.Command
import SearchCommands.Search.Basic

/-!
# Search commands

The command that reads searches: the criteria for the beatmap are a phase of their own, and what
they leave over is read for the player, the texts and the play count.
-/

namespace SearchCommands.Search

/-- The fields that the command reads itself. -/
inductive Part where
  | username
  | exact
  | query
  | artist
  | title
  | playcount
  deriving DecidableEq, Repr

namespace Part

/-- All parts, in the order of declaration. -/
def all : List Part := [username, exact, query, artist, title, playcount]

/-- The name of the field. -/
def field : Part → String
  | username => "username"
  | exact => "exact"
  | query => "query"
  | artist => "artist"
  | title => "title"
  | playcount => "playcount"

/-- What the field reads. -/
def kind : Part → FieldKind
  | exact => .flag
  | playcount => .number true true
  | username | query | artist | title => .text true

/-- The aliases of the field; the player has none and starts the command. -/
def aliases : Part → List String
  | username => []
  | exact => ["-e", "--exact"]
  | query => ["-q", "--query"]
  | artist => ["-a", "--artist"]
  | title => ["-t", "--title"]
  | playcount => ["c", "pc", "playcount", "count"]

/-- The rules of the field: everything at most once but the play count, which can be a range, and a
query excludes artist and title. -/
def rules : Part → List Rule
  | username | exact => [.atMost 1]
  | query => [.atMost 1, .excludes "artist", .excludes "title"]
  | artist | title => [.atMost 1, .excludes "query"]
  | playcount => [.atMost 2]

/-- The declaration of the field. -/
def declaration (part : Part) : Field := ⟨part.field, part.kind, part.aliases, part.rules⟩

/-- Puts a value into the search. -/
def put (part : Part) (value : FieldValue) (search : Search) : Except Rejection Search :=
  match part with
  | username => return { search with username := ← value.requireText part.field }
  | exact => return { search with exact := ← value.requireFlag part.field }
  | query => return { search with query := some (← value.requireText part.field) }
  | artist => return { search with artist := some (← value.requireText part.field) }
  | title => return { search with title := some (← value.requireText part.field) }
  | playcount => do
      let comparison ← value.requireComparison part.field
      let filter ← Filter.ofComparison comparison
      return { search with playcount := some filter }

/-- The setter of the field. -/
def setter (part : Part) : Setter Search where
  field := part.field
  assign value search := (part.put value search).mapError .rejected

end Part

/-- The fields that the command reads itself, as a grammar. -/
def grammar : Grammar := ⟨Part.all.map Part.declaration, by decide +kernel⟩

/-- Criteria belong to a search only if they constrain anything. -/
def putCriteria (criteria : Beatmap.Criteria) (search : Search) : Search :=
  if criteria.isEmpty then search else { search with beatmap := some criteria }

/-- The command that reads searches. -/
def command : Command Search :=
  .mk grammar (Part.all.map Part.setter) (by decide +kernel)
    (.next Beatmap.Criteria.command Beatmap.Criteria.empty putCriteria .done)

/-- Reads a search from the text after the name of the command. -/
def read (input : String) : Except Failure (Outcome Search) := command.run empty input

end SearchCommands.Search
