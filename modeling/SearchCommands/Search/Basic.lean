import SearchCommands.Beatmap.Criteria

/-!
# Searches

A search asks for the plays of a player: texts to look for, how often a map was played, and criteria
for the beatmap. It has a canonical text, which is a command that asks for the same search.
-/

namespace SearchCommands

/-- The name of the player in a search that names none. -/
def unspecifiedName : String := "unspecified"

/-- What a command can ask for. -/
structure Search where
  username : String
  exact : Bool
  query : Option String
  artist : Option String
  title : Option String
  playcount : Option Filter
  beatmap : Option Beatmap.Criteria

namespace Search

/-- The search that asks for nothing. -/
def empty : Search := ⟨unspecifiedName, false, none, none, none, none, none⟩

instance : Inhabited Search := ⟨empty⟩

/-- The search for the plays of one player. -/
def forPlayer (username : String) : Search := { empty with username := username }

instance : BEq Search where
  beq a b :=
    a.username == b.username && a.exact == b.exact && a.query == b.query && a.artist == b.artist &&
      a.title == b.title && a.playcount == b.playcount && a.beatmap == b.beatmap

/-- Whether the search names a player. -/
def hasUsername (search : Search) : Bool := search.username != unspecifiedName

/-- The conditions of the search: the play count in one relation, the criteria in another. -/
def conditions (search : Search) (scoreRelation beatmapRelation : String) : List Condition :=
  (search.playcount.toList.flatMap fun filter => filter.conditions scoreRelation "playcount") ++
    search.beatmap.toList.flatMap fun criteria => criteria.conditions beatmapRelation

/-- The clauses of the search: one for the play count, one for each constrained measure. -/
def clauses (search : Search) (scoreRelation beatmapRelation : String) : List String :=
  (search.playcount.toList.map fun filter => filter.clause scoreRelation "playcount") ++
    search.beatmap.toList.flatMap fun criteria => criteria.clauses beatmapRelation

/-- A text as it stands in a command. -/
def quote (text : String) : String := "\"" ++ text ++ "\""

/-- A text after the alias of its field. -/
def textPart (flag : String) (text : Option String) : List String :=
  text.toList.map fun text => flag ++ " " ++ quote text

/-- The parts of the canonical text. Texts stand in quotation marks, so that none of them is taken
for another part. -/
def parts (search : Search) : List String :=
  (if search.hasUsername then [quote search.username] else []) ++
    (if search.exact then ["-e"] else []) ++
    textPart "-q" search.query ++ textPart "-a" search.artist ++ textPart "-t" search.title ++
    (search.playcount.toList.flatMap fun filter => filter.bounds.map fun bound =>
      "c" ++ bound.text) ++
    ((search.beatmap.toList.filter fun criteria => !criteria.isEmpty).map Beatmap.Criteria.text)

/-- The canonical text of the search. -/
def text (search : Search) : String := " ".intercalate search.parts

/-- The document of the search. -/
def toJson (search : Search) : Json :=
  .object [
    ("username", .string search.username),
    ("exact", .bool search.exact),
    ("query", Json.ofOption .string search.query),
    ("artist", Json.ofOption .string search.artist),
    ("title", Json.ofOption .string search.title),
    ("playcount", Json.ofOption Filter.toJson search.playcount),
    ("beatmap", Json.ofOption Beatmap.Criteria.toJson search.beatmap)]

end Search

end SearchCommands
