import SearchCommands.Cursor
import SearchCommands.Text.CaseFold

/-!
# Patterns

A pattern describes texts. Matching it at a place gives all ways in which it can read on from
there, in order of preference: an alternative prefers its left side, an optional part and a
repetition prefer to read as much as they can. The first way is the match. A way also remembers the
groups that the pattern captured. A pattern can be shown in the usual notation of regular
expressions, where a character that has a meaning in that notation stands after a backslash.

The main statement of this module is `Pattern.reaches_of_mem_ways`: every way reads on in the text.
-/

namespace SearchCommands

/-- The sets of characters that patterns read. Each is closed under changes of letter case. -/
inductive CharSet where
  /-- The blanks. -/
  | blank
  /-- The ASCII digits. -/
  | digit
  /-- The minus sign alone. -/
  | minus
  /-- The characters of a bare word: neither blanks nor quotation marks. -/
  | bare
  /-- The first characters of a bare word, which starts with no minus sign. -/
  | bareStart
  /-- Everything between quotation marks. -/
  | betweenQuotes
  deriving DecidableEq, Repr

/-- Whether a character is in the set. -/
def CharSet.contains : CharSet → Char → Bool
  | .blank, c => Text.isBlank c
  | .digit, c => c.isDigit
  | .minus, c => c == '-'
  | .bare, c => !Text.isBlank c && c != '"'
  | .bareStart, c => !Text.isBlank c && c != '"' && c != '-'
  | .betweenQuotes, c => c != '"'

/-- A description of texts. -/
inductive Pattern where
  /-- Reads nothing. -/
  | empty
  /-- Reads nothing, before the whole text only. -/
  | inputStart
  /-- Reads nothing, after the whole text only. -/
  | inputEnd
  /-- Reads nothing, where a word starts or ends. -/
  | wordEdge
  /-- Reads one character of a set. -/
  | one (set : CharSet)
  /-- Reads characters of a set, at least one and as many as possible. -/
  | oneOrMore (set : CharSet)
  /-- Reads characters of a set, as many as possible. -/
  | anyNumber (set : CharSet)
  /-- Reads the given characters. -/
  | literal (text : List Char)
  /-- Reads the one and then the other. -/
  | andThen (first second : Pattern)
  /-- Reads the one or, failing that, the other. -/
  | orElse (left right : Pattern)
  /-- Reads the pattern if possible. -/
  | optional (body : Pattern)
  /-- The pattern in brackets. -/
  | grouped (body : Pattern)
  /-- The pattern with literals in any letter case. -/
  | anyCase (body : Pattern)
  /-- The pattern, remembered under a name. -/
  | captured (name : String) (body : Pattern)
  deriving DecidableEq, Repr

/-- A part of a match that was captured under a name. -/
structure Group where
  /-- The name that the pattern gives the part. -/
  name : String
  /-- Where the part starts. -/
  start : Cursor
  /-- Where the part stops. -/
  stop : Cursor

/-- The text of the part. -/
def Group.text (group : Group) : List Char := group.start.textTo group.stop

/-- One way to match a pattern. -/
structure Way where
  /-- Where the pattern has been read. -/
  stop : Cursor
  /-- The captured parts, in the order in which they start. -/
  groups : List Group

/-- The part captured under a name. -/
def Way.group? (way : Way) (name : String) : Option Group :=
  way.groups.find? fun group => group.name == name

/-- Goes on from where the first way stopped. -/
def Way.andThen (first second : Way) : Way := ⟨second.stop, first.groups ++ second.groups⟩

namespace Pattern

/-- A choice among patterns, the first one preferred. -/
def anyOf : List Pattern → Pattern
  | [] => empty
  | [only] => only
  | first :: second :: rest => orElse first (anyOf (second :: rest))

/-- The patterns one after the other. -/
def inOrder : List Pattern → Pattern
  | [] => empty
  | [only] => only
  | first :: second :: rest => andThen first (inOrder (second :: rest))

/-- All ways to match a pattern at a place, the preferred ones first. Letters are compared up to
case if `folding` is set. -/
def ways (folding : Bool) : Pattern → Cursor → List Way
  | empty, cursor => [⟨cursor, []⟩]
  | inputStart, cursor => if cursor.before.isEmpty then [⟨cursor, []⟩] else []
  | inputEnd, cursor => if cursor.after.isEmpty then [⟨cursor, []⟩] else []
  | wordEdge, cursor => if cursor.atWordEdge then [⟨cursor, []⟩] else []
  | one set, ⟨before, c :: after⟩ =>
      if set.contains c then [⟨⟨c :: before, after⟩, []⟩] else []
  | one _, ⟨_, []⟩ => []
  | oneOrMore set, cursor => (cursor.places set.contains).tail.reverse.map (⟨·, []⟩)
  | anyNumber set, cursor => (cursor.places set.contains).reverse.map (⟨·, []⟩)
  | literal text, cursor =>
      (cursor.read? (if folding then Text.sameLetter else (· == ·)) text).toList.map (⟨·, []⟩)
  | andThen first second, cursor =>
      (first.ways folding cursor).flatMap fun way =>
        (second.ways folding way.stop).map way.andThen
  | orElse left right, cursor => left.ways folding cursor ++ right.ways folding cursor
  | optional body, cursor => body.ways folding cursor ++ [⟨cursor, []⟩]
  | grouped body, cursor => body.ways folding cursor
  | anyCase body, cursor => body.ways true cursor
  | captured name body, cursor =>
      (body.ways folding cursor).map fun way => ⟨way.stop, ⟨name, cursor, way.stop⟩ :: way.groups⟩

/-- The preferred way at a place, if the pattern matches there. -/
def match? (pattern : Pattern) (cursor : Cursor) : Option Way :=
  (pattern.ways false cursor).head?

/-- The names of the groups that a pattern captures. -/
def groupNames : Pattern → List String
  | andThen first second => first.groupNames ++ second.groupNames
  | orElse left right => left.groupNames ++ right.groupNames
  | optional body | grouped body | anyCase body => body.groupNames
  | captured name body => name :: body.groupNames
  | _ => []

/-- Every way reads on in the text. -/
theorem reaches_of_mem_ways {folding : Bool} {pattern : Pattern} {cursor : Cursor} {way : Way}
    (member : way ∈ pattern.ways folding cursor) : cursor.Reaches way.stop := by
  induction pattern generalizing folding cursor way with
  | empty => simp_all [ways, Cursor.Reaches.refl]
  | inputStart | inputEnd | wordEdge =>
      simp only [ways] at member
      split at member <;> simp_all [Cursor.Reaches.refl]
  | one set =>
      obtain ⟨before, after⟩ := cursor
      cases after with
      | nil => simp [ways] at member
      | cons c after =>
          simp only [ways] at member
          split at member <;> simp_all [Cursor.Reaches.step]
  | oneOrMore set =>
      simp only [ways, List.mem_map, List.mem_reverse] at member
      obtain ⟨place, placeMember, rfl⟩ := member
      exact Cursor.reaches_of_mem_placesOf (List.mem_of_mem_tail placeMember)
  | anyNumber set =>
      simp only [ways, List.mem_map, List.mem_reverse] at member
      obtain ⟨place, placeMember, rfl⟩ := member
      exact Cursor.reaches_of_mem_placesOf placeMember
  | literal text =>
      simp only [ways, List.mem_map, Option.mem_toList] at member
      obtain ⟨place, found, rfl⟩ := member
      exact Cursor.reaches_of_read? found
  | andThen first second ihFirst ihSecond =>
      simp only [ways, List.mem_flatMap, List.mem_map] at member
      obtain ⟨left, leftMember, right, rightMember, rfl⟩ := member
      have onwards : left.stop.Reaches right.stop := ihSecond rightMember
      exact (ihFirst leftMember).trans onwards
  | orElse left right ihLeft ihRight =>
      simp only [ways, List.mem_append] at member
      exact member.elim ihLeft ihRight
  | optional body ih =>
      simp only [ways, List.mem_append, List.mem_singleton] at member
      rcases member with member | rfl
      · exact ih member
      · exact .refl cursor
  | grouped body ih => exact ih member
  | anyCase body ih => exact ih member
  | captured name body ih =>
      simp only [ways, List.mem_map] at member
      obtain ⟨inner, innerMember, rfl⟩ := member
      have onwards : cursor.Reaches inner.stop := ih innerMember
      exact onwards

end Pattern

/-- The characters that stand for themselves only after a backslash. -/
def Pattern.specials : List Char :=
  ['\\', '.', '+', '*', '?', '(', ')', '|', '[', ']', '\x7b', '\x7d', '^', '$', '#', '&', '-', '~']

/-- A text that stands for itself. -/
def Pattern.escaped (text : List Char) : String :=
  String.ofList (text.flatMap fun c => if specials.contains c then ['\\', c] else [c])

/-- A set of characters in the notation of regular expressions. -/
def CharSet.source : CharSet → String
  | .blank => "\\s"
  | .digit => "[0-9]"
  | .minus => "-"
  | .bare => "[^\\s\"]"
  | .bareStart => "[^\\s\"\\-]"
  | .betweenQuotes => "[^\"]"

/-- A pattern in the notation of regular expressions. -/
def Pattern.source : Pattern → String
  | empty => ""
  | inputStart => "^"
  | inputEnd => "$"
  | wordEdge => "\\b"
  | one set => set.source
  | oneOrMore set => set.source ++ "+"
  | anyNumber set => set.source ++ "*"
  | literal text => escaped text
  | andThen first second => first.source ++ second.source
  | orElse left right => left.source ++ "|" ++ right.source
  | optional body => body.source ++ "?"
  | grouped body => "(?:" ++ body.source ++ ")"
  | anyCase body => "(?i:" ++ body.source ++ ")"
  | captured name body => "(?P<" ++ name ++ ">" ++ body.source ++ ")"

end SearchCommands
