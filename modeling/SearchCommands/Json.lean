import SearchCommands.Filter

/-!
# JSON documents

The results of commands can be written as JSON, on one line or indented. Numbers are binary32
numbers; those that are not finite have no place in JSON and are written as `null`.
-/

namespace SearchCommands

open Number

/-- A JSON value, without arrays, which no result needs. -/
inductive Json where
  | null
  | bool (value : Bool)
  | number (value : Binary32)
  | string (value : String)
  | object (members : List (String × Json))

namespace Json

/-- The style of numbers in documents: powers of ten outside the range from `10⁻⁶` to `10¹²`, and
whole numbers with a zero after the point. -/
def numberStyle : Style := ⟨fun exponent => -6 ≤ exponent && exponent ≤ 12, ['.', '0'], false⟩

/-- The text of a number. -/
def numberText : Binary32 → String
  | .finite negative place => String.ofList (numberStyle.finite negative place.val)
  | _ => "null"

/-- A character as it stands in a JSON string. -/
def stringChar (c : Char) : List Char :=
  match c with
  | '"' => ['\\', '"']
  | '\\' => ['\\', '\\']
  | '\x08' => ['\\', 'b']
  | '\x0c' => ['\\', 'f']
  | '\n' => ['\\', 'n']
  | '\r' => ['\\', 'r']
  | '\t' => ['\\', 't']
  | c =>
      if c.toNat < 0x20 then
        ['\\', 'u', '0', '0', Nat.digitChar (c.toNat / 16), Nat.digitChar (c.toNat % 16)]
      else [c]

/-- The text of a string. -/
def stringText (text : String) : String :=
  String.ofList ('"' :: text.toList.flatMap stringChar ++ ['"'])

/-- The text of a value that holds no others. -/
def leafText : Json → String
  | bool true => "true"
  | bool false => "false"
  | number value => numberText value
  | string value => stringText value
  | _ => "null"

mutual

/-- The document on one line, without blanks. -/
def compact : Json → String
  | object members => "\x7b" ++ ",".intercalate (compactMembers members) ++ "\x7d"
  | leaf => leaf.leafText

/-- The members of an object on one line. -/
def compactMembers : List (String × Json) → List String
  | [] => []
  | (name, value) :: rest => (stringText name ++ ":" ++ value.compact) :: compactMembers rest

end

/-- The start of a line at a depth of nesting. -/
def newLine (depth : Nat) : String := "\n" ++ String.ofList (List.replicate (2 * depth) ' ')

mutual

/-- The document with every member on a line of its own, indented by two blanks for each object
around it. -/
def prettyAt (depth : Nat) : Json → String
  | object [] => "\x7b\x7d"
  | object (member :: rest) =>
      "\x7b" ++ ",".intercalate (prettyMembers (depth + 1) (member :: rest)) ++
        newLine depth ++ "\x7d"
  | leaf => leaf.leafText

/-- The members of an object, each after the start of its line. -/
def prettyMembers (depth : Nat) : List (String × Json) → List String
  | [] => []
  | (name, value) :: rest =>
      (newLine depth ++ stringText name ++ ": " ++ value.prettyAt depth) ::
        prettyMembers depth rest

end

/-- The document with every member on a line of its own. -/
def pretty (document : Json) : String := document.prettyAt 0

end Json

/-- The members that describe a bound. -/
def Bound.members (bound : Bound Binary32) : List (String × Json) :=
  [("operator", .string bound.operator.name), ("value", .number bound.value)]

/-- The members that describe a range. -/
def Range.members (range : Range) : List (String × Json) :=
  [("min", .object range.lower.members), ("max", .object range.upper.members)]

/-- The document of a filter names its form before the members of that form. -/
def Filter.toJson : Filter → Json
  | .single bound => .object (("type", .string "single") :: bound.members)
  | .between range => .object (("type", .string "between") :: range.members)

/-- The document of a value that may be absent. -/
def Json.ofOption (toJson : α → Json) : Option α → Json
  | some value => toJson value
  | none => .null

end SearchCommands
