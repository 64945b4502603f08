import SearchCommands.Proofs.Beatmap.Words
import SearchCommands.Search.Command

/-!
# Composed commands

A user composes a search command from items with blanks before them: criteria for the beatmap,
perhaps the name of a player, and then flags, texts, play counts and more criteria in any order.
`Composition` has exactly these commands, `Composition.text` is what is typed and
`Composition.search` is what is asked for.
-/

namespace SearchCommands

open Number Text FieldPattern

/-- The bound with its value read as a number. -/
def Bound.read (bound : Bound String) : Bound Binary32 :=
  ⟨bound.operator, (Binary32.read? bound.value).getD .zero⟩

/-- Bounds that ask for a filter: finite numbers, and at most two of them, whose operators oppose
each other. -/
structure Combinable (bounds : List (Bound String)) : Prop where
  few : bounds.length ≤ 2
  opposed : ∀ first second, bounds = [first, second] → first.operator.Opposes second.operator
  finite : ∀ bound ∈ bounds, ∃ value, Binary32.read? bound.value = some value ∧
    value.isFinite = true

theorem Combinable.nil : Combinable [] where
  few := by simp
  opposed := by simp
  finite := by simp

/-- The range of two bounds by their values: the one with the smaller value is the lower one, and
of two with the same value the first one is. -/
def Range.byValue (first second : Bound Binary32) : Range :=
  if below : second.value < first.value then
    ⟨second, first, Binary32.not_lt_of_le (Binary32.le_of_lt below)⟩
  else ⟨first, second, below⟩

/-- The filter that bounds ask for. -/
def Filter.asked : List (Bound String) → Option Filter
  | [] => none
  | [only] => some (.single only.read)
  | first :: second :: _ => some (.between (Range.byValue first.read second.read))

namespace Search

open Beatmap

/-- The value of a text, as it is typed. -/
inductive Operand where
  | quoted (inside : List Char)
  | bare (word : List Char)

/-- What is typed for a value. -/
def Operand.text : Operand → List Char
  | quoted inside => enclosed inside
  | bare word => word

/-- What a value stands for. -/
def Operand.content : Operand → String
  | quoted inside => String.ofList (trim inside)
  | bare word => String.ofList word

/-- An alias in any letter case, an operator and a number. -/
def IsNumberWord (aliases : List String) (signed whole : Bool) (text : List Char) : Prop :=
  ∃ name ∈ aliases, ∃ found, SpelledAs name.toList found ∧ ∃ operator : Operator,
    operator ≠ .absent ∧ ∃ digits, NumberText signed whole digits ∧
      text = found ++ (operator.symbol.toList ++ digits)

/-- A criterion for the beatmap. -/
def IsCriterion (text : List Char) : Prop :=
  ∃ measure : Measure, IsNumberWord measure.aliases false false text

/-- A play count. -/
def IsPlaycount (text : List Char) : Prop := IsNumberWord Part.playcount.aliases true true text

/-- A text without quotation marks between them, or a bare word that is no criterion. -/
def Operand.IsValid : Operand → Prop
  | quoted inside => '"' ∉ inside
  | bare word => BareWord word ∧ ¬ IsCriterion word

/-- An item of a command. -/
inductive Item where
  | criterion (measure : Measure) (name : List Char) (operator : Operator) (digits : List Char)
  | exact (name : List Char)
  | text (part : Part) (name gap : List Char) (value : Operand)
  | playcount (name : List Char) (operator : Operator) (digits : List Char)

namespace Item

/-- What is typed for the item. -/
def typed : Item → List Char
  | criterion _ name operator digits => name ++ (operator.symbol.toList ++ digits)
  | exact name => name
  | text _ name gap value => name ++ (gap ++ value.text)
  | playcount name operator digits => name ++ (operator.symbol.toList ++ digits)

/-- Whether the item is a criterion. -/
def isCriterion : Item → Bool
  | criterion .. => true
  | _ => false

/-- Whether the item is the flag. -/
def isExact : Item → Bool
  | exact _ => true
  | _ => false

/-- The text of the item, if it is one for the given part. -/
def text? (part : Part) : Item → Option String
  | text other _ _ value => if other = part then some value.content else none
  | _ => none

/-- The bound of the item, if it is a play count. -/
def playcount? : Item → Option (Bound String)
  | playcount _ operator digits => some ⟨operator, String.ofList digits⟩
  | _ => none

/-- The bound of the item, if it is a criterion for the given measure. -/
def criterion? (measure : Measure) : Item → Option (Bound String)
  | criterion other _ operator digits =>
      if other = measure then some ⟨operator, String.ofList digits⟩ else none
  | _ => none

/-- An item as a user can type it: an alias in any letter case, and what belongs to it. -/
def IsValid : Item → Prop
  | criterion measure name operator digits =>
      (∃ written ∈ measure.aliases, SpelledAs written.toList name) ∧ operator ≠ .absent ∧
        Unsigned false digits
  | exact name => ∃ written ∈ Part.exact.aliases, SpelledAs written.toList name
  | text part name gap value =>
      (part = .query ∨ part = .artist ∨ part = .title) ∧
        (∃ written ∈ part.aliases, SpelledAs written.toList name) ∧ gap ≠ [] ∧ AllBlank gap ∧
        value.IsValid
  | playcount name operator digits =>
      (∃ written ∈ Part.playcount.aliases, SpelledAs written.toList name) ∧ operator ≠ .absent ∧
        NumberText true true digits

end Item

/-- A command as a user composes it; every item stands after its blanks. -/
structure Composition where
  /-- Criteria before everything else. -/
  leading : List (List Char × Item)
  /-- The name of the player. -/
  username : Option (List Char × Operand)
  /-- Everything that follows. -/
  items : List (List Char × Item)
  /-- The blanks at the end. -/
  trailing : List Char

namespace Composition

/-- All items in the order of typing. -/
def all (composition : Composition) : List Item :=
  (composition.leading ++ composition.items).map Prod.snd

/-- What is typed, piece by piece, each with the blanks before it. -/
def words (composition : Composition) : List (List Char × List Char) :=
  composition.leading.map (fun item => (item.1, item.2.typed)) ++
    composition.username.toList.map (fun value => (value.1, value.2.text)) ++
    composition.items.map (fun item => (item.1, item.2.typed))

/-- The whole command. -/
def text (composition : Composition) : List Char :=
  composition.words.flatMap (fun word => word.1 ++ word.2) ++ composition.trailing

/-- The texts that are typed for a part. -/
def texts (composition : Composition) (part : Part) : List String :=
  composition.all.filterMap (Item.text? part)

/-- The bounds that are typed for the play count. -/
def playcounts (composition : Composition) : List (Bound String) :=
  composition.all.filterMap Item.playcount?

/-- The bounds that are typed for a measure. -/
def bounds (composition : Composition) (measure : Measure) : List (Bound String) :=
  composition.all.filterMap (Item.criterion? measure)

/-- The criteria that are asked for. -/
def criteria (composition : Composition) : Criteria :=
  ⟨fun measure => Filter.asked (composition.bounds measure)⟩

/-- The search that the command asks for. -/
def search (composition : Composition) : Search where
  username := (composition.username.map fun value => value.2.content).getD unspecifiedName
  exact := composition.all.any Item.isExact
  query := (composition.texts .query).head?
  artist := (composition.texts .artist).head?
  title := (composition.texts .title).head?
  playcount := Filter.asked composition.playcounts
  beatmap := if composition.all.any Item.isCriterion then some composition.criteria else none

/-- The command is typed as the grammar asks. -/
structure IsValid (composition : Composition) : Prop where
  leading : ∀ item ∈ composition.leading, item.2.IsValid ∧ item.2.isCriterion = true
  username : ∀ value ∈ composition.username, value.2.IsValid ∧ ¬ IsPlaycount value.2.text
  items : ∀ item ∈ composition.items, item.2.IsValid
  blank : ∀ word ∈ composition.words, AllBlank word.1
  separated : ∀ word ∈ composition.words.tail, word.1 ≠ []
  trailing : AllBlank composition.trailing

/-- Nothing is asked for twice or against something else. -/
structure IsConsistent (composition : Composition) : Prop where
  exact : composition.all.countP Item.isExact ≤ 1
  texts : ∀ part, (composition.texts part).length ≤ 1
  exclusive : composition.texts .query = [] ∨
    composition.texts .artist = [] ∧ composition.texts .title = []
  playcounts : Combinable composition.playcounts
  bounds : ∀ measure, Combinable (composition.bounds measure)

end Composition

end Search

end SearchCommands
