import Mathlib.Data.List.Basic
import SearchCommands.Pattern

/-!
# How far patterns look back

Of the text before a place, a pattern asks only whether there is any, and what its last character
is.  So it reads on from a place with some text before it as from the same place with more text
before that.
-/

namespace SearchCommands

/-- The same place with more text before all of the text. -/
def Cursor.onto (more : List Char) (cursor : Cursor) : Cursor :=
  ⟨cursor.before ++ more, cursor.after⟩

/-- The same part with more text before all of the text. -/
def Group.onto (more : List Char) (group : Group) : Group :=
  ⟨group.name, group.start.onto more, group.stop.onto more⟩

/-- The same way with more text before all of the text. -/
def Way.onto (more : List Char) (way : Way) : Way :=
  ⟨way.stop.onto more, way.groups.map (Group.onto more)⟩

namespace Cursor

theorem atWordEdge_onto (more : List Char) {cursor : Cursor} (some : cursor.before ≠ []) :
    (cursor.onto more).atWordEdge = cursor.atWordEdge := by
  rcases cursor with ⟨before, after⟩
  rcases List.exists_cons_of_ne_nil some with ⟨c, rest, rfl⟩
  rfl

theorem read?_onto (more : List Char) (same : Char → Char → Bool) (text : List Char)
    (cursor : Cursor) :
    (cursor.onto more).read? same text = (cursor.read? same text).map (onto more) := by
  induction text generalizing cursor with
  | nil => rfl
  | cons expected text ih =>
      rcases cursor with ⟨before, after⟩
      cases after with
      | nil => rfl
      | cons c after =>
          simp only [onto, read?]
          split
          · exact ih ⟨c :: before, after⟩
          · rfl

theorem placesOf_onto (more : List Char) (accepts : Char → Bool) (before after : List Char) :
    placesOf accepts (before ++ more) after = (placesOf accepts before after).map (onto more) := by
  induction after generalizing before with
  | nil => rfl
  | cons c after ih =>
      simp only [placesOf, List.map_cons]
      split
      · exact congrArg (List.cons _) (ih (c :: before))
      · rfl

/-- Reading on leaves some text before the place. -/
theorem Reaches.before_ne_nil {start stop : Cursor} (reaches : start.Reaches stop)
    (some : start.before ≠ []) : stop.before ≠ [] := by
  rcases reaches with ⟨text, _, beforeEq⟩
  simp [beforeEq, some]

end Cursor

theorem Way.andThen_onto (more : List Char) (first second : Way) :
    (first.andThen second).onto more = (first.onto more).andThen (second.onto more) := by
  simp [Way.andThen, Way.onto]

namespace Pattern

/-- With some text before the place, more of it does not matter. -/
theorem ways_onto (more : List Char) (folding : Bool) (pattern : Pattern) {cursor : Cursor}
    (some : cursor.before ≠ []) :
    pattern.ways folding (cursor.onto more) = (pattern.ways folding cursor).map (Way.onto more) := by
  induction pattern generalizing folding cursor with
  | empty => rfl
  | inputStart =>
      have there : (cursor.before ++ more).isEmpty = false := by simp [some]
      have here : cursor.before.isEmpty = false := by simp [some]
      simp [ways, Cursor.onto, here, there]
  | inputEnd =>
      rcases cursor with ⟨before, after⟩
      cases after <;> rfl
  | wordEdge =>
      simp only [ways, Cursor.atWordEdge_onto more some]
      split <;> rfl
  | one set =>
      rcases cursor with ⟨before, after⟩
      cases after with
      | nil => rfl
      | cons c after =>
          simp only [ways, Cursor.onto]
          split <;> rfl
  | oneOrMore set =>
      simp only [ways, Cursor.places, Cursor.onto, Cursor.placesOf_onto, List.map_tail,
        List.map_reverse, List.map_map]
      rfl
  | anyNumber set =>
      simp only [ways, Cursor.places, Cursor.onto, Cursor.placesOf_onto, List.map_reverse,
        List.map_map]
      rfl
  | literal text =>
      simp only [ways, Cursor.read?_onto, Option.toList_map, List.map_map]
      rfl
  | andThen first second ihFirst ihSecond =>
      simp only [ways, ihFirst folding some, List.flatMap_map, List.map_flatMap]
      apply List.flatMap_congr
      intro way member
      have onwards := (reaches_of_mem_ways member).before_ne_nil some
      simp only [Way.onto, ihSecond folding onwards, List.map_map]
      apply List.map_congr_left
      intro next _
      exact (Way.andThen_onto more way next).symm
  | orElse left right ihLeft ihRight =>
      simp only [ways, ihLeft folding some, ihRight folding some, List.map_append]
  | optional body ih => simp only [ways, ih folding some, List.map_append]; rfl
  | grouped body ih => exact ih folding some
  | anyCase body ih => exact ih true some
  | captured name body ih =>
      simp only [ways, ih folding some, List.map_map]
      rfl

end Pattern

end SearchCommands
