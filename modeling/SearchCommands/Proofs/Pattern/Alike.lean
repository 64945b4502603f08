import Mathlib.Data.List.Flatten
import Mathlib.Data.List.Forall2
import SearchCommands.Field.Pattern

/-!
# Patterns at places that are alike

A pattern preserves a relation between places if at related places it has the same ways, in the same
order, up to the relation.  Whatever the relation, the combinations of patterns preserve it where
their parts do; only the patterns that look at the text are a matter of the relation.
-/

namespace SearchCommands

variable {alike : Cursor → Cursor → Prop} {folding : Bool}

/-- The same part of the pattern, between related places. -/
structure Group.Alike (alike : Cursor → Cursor → Prop) (group group' : Group) : Prop where
  name : group.name = group'.name
  start : alike group.start group'.start
  stop : alike group.stop group'.stop

/-- The same parts, with related ends. -/
structure Way.Alike (alike : Cursor → Cursor → Prop) (way way' : Way) : Prop where
  stop : alike way.stop way'.stop
  groups : List.Forall₂ (Group.Alike alike) way.groups way'.groups

namespace Way.Alike

variable {way way' : Way} (same : way.Alike alike way')

include same

theorem group? (name : String) :
    Option.Rel (Group.Alike alike) (way.group? name) (way'.group? name) := by
  have groups := same.groups
  rw [Way.group?, Way.group?]
  generalize way.groups = groups, way'.groups = groups' at groups
  induction groups with
  | nil => exact .none
  | cons first _ ih =>
      rw [List.find?_cons, List.find?_cons, first.name]
      split
      · exact .some first
      · exact ih

/-- What the relation says about the text between two places, it says about captured texts. -/
theorem capturedText {texts : List Char → List Char → Prop} (nothing : texts [] [])
    (between : ∀ {start start' stop stop'}, alike start start' → alike stop stop' →
      texts (start.textTo stop) (start'.textTo stop')) (name : String) :
    texts (Field.capturedText way name) (Field.capturedText way' name) := by
  have found := same.group? name
  rw [Field.capturedText, Field.capturedText]
  generalize way.group? name = group, way'.group? name = group' at found
  cases found with
  | none => exact nothing
  | some group => exact between group.start group.stop

end Way.Alike

namespace Pattern

/-- At related places the pattern has the same ways, up to the relation. -/
def Preserves (alike : Cursor → Cursor → Prop) (folding : Bool) (pattern : Pattern) : Prop :=
  ∀ ⦃cursor cursor' : Cursor⦄, alike cursor cursor' →
    List.Forall₂ (Way.Alike alike) (pattern.ways folding cursor) (pattern.ways folding cursor')

/-- A test that has the same result at two places reads nothing at both or fails at both. -/
theorem alike_test {cursor cursor' : Cursor} {test test' : Bool} (tests : test = test')
    (same : alike cursor cursor') :
    List.Forall₂ (Way.Alike alike) (if test then [⟨cursor, []⟩] else [])
      (if test' then [⟨cursor', []⟩] else []) := by
  subst tests
  split
  · exact .cons ⟨same, .nil⟩ .nil
  · exact .nil

theorem alike_places {places places' : List Cursor} (same : List.Forall₂ alike places places') :
    List.Forall₂ (Way.Alike alike) (places.reverse.map (⟨·, []⟩))
      (places'.reverse.map (⟨·, []⟩)) := by
  rw [List.forall₂_map_left_iff, List.forall₂_map_right_iff]
  exact (List.rel_reverse same).imp fun _ _ place => ⟨place, .nil⟩

theorem alike_tail_places {places places' : List Cursor} (same : List.Forall₂ alike places places') :
    List.Forall₂ (Way.Alike alike) (places.tail.reverse.map (⟨·, []⟩))
      (places'.tail.reverse.map (⟨·, []⟩)) := by
  cases same with
  | nil => exact .nil
  | cons _ rest => exact alike_places rest

theorem alike_read {stop stop' : Option Cursor} (same : Option.Rel alike stop stop') :
    List.Forall₂ (Way.Alike alike) (stop.toList.map (⟨·, []⟩)) (stop'.toList.map (⟨·, []⟩)) := by
  cases same with
  | none => exact .nil
  | some sameStop => exact .cons ⟨sameStop, .nil⟩ .nil

namespace Preserves

variable {first second body : Pattern}

theorem empty : Pattern.empty.Preserves alike folding :=
  fun _ _ same => .cons ⟨same, .nil⟩ .nil

theorem andThen (left : first.Preserves alike folding) (right : second.Preserves alike folding) :
    (first.andThen second).Preserves alike folding := by
  intro cursor cursor' same
  refine List.rel_flatMap (left same) ?_
  intro head head' sameHead
  simp only [List.forall₂_map_left_iff, List.forall₂_map_right_iff]
  exact (right sameHead.stop).imp fun _ _ tail =>
    ⟨tail.stop, List.rel_append sameHead.groups tail.groups⟩

theorem orElse (left : first.Preserves alike folding) (right : second.Preserves alike folding) :
    (first.orElse second).Preserves alike folding :=
  fun _ _ same => List.rel_append (left same) (right same)

theorem optional (inner : body.Preserves alike folding) :
    body.optional.Preserves alike folding :=
  fun _ _ same => List.rel_append (inner same) (.cons ⟨same, .nil⟩ .nil)

theorem grouped (inner : body.Preserves alike folding) : body.grouped.Preserves alike folding :=
  inner

theorem anyCase (inner : body.Preserves alike true) : body.anyCase.Preserves alike folding :=
  inner

theorem captured (name : String) (inner : body.Preserves alike folding) :
    (body.captured name).Preserves alike folding := by
  intro cursor cursor' same
  simp only [ways, List.forall₂_map_left_iff, List.forall₂_map_right_iff]
  exact (inner same).imp fun _ _ way =>
    ⟨way.stop, .cons ⟨rfl, same, way.stop⟩ way.groups⟩

theorem anyOf {patterns : List Pattern}
    (each : ∀ pattern ∈ patterns, pattern.Preserves alike folding) :
    (Pattern.anyOf patterns).Preserves alike folding := by
  induction patterns with
  | nil => exact empty
  | cons first rest ih =>
      have others := ih fun pattern member => each pattern (List.mem_cons_of_mem first member)
      cases rest with
      | nil => exact each first List.mem_cons_self
      | cons second rest => exact (each first List.mem_cons_self).orElse others

section Fields

open FieldPattern

/-- Aliases are read alike where their letters and the edges of words are. -/
theorem anyAlias {names : List String}
    (letters : ∀ name ∈ names, (literal name.toList).Preserves alike true)
    (edge : wordEdge.Preserves alike true) : (anyAlias names).Preserves alike folding := by
  apply Preserves.anyCase
  apply anyOf
  intro pattern member
  rcases List.mem_map.mp member with ⟨name, inside, rfl⟩
  have own := letters name ((sortAliases_perm names).mem_iff.mp inside)
  unfold oneAlias
  split
  · exact own.andThen edge
  · exact own

theorem operators
    (symbols : ∀ text : List Char, (∀ c ∈ text, c = '<' ∨ c = '=' ∨ c = '>') →
      (literal text).Preserves alike folding) : operators.Preserves alike folding := by
  apply anyOf
  intro pattern member
  rcases List.mem_map.mp member with ⟨symbol, inside, rfl⟩
  apply symbols
  have each : ∀ symbol ∈ [['<', '='], ['>', '='], ['<'], ['>'], ['=']],
      ∀ c ∈ symbol, c = '<' ∨ c = '=' ∨ c = '>' := by decide
  exact each symbol inside

theorem numberValue (signed whole : Bool) (digits : (oneOrMore .digit).Preserves alike folding)
    (minus : (one .minus).Preserves alike folding)
    (point : (literal ['.']).Preserves alike folding) :
    (numberValue signed whole).Preserves alike folding := by
  have fraction : pointDigits.Preserves alike folding := point.andThen digits
  have decimal := ((digits.andThen fraction.grouped.optional).orElse fraction).grouped
  cases signed with
  | false =>
      cases whole with
      | false => exact decimal
      | true => exact digits
  | true =>
      cases whole with
      | false => exact minus.optional.andThen decimal
      | true => exact minus.optional.andThen digits

end Fields

end Preserves

end Pattern

end SearchCommands
