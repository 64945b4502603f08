import Mathlib.Data.List.Forall2
import SearchCommands.Proofs.Field.Spacing

/-!
# The order among aliases

The aliases of a field are tried in a linear order, the longest first, and not in the order in which
they are declared.  So the first of them that gives a result is the longest one that gives any
(`FieldPattern.findSome?_sortAliases_eq_some_iff`), in whatever order and however often they are
declared.  Only results matter for a match: `Pattern.Agrees` compares two patterns by the first
result among their ways, and patterns that agree can replace each other in every pattern.
-/

namespace SearchCommands

open Text Pattern FieldPattern

namespace FieldPattern

theorem precedes_iff {left right : String} : precedes left right = true ↔
    byteLength right.toList < byteLength left.toList ∨
      byteLength left.toList = byteLength right.toList ∧ left ≤ right := by
  simp [precedes]

theorem precedes_trans {first second third : String} (left : precedes first second = true)
    (right : precedes second third = true) : precedes first third = true := by
  rw [precedes_iff] at *
  rcases left with longer | ⟨same, before⟩ <;> rcases right with longer' | ⟨same', before'⟩
  · left; omega
  · left; omega
  · left; omega
  · exact Or.inr ⟨same.trans same', String.le_trans before before'⟩

theorem precedes_total (first second : String) :
    precedes first second = true ∨ precedes second first = true := by
  rw [precedes_iff, precedes_iff]
  rcases Nat.lt_trichotomy (byteLength first.toList) (byteLength second.toList) with
    shorter | same | longer
  · exact Or.inr (Or.inl shorter)
  · exact (String.le_total first second).imp (fun before => Or.inr ⟨same, before⟩)
      (fun before => Or.inr ⟨same.symm, before⟩)
  · exact Or.inl (Or.inl longer)

theorem precedes_antisymm {first second : String} (left : precedes first second = true)
    (right : precedes second first = true) : first = second := by
  rw [precedes_iff] at *
  rcases left with longer | ⟨same, before⟩ <;> rcases right with longer' | ⟨same', before'⟩
  · omega
  · omega
  · omega
  · exact String.le_antisymm before before'

theorem precedes_refl (name : String) : precedes name name = true :=
  (precedes_total name name).elim id id

theorem pairwise_insertAlias {name : String} {names : List String}
    (sorted : names.Pairwise fun first second => precedes first second = true) :
    (insertAlias name names).Pairwise fun first second => precedes first second = true := by
  induction names with
  | nil => exact List.pairwise_singleton _ _
  | cons other rest ih =>
      rcases List.pairwise_cons.mp sorted with ⟨before, rest_sorted⟩
      unfold insertAlias
      split
      · rename_i first
        refine List.pairwise_cons.mpr ⟨?_, sorted⟩
        intro later member
        rcases List.mem_cons.mp member with rfl | member
        · exact first
        · exact precedes_trans first (before later member)
      · rename_i notFirst
        refine List.pairwise_cons.mpr ⟨?_, ih rest_sorted⟩
        intro later member
        rcases List.mem_cons.mp ((insertAlias_perm name rest).mem_iff.mp member) with rfl | member
        · exact (precedes_total other later).resolve_right notFirst
        · exact before later member

/-- Aliases are tried in order. -/
theorem pairwise_sortAliases (names : List String) :
    (sortAliases names).Pairwise fun first second => precedes first second = true := by
  induction names with
  | nil => exact .nil
  | cons name rest ih => exact pairwise_insertAlias ih

/-- The order in which aliases are declared is no matter. -/
theorem sortAliases_eq_of_perm {names names' : List String} (same : names.Perm names') :
    sortAliases names = sortAliases names' := by
  apply List.Perm.eq_of_pairwise (fun _ _ _ _ => precedes_antisymm) (pairwise_sortAliases names)
    (pairwise_sortAliases names')
  exact (sortAliases_perm names).trans (same.trans (sortAliases_perm names').symm)

/-- The first result is that of the first alias in the order among those that have one. -/
theorem findSome?_sortAliases_eq_some_iff {β : Type} {result : String → Option β}
    {names : List String} {value : β} :
    (sortAliases names).findSome? result = some value ↔
      ∃ name ∈ names, result name = some value ∧
        ∀ other ∈ names, result other ≠ none → precedes name other = true := by
  have first {value : β} (found : (sortAliases names).findSome? result = some value) :
      ∃ name ∈ names, result name = some value ∧
        ∀ other ∈ names, result other ≠ none → precedes name other = true := by
    rcases List.findSome?_eq_some_iff.mp found with ⟨earlier, name, later, split, own, nothing⟩
    have sorted := pairwise_sortAliases names
    rw [split] at sorted
    have before := (List.pairwise_cons.mp (List.pairwise_append.mp sorted).2.1).1
    refine ⟨name, mem_sortAliases.mp (by simp [split]), own, ?_⟩
    intro other member something
    have inside := mem_sortAliases.mpr member
    rw [split, List.mem_append, List.mem_cons] at inside
    rcases inside with inEarlier | rfl | inLater
    · exact absurd (nothing other inEarlier) something
    · exact precedes_refl other
    · exact before other inLater
  refine ⟨first, ?_⟩
  rintro ⟨name, member, own, before⟩
  cases found : (sortAliases names).findSome? result with
  | none =>
      have nothing := List.findSome?_eq_none_iff.mp found name (mem_sortAliases.mpr member)
      rw [own] at nothing
      cases nothing
  | some value' =>
      rcases first found with ⟨name', member', own', before'⟩
      have same : name = name' := precedes_antisymm (before name' member' (by simp [own']))
        (before' name member (by simp [own]))
      rw [← own', ← same, own]

/-- The order and the repetition of aliases make no difference for the first result. -/
theorem findSome?_sortAliases_congr {β : Type} (result : String → Option β)
    {names names' : List String} (same : ∀ name, name ∈ names ↔ name ∈ names') :
    (sortAliases names).findSome? result = (sortAliases names').findSome? result := by
  ext value
  simp only [findSome?_sortAliases_eq_some_iff, same]

end FieldPattern

namespace Pattern

theorem findSome?_flatMap {α β γ : Type} (elements : List α) (each : α → List β)
    (result : β → Option γ) :
    (elements.flatMap each).findSome? result =
      elements.findSome? fun element => (each element).findSome? result := by
  induction elements with
  | nil => rfl
  | cons element rest ih =>
      rw [List.flatMap_cons, List.findSome?_append, ih, List.findSome?_cons]
      cases (each element).findSome? result <;> rfl

theorem findSome?_congr {α β : Type} {elements : List α} {result result' : α → Option β}
    (same : ∀ element ∈ elements, result element = result' element) :
    elements.findSome? result = elements.findSome? result' := by
  induction elements with
  | nil => rfl
  | cons element rest ih =>
      rw [List.findSome?_cons, List.findSome?_cons, same element List.mem_cons_self,
        ih fun other member => same other (List.mem_cons_of_mem element member)]

/-- Aliases are tried one after the other, each as if it were the only one. -/
theorem findSome?_anyAlias {β : Type} {names : List String} (nonempty : names ≠ [])
    (result : Way → Option β) (folding : Bool) (cursor : Cursor) :
    ((FieldPattern.anyAlias names).ways folding cursor).findSome? result =
      (sortAliases names).findSome? fun name =>
        ((anyAlias [name]).ways folding cursor).findSome? result := by
  rw [FieldPattern.anyAlias, ways, ways_anyOf (map_oneAlias_ne_nil nonempty),
    findSome?_flatMap, List.findSome?_map]
  rfl

theorem match?_eq_findSome? (pattern : Pattern) (cursor : Cursor) :
    pattern.match? cursor = (pattern.ways false cursor).findSome? some := by
  rw [match?]
  cases pattern.ways false cursor <;> rfl

/-- The patterns have the same first result among their ways, whatever result the ways have. -/
def Agrees (pattern pattern' : Pattern) : Prop :=
  ∀ (result : Way → Option Way) (folding : Bool) (cursor : Cursor),
    (pattern.ways folding cursor).findSome? result = (pattern'.ways folding cursor).findSome? result

namespace Agrees

variable {first first' second second' : Pattern}

theorem refl (pattern : Pattern) : pattern.Agrees pattern := fun _ _ _ => rfl

theorem match?_eq (agrees : first.Agrees first') (cursor : Cursor) :
    first.match? cursor = first'.match? cursor := by
  rw [match?_eq_findSome?, match?_eq_findSome?]
  exact agrees some false cursor

theorem andThen (agrees : first.Agrees first') (agrees' : second.Agrees second') :
    (first.andThen second).Agrees (first'.andThen second') := by
  intro result folding cursor
  simp only [ways, findSome?_flatMap, List.findSome?_map]
  rw [agrees]
  congr 1
  funext way
  exact agrees' _ folding way.stop

theorem captured (agrees : first.Agrees first') (name : String) :
    (first.captured name).Agrees (first'.captured name) := by
  intro result folding cursor
  simp only [ways, List.findSome?_map]
  exact agrees _ folding cursor

/-- Aliases are the same pattern in every order and with every repetition. -/
theorem anyAlias {names names' : List String} (same : ∀ name, name ∈ names ↔ name ∈ names') :
    (FieldPattern.anyAlias names).Agrees (FieldPattern.anyAlias names') := by
  intro result folding cursor
  by_cases empty : names = []
  · have empty' : names' = [] := by
      rw [List.eq_nil_iff_forall_not_mem]
      exact fun name member => by simpa [empty] using (same name).mpr member
    rw [empty, empty']
  · have nonempty' : names' ≠ [] := by
      rcases List.exists_mem_of_ne_nil names empty with ⟨name, member⟩
      exact List.ne_nil_of_mem ((same name).mp member)
    rw [findSome?_anyAlias empty, findSome?_anyAlias nonempty']
    exact findSome?_sortAliases_congr _ same

end Agrees

end Pattern

namespace Field

variable {field : Field} {names : List String}

/-- The field with other aliases. -/
def withAliases (field : Field) (names : List String) : Field := { field with aliases := names }

@[simp]
theorem withAliases_name : (field.withAliases names).name = field.name := rfl

@[simp]
theorem withAliases_kind : (field.withAliases names).kind = field.kind := rfl

@[simp]
theorem withAliases_aliases : (field.withAliases names).aliases = names := rfl

/-- With its aliases in another order a field has the same pattern. -/
theorem pattern_withAliases_of_perm (same : names.Perm field.aliases) :
    (field.withAliases names).pattern = field.pattern := by
  have positional : (field.withAliases names).isPositional = field.isPositional := same.isEmpty_eq
  have aliases : anyAlias names = anyAlias field.aliases := by
    rw [anyAlias, anyAlias, sortAliases_eq_of_perm same]
  simp only [pattern, body, positional, withAliases_name, withAliases_kind, withAliases_aliases,
    aliases]

theorem isPositional_withAliases (same : ∀ name, name ∈ names ↔ name ∈ field.aliases) :
    (field.withAliases names).isPositional = field.isPositional := by
  rw [isPositional, isPositional, Bool.eq_iff_iff, List.isEmpty_iff, List.isEmpty_iff,
    List.eq_nil_iff_forall_not_mem, List.eq_nil_iff_forall_not_mem]
  exact forall_congr' fun name => not_congr (same name)

theorem IsProper.withAliases (proper : field.IsProper)
    (same : ∀ name, name ∈ names ↔ name ∈ field.aliases) :
    (field.withAliases names).IsProper where
  aliasProper name member := proper.aliasProper name ((same name).mp member)
  positionalText positional :=
    proper.positionalText ((isPositional_withAliases same).symm.trans positional)

/-- With the same aliases in another order or repeated a field has a pattern that agrees. -/
theorem pattern_withAliases_agrees (same : ∀ name, name ∈ names ↔ name ∈ field.aliases) :
    (field.withAliases names).pattern.Agrees field.pattern := by
  have aliases := Agrees.anyAlias same
  have body : (field.withAliases names).body.Agrees field.body := by
    simp only [body, isPositional_withAliases same, withAliases_name, withAliases_kind,
      withAliases_aliases]
    cases field.kind with
    | flag => exact (Agrees.refl _).andThen aliases
    | text quotable =>
        cases field.isPositional with
        | true => exact Agrees.refl _
        | false => exact (Agrees.refl _).andThen (aliases.andThen (Agrees.refl _))
    | number signed whole => exact (Agrees.refl _).andThen (aliases.andThen (Agrees.refl _))
  exact (body.captured _).andThen (Agrees.refl _)

/-- A field with a single one of its aliases is proper if the field is. -/
theorem IsProper.single (proper : field.IsProper) {name : String} (member : name ∈ field.aliases) :
    (field.withAliases [name]).IsProper where
  aliasProper other inside := by
    rw [withAliases_aliases, List.mem_singleton] at inside
    exact inside ▸ proper.aliasProper name member
  positionalText positional := by cases positional

/-- The match of a field that reads so far. -/
def closed? (field : Field) (cursor : Cursor) (inner : Way) : Option Way :=
  (closing.ways false inner.stop).findSome? fun last =>
    some (Way.andThen ⟨inner.stop, ⟨field.name, cursor, inner.stop⟩ :: inner.groups⟩ last)

theorem match?_eq_closed? (field : Field) (cursor : Cursor) :
    field.pattern.match? cursor =
      (field.body.ways false cursor).findSome? (field.closed? cursor) := by
  rw [match?_eq_findSome?]
  simp only [pattern, ways, findSome?_flatMap, List.findSome?_map]
  rfl

/-- A word of a number starts with one of the aliases, each tried as if it were the only one. -/
theorem findSome?_numberWord {β : Type} (aliased : field.aliases ≠ []) (signed whole : Bool)
    (result : Way → Option β) (cursor : Cursor) :
    ((field.numberWord signed whole).ways false cursor).findSome? result =
      (sortAliases field.aliases).findSome? fun name =>
        (((field.withAliases [name]).numberWord signed whole).ways false cursor).findSome?
          result := by
  simp only [numberWord, inOrder, ways, findSome?_flatMap]
  exact findSome?_anyAlias aliased _ false cursor

/-- A number field matches with the first of its aliases that matches if it is the only one. -/
theorem match?_of_number (proper : field.IsProper) {signed whole : Bool}
    (kind : field.kind = .number signed whole) {before blanks text : List Char}
    (place : before = [] ∨ blanks ≠ []) (blank : AllBlank blanks) (inked : StartsInked text) :
    field.pattern.match? ⟨before, blanks ++ text⟩ =
      (sortAliases field.aliases).findSome? fun name =>
        (field.withAliases [name]).pattern.match? ⟨before, blanks ++ text⟩ := by
  have aliased := proper.aliases_ne_nil (by simp [kind])
  rw [match?_eq_closed?, ways_body_of_number proper kind place blank inked,
    findSome?_numberWord aliased]
  apply findSome?_congr
  intro name inside
  have properOnly := proper.single (mem_sortAliases.mp inside)
  rw [match?_eq_closed?, ways_body_of_number properOnly kind place blank inked]
  rfl

end Field

end SearchCommands
