import SearchCommands.Field.Pattern
import SearchCommands.Proofs.Text.Letters

/-!
# The languages of patterns

Most parts of the pattern of a field read a text that does not depend on where it stands.  Such a
part describes a language: its ways read exactly the texts of the language.  The order of the ways
does not matter here; it matters only where a part has several ways to read on.  Openings, closings
and aliases look at what is around them and get statements of their own.
-/

namespace SearchCommands

namespace Cursor

/-- The places reached by reading accepted characters, described by the text that was read. -/
theorem mem_placesOf_iff {accepts : Char → Bool} {before after : List Char} {place : Cursor} :
    place ∈ placesOf accepts before after ↔
      ∃ text rest, after = text ++ rest ∧ (∀ c ∈ text, accepts c = true) ∧
        place = ⟨text.reverse ++ before, rest⟩ := by
  induction after generalizing before with
  | nil =>
      simp only [placesOf, List.mem_singleton]
      constructor
      · rintro rfl
        exact ⟨[], [], by simp⟩
      · rintro ⟨text, rest, split, _, rfl⟩
        rcases List.append_eq_nil_iff.mp split.symm with ⟨rfl, rfl⟩
        rfl
  | cons c after ih =>
      simp only [placesOf, List.mem_cons]
      constructor
      · rintro (rfl | member)
        · exact ⟨[], c :: after, by simp⟩
        · split at member
          · rename_i accepted
            rcases ih.mp member with ⟨text, rest, rfl, all, rfl⟩
            refine ⟨c :: text, rest, rfl, ?_, by simp⟩
            intro d inside
            rcases List.mem_cons.mp inside with rfl | inside
            · exact accepted
            · exact all d inside
          · simp at member
      · rintro ⟨text, rest, split, all, rfl⟩
        cases text with
        | nil =>
            left
            simp only [List.nil_append] at split
            simp [split]
        | cons d text =>
            right
            simp only [List.cons_append, List.cons.injEq] at split
            rcases split with ⟨rfl, rfl⟩
            rw [if_pos (all c (by simp))]
            exact ih.mpr ⟨text, rest, rfl, fun d inside => all d (List.mem_cons_of_mem c inside),
              by simp⟩

theorem mem_tail_placesOf_iff {accepts : Char → Bool} {before after : List Char}
    {place : Cursor} :
    place ∈ (placesOf accepts before after).tail ↔
      ∃ text rest, after = text ++ rest ∧ text ≠ [] ∧ (∀ c ∈ text, accepts c = true) ∧
        place = ⟨text.reverse ++ before, rest⟩ := by
  cases after with
  | nil =>
      simp only [placesOf, List.tail_cons, List.not_mem_nil, false_iff]
      rintro ⟨text, rest, split, nonempty, _⟩
      exact nonempty (List.append_eq_nil_iff.mp split.symm).1
  | cons c after =>
      simp only [placesOf, List.tail_cons]
      constructor
      · intro member
        split at member
        · rename_i accepted
          rcases mem_placesOf_iff.mp member with ⟨text, rest, rfl, all, rfl⟩
          refine ⟨c :: text, rest, rfl, by simp, ?_, by simp⟩
          intro d inside
          rcases List.mem_cons.mp inside with rfl | inside
          · exact accepted
          · exact all d inside
        · simp at member
      · rintro ⟨text, rest, split, nonempty, all, rfl⟩
        cases text with
        | nil => exact absurd rfl nonempty
        | cons d text =>
            simp only [List.cons_append, List.cons.injEq] at split
            rcases split with ⟨rfl, rfl⟩
            rw [if_pos (all c (by simp))]
            exact mem_placesOf_iff.mpr ⟨text, rest, rfl,
              fun d inside => all d (List.mem_cons_of_mem c inside), by simp⟩

/-- Reading given characters succeeds where they stand, each up to the comparison. -/
theorem read?_eq_some_iff {same : Char → Char → Bool} {text before after : List Char}
    {stop : Cursor} :
    read? same text ⟨before, after⟩ = some stop ↔
      ∃ found rest, after = found ++ rest ∧ List.Forall₂ (fun a b => same a b = true) text found ∧
        stop = ⟨found.reverse ++ before, rest⟩ := by
  induction text generalizing before after with
  | nil =>
      simp only [read?, Option.some.injEq]
      constructor
      · rintro rfl
        exact ⟨[], after, rfl, .nil, rfl⟩
      · rintro ⟨found, rest, rfl, agree, rfl⟩
        cases agree
        rfl
  | cons expected more ih =>
      cases after with
      | nil =>
          simp only [read?]
          constructor
          · intro impossible
            cases impossible
          · rintro ⟨found, rest, split, agree, _⟩
            cases agree
            simp at split
      | cons c after =>
          simp only [read?]
          constructor
          · intro read
            split at read
            · rename_i agrees
              rcases ih.mp read with ⟨found, rest, rfl, agree, rfl⟩
              exact ⟨c :: found, rest, rfl, .cons agrees agree, by simp⟩
            · simp at read
          · rintro ⟨found, rest, split, agree, rfl⟩
            cases agree with
            | cons agrees agree =>
                simp only [List.cons_append, List.cons.injEq] at split
                rcases split with ⟨rfl, rfl⟩
                rw [if_pos agrees]
                exact ih.mpr ⟨_, rest, rfl, agree, by simp⟩

end Cursor

namespace Pattern

/-- The ways to match the pattern read exactly the texts of the language and capture nothing. -/
def Describes (pattern : Pattern) (language : List Char → Prop) : Prop :=
  ∀ before after way, way ∈ pattern.ways false ⟨before, after⟩ ↔
    ∃ text rest, after = text ++ rest ∧ language text ∧ way = ⟨⟨text.reverse ++ before, rest⟩, []⟩

namespace Describes

variable {first second : Pattern} {left right : List Char → Prop}

theorem congr (describes : first.Describes left) (same : ∀ text, left text ↔ right text) :
    first.Describes right := by
  intro before after way
  rw [describes before after way]
  simp only [same]

theorem one (set : CharSet) :
    (Pattern.one set).Describes (fun text => ∃ c, text = [c] ∧ set.contains c = true) := by
  intro before after way
  cases after with
  | nil =>
      simp only [ways, List.not_mem_nil, false_iff]
      rintro ⟨text, rest, split, ⟨c, rfl, _⟩, _⟩
      simp at split
  | cons c after =>
      simp only [ways]
      constructor
      · intro member
        split at member
        · rename_i inside
          rw [List.mem_singleton] at member
          exact ⟨[c], after, rfl, ⟨c, rfl, inside⟩, member⟩
        · simp at member
      · rintro ⟨text, rest, split, ⟨d, rfl, inside⟩, rfl⟩
        simp only [List.cons_append, List.nil_append, List.cons.injEq] at split
        rcases split with ⟨rfl, rfl⟩
        rw [if_pos inside]
        simp

theorem oneOrMore (set : CharSet) :
    (Pattern.oneOrMore set).Describes
      (fun text => text ≠ [] ∧ ∀ c ∈ text, set.contains c = true) := by
  intro before after way
  simp only [ways, Cursor.places, List.mem_map, List.mem_reverse, Cursor.mem_tail_placesOf_iff]
  constructor
  · rintro ⟨place, ⟨text, rest, rfl, nonempty, all, rfl⟩, rfl⟩
    exact ⟨text, rest, rfl, ⟨nonempty, all⟩, rfl⟩
  · rintro ⟨text, rest, rfl, ⟨nonempty, all⟩, rfl⟩
    exact ⟨_, ⟨text, rest, rfl, nonempty, all, rfl⟩, rfl⟩

theorem anyNumber (set : CharSet) :
    (Pattern.anyNumber set).Describes (fun text => ∀ c ∈ text, set.contains c = true) := by
  intro before after way
  simp only [ways, Cursor.places, List.mem_map, List.mem_reverse, Cursor.mem_placesOf_iff]
  constructor
  · rintro ⟨place, ⟨text, rest, rfl, all, rfl⟩, rfl⟩
    exact ⟨text, rest, rfl, all, rfl⟩
  · rintro ⟨text, rest, rfl, all, rfl⟩
    exact ⟨_, ⟨text, rest, rfl, all, rfl⟩, rfl⟩

theorem literal (text : List Char) : (Pattern.literal text).Describes (· = text) := by
  intro before after way
  simp only [ways, List.mem_map, Option.mem_toList, Cursor.read?_eq_some_iff, Bool.false_eq_true,
    if_false, beq_iff_eq, List.forall₂_eq_eq_eq]
  constructor
  · rintro ⟨place, ⟨found, rest, rfl, rfl, rfl⟩, rfl⟩
    exact ⟨_, rest, rfl, rfl, rfl⟩
  · rintro ⟨found, rest, rfl, rfl, rfl⟩
    exact ⟨_, ⟨_, rest, rfl, rfl, rfl⟩, rfl⟩

theorem andThen (describesFirst : first.Describes left) (describesSecond : second.Describes right) :
    (first.andThen second).Describes
      (fun text => ∃ start stop, text = start ++ stop ∧ left start ∧ right stop) := by
  intro before after way
  simp only [ways, List.mem_flatMap, List.mem_map]
  constructor
  · rintro ⟨head, headMem, tail, tailMem, rfl⟩
    rcases (describesFirst before after head).mp headMem with ⟨start, rest, rfl, inLeft, rfl⟩
    rcases (describesSecond _ _ tail).mp tailMem with ⟨stop, rest, rfl, inRight, rfl⟩
    exact ⟨start ++ stop, rest, by simp, ⟨start, stop, rfl, inLeft, inRight⟩,
      by simp [Way.andThen]⟩
  · rintro ⟨text, rest, rfl, ⟨start, stop, rfl, inLeft, inRight⟩, rfl⟩
    refine ⟨⟨⟨start.reverse ++ before, stop ++ rest⟩, []⟩, ?_, ?_⟩
    · exact (describesFirst _ _ _).mpr ⟨start, stop ++ rest, by simp, inLeft, rfl⟩
    · refine ⟨⟨⟨stop.reverse ++ (start.reverse ++ before), rest⟩, []⟩, ?_, by simp [Way.andThen]⟩
      exact (describesSecond _ _ _).mpr ⟨stop, rest, rfl, inRight, rfl⟩

theorem orElse (describesFirst : first.Describes left) (describesSecond : second.Describes right) :
    (first.orElse second).Describes (fun text => left text ∨ right text) := by
  intro before after way
  simp only [ways, List.mem_append, describesFirst before after way,
    describesSecond before after way]
  constructor
  · rintro (⟨text, rest, split, inLeft, rfl⟩ | ⟨text, rest, split, inRight, rfl⟩)
    · exact ⟨text, rest, split, Or.inl inLeft, rfl⟩
    · exact ⟨text, rest, split, Or.inr inRight, rfl⟩
  · rintro ⟨text, rest, split, inLeft | inRight, rfl⟩
    · exact Or.inl ⟨text, rest, split, inLeft, rfl⟩
    · exact Or.inr ⟨text, rest, split, inRight, rfl⟩

theorem optional (describes : first.Describes left) :
    first.optional.Describes (fun text => left text ∨ text = []) := by
  intro before after way
  simp only [ways, List.mem_append, describes before after way, List.mem_singleton]
  constructor
  · rintro (⟨text, rest, split, inLeft, rfl⟩ | rfl)
    · exact ⟨text, rest, split, Or.inl inLeft, rfl⟩
    · exact ⟨[], after, rfl, Or.inr rfl, rfl⟩
  · rintro ⟨text, rest, rfl, inLeft | rfl, rfl⟩
    · exact Or.inl ⟨text, rest, rfl, inLeft, rfl⟩
    · exact Or.inr rfl

theorem grouped (describes : first.Describes left) : first.grouped.Describes left := describes

end Describes

end Pattern

end SearchCommands
