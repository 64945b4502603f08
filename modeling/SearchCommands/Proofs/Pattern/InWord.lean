import SearchCommands.Proofs.Field.Words
import SearchCommands.Proofs.Pattern.Alike

/-!
# Patterns inside a word

A pattern that asks for no blank reads a word in the same ways whatever stands around the word, as
long as no word goes on there.  So the operator and the number that a field captures are a matter
of the word that they stand in.
-/

namespace SearchCommands

open Text FieldPattern

/-- The same place in a word that stands in two texts.  The texts before the words are given from
the nearest character on. -/
inductive Cursor.InWord (before rest before' rest' : List Char) : Cursor → Cursor → Prop where
  | place (left right : List Char) :
      InWord before rest before' rest' ⟨left ++ before, right ++ rest⟩
        ⟨left ++ before', right ++ rest'⟩

variable {before rest before' rest' : List Char}

namespace Cursor

theorem InWord.step {c : Char} {left right : List Char} :
    InWord before rest before' rest' ⟨c :: (left ++ before), right ++ rest⟩
      ⟨c :: (left ++ before'), right ++ rest'⟩ := .place (c :: left) right

/-- Between two places of the word stands the same text. -/
theorem InWord.textTo_eq {start start' stop stop' : Cursor}
    (sameStart : InWord before rest before' rest' start start')
    (sameStop : InWord before rest before' rest' stop stop') :
    start.textTo stop = start'.textTo stop' := by
  rcases sameStart with ⟨_, right⟩
  rcases sameStop with ⟨_, right'⟩
  simp only [textTo, List.length_append]
  rw [List.take_append_of_le_length (by omega), List.take_append_of_le_length (by omega)]
  congr 1
  omega

theorem InWord.endsWord_iff {cursor cursor' : Cursor} (ends : EndsWord rest)
    (ends' : EndsWord rest') (same : InWord before rest before' rest' cursor cursor') :
    EndsWord cursor.after ↔ EndsWord cursor'.after := by
  rcases same with ⟨_, right⟩
  cases right with
  | nil => exact iff_of_true ends ends'
  | cons c right => exact Iff.rfl

theorem read?_of_endsWord {agrees : Char → Char → Bool} {e : Char} {text : List Char}
    (avoids : ∀ c, isBlank c = true → agrees e c = false) (ends : EndsWord rest)
    (before : List Char) : (Cursor.mk before rest).read? agrees (e :: text) = none := by
  cases rest with
  | nil => rfl
  | cons c rest => rw [read?, avoids c (ends c rfl), if_neg Bool.false_ne_true]

theorem placesOf_of_endsWord {accepts : Char → Bool}
    (avoids : ∀ c, isBlank c = true → accepts c = false) (ends : EndsWord rest)
    (before : List Char) : placesOf accepts before rest = [⟨before, rest⟩] := by
  cases rest with
  | nil => rfl
  | cons c rest => rw [placesOf, avoids c (ends c rfl), if_neg Bool.false_ne_true]

section Reading

variable (ends : EndsWord rest) (ends' : EndsWord rest')

include ends ends'

theorem read?_inWord {agrees : Char → Char → Bool} {text : List Char}
    (avoids : ∀ e ∈ text, ∀ c, isBlank c = true → agrees e c = false) (left right : List Char) :
    Option.Rel (InWord before rest before' rest')
      ((Cursor.mk (left ++ before) (right ++ rest)).read? agrees text)
      ((Cursor.mk (left ++ before') (right ++ rest')).read? agrees text) := by
  induction text generalizing left right with
  | nil => exact .some (.place left right)
  | cons e text ih =>
      have here := avoids e List.mem_cons_self
      cases right with
      | nil =>
          rw [List.nil_append, List.nil_append, read?_of_endsWord here ends,
            read?_of_endsWord here ends']
          exact .none
      | cons c right =>
          rw [List.cons_append, List.cons_append, read?, read?]
          split
          · exact ih (fun d member => avoids d (List.mem_cons_of_mem e member)) (c :: left) right
          · exact .none

theorem placesOf_inWord {accepts : Char → Bool}
    (avoids : ∀ c, isBlank c = true → accepts c = false) (left right : List Char) :
    List.Forall₂ (InWord before rest before' rest')
      (placesOf accepts (left ++ before) (right ++ rest))
      (placesOf accepts (left ++ before') (right ++ rest')) := by
  induction right generalizing left with
  | nil =>
      rw [List.nil_append, List.nil_append, placesOf_of_endsWord avoids ends,
        placesOf_of_endsWord avoids ends']
      exact .cons (.place left []) .nil
  | cons c right ih =>
      rw [List.cons_append, List.cons_append, placesOf, placesOf]
      refine .cons (.place left (c :: right)) ?_
      split
      · exact ih (c :: left)
      · exact .nil

theorem atWordEdge_inWord (outside : before.head?.any isWordCharacter = false)
    (outside' : before'.head?.any isWordCharacter = false) (left right : List Char) :
    (Cursor.mk (left ++ before) (right ++ rest)).atWordEdge =
      (Cursor.mk (left ++ before') (right ++ rest')).atWordEdge := by
  have back : (left ++ before).head?.any isWordCharacter =
      (left ++ before').head?.any isWordCharacter := by
    cases left with
    | nil => exact outside.trans outside'.symm
    | cons c left => rfl
  have ahead : (right ++ rest).head?.any isWordCharacter =
      (right ++ rest').head?.any isWordCharacter := by
    cases right with
    | nil =>
        rw [List.nil_append, List.nil_append, any_isWordCharacter_of_endsWord ends,
          any_isWordCharacter_of_endsWord ends']
    | cons c right => rfl
  rw [atWordEdge, atWordEdge, back, ahead]

end Reading

end Cursor

namespace Pattern.Preserves

variable {folding : Bool} (ends : EndsWord rest) (ends' : EndsWord rest')

include ends ends'

theorem one_inWord {set : CharSet} (avoids : ∀ c, isBlank c = true → set.contains c = false) :
    (one set).Preserves (Cursor.InWord before rest before' rest') folding := by
  rintro _ _ ⟨left, right⟩
  cases right with
  | nil =>
      have none {rest : List Char} (ends : EndsWord rest) (before : List Char) :
          (one set).ways folding ⟨before, rest⟩ = [] := by
        cases rest with
        | nil => rfl
        | cons c rest => rw [ways, avoids c (ends c rfl), if_neg Bool.false_ne_true]
      rw [List.nil_append, List.nil_append, none ends, none ends']
      exact .nil
  | cons c right => exact alike_test rfl Cursor.InWord.step

theorem oneOrMore_inWord {set : CharSet}
    (avoids : ∀ c, isBlank c = true → set.contains c = false) :
    (oneOrMore set).Preserves (Cursor.InWord before rest before' rest') folding := by
  rintro _ _ ⟨left, right⟩
  exact alike_tail_places (Cursor.placesOf_inWord ends ends' avoids left right)

theorem literal_inWord {text : List Char} (inked : NoBlank text) :
    (literal text).Preserves (Cursor.InWord before rest before' rest') folding := by
  rintro _ _ ⟨left, right⟩
  refine alike_read (Cursor.read?_inWord ends ends' ?_ left right)
  intro e member c blank
  rw [← Bool.not_eq_true]
  intro agrees
  have same : e = c := by
    cases folding with
    | true =>
        rw [if_pos rfl, sameLetter_comm] at agrees
        exact eq_of_sameLetter_caseless (isCaseless_of_isBlank blank) agrees
    | false => exact beq_iff_eq.mp agrees
  rw [← same, inked e member] at blank
  cases blank

theorem wordEdge_inWord (outside : before.head?.any isWordCharacter = false)
    (outside' : before'.head?.any isWordCharacter = false) :
    wordEdge.Preserves (Cursor.InWord before rest before' rest') folding := by
  rintro _ _ ⟨left, right⟩
  exact alike_test (Cursor.atWordEdge_inWord ends ends' outside outside' left right)
    (.place left right)

theorem anyAlias_inWord {names : List String} (inked : ∀ name ∈ names, NoBlank name.toList)
    (outside : before.head?.any isWordCharacter = false)
    (outside' : before'.head?.any isWordCharacter = false) :
    (FieldPattern.anyAlias names).Preserves (Cursor.InWord before rest before' rest') folding :=
  anyAlias (fun name member => literal_inWord ends ends' (inked name member))
    (wordEdge_inWord ends ends' outside outside')

theorem operators_inWord :
    FieldPattern.operators.Preserves (Cursor.InWord before rest before' rest') folding := by
  apply operators
  intro text symbols
  apply literal_inWord ends ends'
  intro c member
  rcases symbols c member with rfl | rfl | rfl <;> rfl

theorem numberValue_inWord (signed whole : Bool) :
    (FieldPattern.numberValue signed whole).Preserves (Cursor.InWord before rest before' rest')
      folding := by
  have digit (c : Char) (blank : isBlank c = true) : CharSet.digit.contains c = false := by
    have none := forall_blank (p := fun c => !c.isDigit) (by decide) blank
    simpa [CharSet.contains] using none
  have minus (c : Char) (blank : isBlank c = true) : CharSet.minus.contains c = false := by
    have none := forall_blank (p := fun c => c != '-') (by decide) blank
    simpa [CharSet.contains] using none
  have point : NoBlank ['.'] := by simp [NoBlank, isBlank]
  exact numberValue signed whole (oneOrMore_inWord ends ends' digit)
    (one_inWord ends ends' minus) (literal_inWord ends ends' point)

end Pattern.Preserves

end SearchCommands
