import SearchCommands.Proofs.Text.Places

/-!
# Slices of a text

Where a slice of a text starts and stops is given in bytes.  A text can be cut between two of its
characters only, so taking a slice may fail: it does so unless both ends are boundaries of the text
and stand in the right order (`slice?_eq_some_iff`).
-/

namespace SearchCommands.Text

/-- A character of the text starts after so many bytes, or the text ends there. -/
def IsBoundary (text : List Char) (offset : Nat) : Prop :=
  ∃ left right, text = left ++ right ∧ offset = byteLength left

/-- The parts of a text before and behind so many bytes, if no character reaches over the cut. -/
def cut? : Nat → List Char → Option (List Char × List Char)
  | 0, text => some ([], text)
  | _ + 1, [] => none
  | offset + 1, c :: rest =>
      if c.utf8Size ≤ offset + 1 then
        (cut? (offset + 1 - c.utf8Size) rest).map fun (left, right) => (c :: left, right)
      else none

/-- The part of a text between two places, if it can be cut at both. -/
def slice? (text : List Char) (start stop : Nat) : Option (List Char) :=
  if start ≤ stop then
    (cut? start text).bind fun (_, onwards) => (cut? (stop - start) onwards).map Prod.fst
  else none

variable {text left own right : List Char} {offset start stop : Nat}

theorem IsBoundary.le (boundary : IsBoundary text offset) : offset ≤ byteLength text := by
  rcases boundary with ⟨left, right, rfl, rfl⟩
  simp

theorem cut?_append (left right : List Char) :
    cut? (byteLength left) (left ++ right) = some (left, right) := by
  induction left with
  | nil => simp [byteLength, cut?]
  | cons c left ih =>
      have positive := c.utf8Size_pos
      have size : byteLength (c :: left) = c.utf8Size - 1 + byteLength left + 1 := by
        simp only [byteLength]
        omega
      have remaining : c.utf8Size - 1 + byteLength left + 1 - c.utf8Size = byteLength left := by
        omega
      have fits : c.utf8Size ≤ c.utf8Size - 1 + byteLength left + 1 := by omega
      simp [size, cut?, remaining, fits, ih]

theorem append_of_cut? (found : cut? offset text = some (left, right)) :
    text = left ++ right ∧ offset = byteLength left := by
  induction text generalizing offset left with
  | nil =>
      cases offset with
      | zero => simp_all [cut?, byteLength]
      | succ offset => simp [cut?] at found
  | cons c text ih =>
      cases offset with
      | zero =>
          simp only [cut?, Option.some.injEq, Prod.mk.injEq] at found
          rcases found with ⟨rfl, rfl⟩
          simp [byteLength]
      | succ offset =>
          simp only [cut?, Option.ite_none_right_eq_some, Option.map_eq_some_iff, Prod.mk.injEq,
            Prod.exists] at found
          rcases found with ⟨fits, left, _, cut, rfl, rfl⟩
          rcases ih cut with ⟨rfl, size⟩
          refine ⟨rfl, ?_⟩
          simp only [byteLength]
          omega

/-- A slice can be taken exactly between two boundaries that stand in the right order. -/
theorem slice?_eq_some_iff :
    slice? text start stop = some own ↔ ∃ left right, text = left ++ (own ++ right) ∧
      start = byteLength left ∧ stop = byteLength left + byteLength own := by
  constructor
  · intro found
    simp only [slice?, Option.ite_none_right_eq_some, Option.bind_eq_some_iff,
      Option.map_eq_some_iff, Prod.exists] at found
    rcases found with ⟨order, left, _, cut, own, right, cutAgain, rfl⟩
    rcases append_of_cut? cut with ⟨rfl, rfl⟩
    rcases append_of_cut? cutAgain with ⟨rfl, size⟩
    exact ⟨left, right, rfl, rfl, by omega⟩
  · rintro ⟨left, right, rfl, rfl, rfl⟩
    simp [slice?, cut?_append]

end SearchCommands.Text
