import SearchCommands.Cursor
import SearchCommands.Proofs.Text.Words

/-!
# Places inside quotation marks

The quotation marks of a text pair up from its start.  So a place is inside a pair if the number of
marks before it is odd and another mark follows, and nothing else about the text matters.
-/

namespace SearchCommands.Cursor

open Text

theorem insideQuotes_eq_false_iff {cursor : Cursor} : cursor.insideQuotes = false ↔
    cursor.before.count '"' % 2 = 0 ∨ '"' ∉ cursor.after := by
  rw [insideQuotes, Bool.and_eq_false_iff, beq_eq_false_iff_ne, Nat.mod_two_ne_one,
    List.contains_eq_mem, decide_eq_false_iff_not]

/-- A place after an even number of quotation marks is outside of them. -/
theorem insideQuotes_of_even {before : List Char} (even : before.count '"' % 2 = 0)
    (after : List Char) : (Cursor.mk before after).insideQuotes = false :=
  insideQuotes_eq_false_iff.mpr (Or.inl even)

theorem insideQuotes_of_odd {before after : List Char} (odd : before.count '"' % 2 = 1)
    (closed : '"' ∈ after) : (Cursor.mk before after).insideQuotes = true := by
  simp [insideQuotes, odd, closed]

theorem insideQuotes_congr {before before' after after' : List Char}
    (parity : before.count '"' % 2 = before'.count '"' % 2) (marks : '"' ∈ after ↔ '"' ∈ after') :
    (Cursor.mk before after).insideQuotes = (Cursor.mk before' after').insideQuotes := by
  have closes : after.contains '"' = after'.contains '"' := by simp [marks]
  simp only [insideQuotes, parity, closes]

/-- Where no pair can be open, it does not matter which marks follow. -/
theorem insideQuotes_congr_of_odd {before before' after after' : List Char}
    (parity : before.count '"' % 2 = before'.count '"' % 2)
    (marks : before.count '"' % 2 = 1 → ('"' ∈ after ↔ '"' ∈ after')) :
    (Cursor.mk before after).insideQuotes = (Cursor.mk before' after').insideQuotes := by
  by_cases odd : before.count '"' % 2 = 1
  · exact insideQuotes_congr parity (marks odd)
  · have even : before.count '"' % 2 = 0 := by omega
    rw [insideQuotes_of_even even, insideQuotes_of_even (parity ▸ even)]

/-- Text without marks can stand on either side of a place. -/
theorem insideQuotes_past {near : List Char} (plain : '"' ∉ near) (before after : List Char) :
    (Cursor.mk (near ++ before) after).insideQuotes =
      (Cursor.mk before (near.reverse ++ after)).insideQuotes := by
  apply insideQuotes_congr
  · rw [List.count_append, List.count_eq_zero.mpr plain, Nat.zero_add]
  · simp [plain]

theorem insideQuotes_step {before after : List Char} {c : Char} (different : c ≠ '"') :
    (Cursor.mk (c :: before) after).insideQuotes =
      (Cursor.mk before (c :: after)).insideQuotes := by
  have plain : '"' ∉ [c] := by simpa using Ne.symm different
  exact insideQuotes_past plain before after

/-- Blanks behind a text change nothing about the quotation marks around a place in it. -/
theorem insideQuotes_append_blanks {tail : List Char} (blank : AllBlank tail)
    (before after : List Char) :
    (Cursor.mk before (after ++ tail)).insideQuotes = (Cursor.mk before after).insideQuotes := by
  have none : '"' ∉ tail := List.count_eq_zero.mp blank.count_quote
  exact insideQuotes_congr rfl (by simp [none])

end SearchCommands.Cursor
