import SearchCommands.Proofs.Field.Words
import SearchCommands.Proofs.Filter.Construction
import SearchCommands.Proofs.Search.RoundTrip

/-!
# Filters in their written form

A range lists its bounds in the order of their values, in its own text as well as in clauses, if
both values can be compared at all.  What a filter lists can be typed again: an operator is found
by its symbol and a finite number is read back from its text, and bounds that are in order stay so.
Hence the comparison that a filter is written as makes the filter again.
-/

namespace SearchCommands

open Number FieldPattern

namespace Number.Binary32

/-- Everything but an undefined number can be compared. -/
theorem exists_rank?_iff {value : Binary32} : (∃ rank, value.rank? = some rank) ↔ value ≠ nan := by
  rcases value with ⟨_ | _, place⟩ | (_ | _) | _ <;> simp [rank?]

theorem le_or_le_iff {a b : Binary32} : a ≤ b ∨ b ≤ a ↔ a ≠ nan ∧ b ≠ nan := by
  simp only [← exists_rank?_iff, le_iff]
  constructor
  · rintro (⟨left, right, leftEq, rightEq, _⟩ | ⟨left, right, leftEq, rightEq, _⟩)
    · exact ⟨⟨left, leftEq⟩, ⟨right, rightEq⟩⟩
    · exact ⟨⟨right, rightEq⟩, ⟨left, leftEq⟩⟩
  · rintro ⟨⟨left, leftEq⟩, ⟨right, rightEq⟩⟩
    rcases Int.le_total left right with atMost | atLeast
    · exact Or.inl ⟨left, right, leftEq, rightEq, atMost⟩
    · exact Or.inr ⟨right, left, rightEq, leftEq, atLeast⟩

end Number.Binary32

namespace Range

/-- The bounds of a range are in the order of their values unless one of these is undefined. -/
theorem lower_le_upper_iff (first second : Bound Binary32) :
    (of first second).lower.value ≤ (of first second).upper.value ↔
      first.value ≠ .nan ∧ second.value ≠ .nan := by
  rw [← Binary32.le_or_le_iff]
  rcases of_cases first second with ⟨lower, upper, atMost⟩ | ⟨lower, upper, beyond⟩
  · rw [lower, upper]
    exact ⟨Or.inl, fun _ => atMost⟩
  · rw [lower, upper]
    exact ⟨Or.inr, fun compared => compared.resolve_left beyond⟩

/-- A range has the two bounds that it is made of.  It lists one of them first everywhere, and the
other one has the greater value or the same, exactly if neither value is undefined. -/
theorem of_lists_bounds (first second : Bound Binary32) (relation column : String) :
    ∃ smaller larger,
      (smaller = first ∧ larger = second ∨ smaller = second ∧ larger = first) ∧
      (smaller.value ≤ larger.value ↔ first.value ≠ .nan ∧ second.value ≠ .nan) ∧
      (of first second).lower = smaller ∧ (of first second).upper = larger ∧
      (of first second).text = smaller.text ++ " " ++ larger.text ∧
      (Filter.between (of first second)).text = smaller.text ++ " " ++ larger.text ∧
      (Filter.between (of first second)).bounds = [smaller, larger] ∧
      Filter.clauseOf (some (.between (of first second))) relation column =
        Condition.text ⟨relation, column, smaller⟩ ++ " AND " ++
          Condition.text ⟨relation, column, larger⟩ := by
  refine ⟨_, _, ?_, lower_le_upper_iff first second, rfl, rfl, rfl, rfl, rfl, rfl⟩
  rcases of_cases first second with ⟨lower, upper, _⟩ | ⟨lower, upper, _⟩
  · exact Or.inl ⟨lower, upper⟩
  · exact Or.inr ⟨lower, upper⟩

/-- An undefined number is not at least anything, so a range of it is out of order. -/
theorem of_nan_unordered :
    ¬ (of ⟨.greater, .zero⟩ ⟨.less, .nan⟩).lower.value ≤
      (of ⟨.greater, .zero⟩ ⟨.less, .nan⟩).upper.value := by
  decide

end Range

/-- A bound typed again: the operator that its symbol stands for and the text of its number. -/
def Bound.retyped (bound : Bound Binary32) : Bound String :=
  ⟨.ofSymbol bound.operator.symbol, bound.value.text⟩

theorem Bound.text_retyped (bound : Bound Binary32) : bound.retyped.text = bound.text := by
  simp only [Bound.text, retyped, Operator.ofSymbol_symbol]
  rfl

namespace Filter

/-- The comparison that a filter is written as. -/
def retyped : Filter → Comparison
  | single bound => .single bound.retyped
  | between range => .pair range.lower.retyped range.upper.retyped

theorem bounds_retyped (filter : Filter) :
    filter.retyped.bounds = filter.bounds.map Bound.retyped := by
  cases filter <;> rfl

theorem text_retyped (filter : Filter) : filter.retyped.text = filter.text := by
  rw [Comparison.text, bounds_retyped, List.map_map, text]
  exact congrArg _ (List.map_congr_left fun bound _ => bound.text_retyped)

/-- A bound with a finite number is read back as it was. -/
theorem reads_retyped {bound : Bound Binary32} (finite : bound.value.isFinite = true) :
    Reads bound.retyped bound := by
  refine ⟨(Operator.ofSymbol_symbol bound.operator).symm, ?_, finite⟩
  have inked := noBlank_of_numberText (Binary32.numberText_text finite)
  rw [Bound.retyped, Text.trim_eq_self_iff.mpr inked.trimmed, String.ofList_toList]
  exact Binary32.read?_text finite

/-- The comparison that a filter is written as makes the filter again, if its numbers are finite and
its operators opposed: bounds in the order of their values stay so. -/
theorem ofComparison_retyped_of_opposed {filter : Filter}
    (finite : ∀ bound ∈ filter.bounds, bound.value.isFinite = true)
    (opposed : ∀ range, filter = .between range →
      range.lower.operator.Opposes range.upper.operator) :
    ofComparison filter.retyped = .ok filter := by
  cases filter with
  | single bound =>
      have reads := reads_retyped (finite bound (by simp [bounds]))
      exact ofComparison_single_iff.mpr ⟨bound, reads, rfl⟩
  | between range =>
      have lowerFinite := finite range.lower (by simp [bounds, Range.bounds])
      have upperFinite := finite range.upper (by simp [bounds, Range.bounds])
      have reads := reads_retyped lowerFinite
      have reads' := reads_retyped upperFinite
      refine ofComparison_pair_iff.mpr ⟨?_, range.lower, range.upper, reads, reads', ?_⟩
      · rw [← reads.1, ← reads'.1]
        exact opposed range rfl
      · rw [Range.of_bounds range lowerFinite upperFinite]

theorem ReadAs.isFinite {raw : Comparison} {filter : Filter} (readAs : ReadAs raw filter) :
    ∀ bound ∈ filter.bounds, bound.value.isFinite = true := by
  cases readAs with
  | single reads => simp [Filter.bounds, reads.2.2]
  | inOrder reads reads' _ => simp [Filter.bounds, Range.bounds, reads.2.2, reads'.2.2]
  | exchanged reads reads' _ => simp [Filter.bounds, Range.bounds, reads.2.2, reads'.2.2]

theorem opposes_of_ofComparison {raw : Comparison} {range : Range}
    (made : ofComparison raw = .ok (.between range)) :
    range.lower.operator.Opposes range.upper.operator := by
  have legal := exists_ofComparison_iff.mp ⟨_, made⟩
  cases readAs_of_ofComparison made with
  | inOrder reads reads' _ =>
      rw [reads.1, reads'.1]
      exact legal.1
  | exchanged reads reads' _ =>
      rw [reads.1, reads'.1]
      exact legal.1.symm

/-- Whatever spelling a filter is made from, the comparison that lists its bounds makes the same
filter again and has the same text as the filter.  So writing it once more changes nothing. -/
theorem ofComparison_retyped {raw : Comparison} {filter : Filter}
    (made : ofComparison raw = .ok filter) :
    filter.retyped.bounds = filter.bounds.map Bound.retyped ∧
      filter.retyped.text = filter.text ∧
      ∃ again, ofComparison filter.retyped = .ok again ∧ again = filter ∧
        (again == filter) = true ∧ again.text = filter.text ∧ again.retyped = filter.retyped := by
  have finite := (readAs_of_ofComparison made).isFinite
  have opposed : ∀ range, filter = .between range →
      range.lower.operator.Opposes range.upper.operator := by
    rintro range rfl
    exact opposes_of_ofComparison made
  exact ⟨bounds_retyped filter, text_retyped filter, filter,
    ofComparison_retyped_of_opposed finite opposed, rfl, beq_self finite, rfl, rfl⟩

theorem ofComparison_retyped_padded :
    ∃ filter, ofComparison (.pair ⟨.less, " 2.50E1 "⟩ ⟨.greaterOrEqual, "-0"⟩) = .ok filter ∧
      filter.text = ">=-0 <25" ∧ ofComparison filter.retyped = .ok filter ∧
      filter.retyped.text = ">=-0 <25" := by
  have evaluated : (match ofComparison (.pair ⟨.less, " 2.50E1 "⟩ ⟨.greaterOrEqual, "-0"⟩) with
      | .ok filter => filter.text == ">=-0 <25"
      | .error _ => false) = true := by decide +kernel
  split at evaluated
  · rename_i filter made
    have written := beq_iff_eq.mp evaluated
    rcases ofComparison_retyped made with ⟨_, text, again, remade, rfl, _⟩
    exact ⟨again, made, written, remade, text.trans written⟩
  · cases evaluated

end Filter

end SearchCommands
