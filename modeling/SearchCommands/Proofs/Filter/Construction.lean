import SearchCommands.Proofs.Filter.Bounds

/-!
# Which comparisons make filters

A comparison makes a filter exactly if it is legal: every number in it is finite, and two bounds
bound from opposite sides.  The filter has the typed bounds, in the order of their values.  Of an
illegal comparison the first fault is reported: operators that cannot be combined come before
numbers, and the first number comes before the second.
-/

namespace SearchCommands

open Number

namespace Filter

/-- The number of a typed bound without the blanks around it. -/
def shownNumber (typed : Bound String) : String := String.ofList (Text.trim typed.value.toList)

/-- The number of a typed bound is a finite one. -/
def HasFiniteNumber (typed : Bound String) : Prop :=
  ∃ value, Binary32.read? (shownNumber typed) = some value ∧ value.isFinite = true

theorem hasFiniteNumber_iff {typed : Bound String} :
    HasFiniteNumber typed ↔ ∃ bound, Reads typed bound := by
  constructor
  · rintro ⟨value, read, finite⟩
    exact ⟨⟨typed.operator, value⟩, rfl, read, finite⟩
  · rintro ⟨bound, _, read, finite⟩
    exact ⟨bound.value, read, finite⟩

/-- A typed bound is refused for its number, and only if that is not finite. -/
theorem readBound_eq_error_iff {typed : Bound String} {reason : Rejection} :
    readBound typed = .error reason ↔
      ¬ HasFiniteNumber typed ∧ reason = .notANumber (shownNumber typed) := by
  have cases : (∃ bound, readBound typed = .ok bound) ∨
      readBound typed = .error (.notANumber (shownNumber typed)) := by
    simp only [readBound, shownNumber]
    split
    · split
      · exact Or.inl ⟨_, rfl⟩
      · exact Or.inr rfl
    · exact Or.inr rfl
  simp only [hasFiniteNumber_iff, ← readBound_eq_ok_iff]
  rcases cases with ⟨bound, read⟩ | refused
  · simp [read]
  · simp [refused, eq_comm]

/-- What a comparison has to be like to make a filter. -/
def IsLegal : Comparison → Prop
  | .single typed => HasFiniteNumber typed
  | .pair first second =>
      first.operator.Opposes second.operator ∧ HasFiniteNumber first ∧ HasFiniteNumber second

/-- A comparison and the filter that has its bounds, in the order of their values. -/
inductive ReadAs : Comparison → Filter → Prop
  | single {typed : Bound String} {bound : Bound Binary32} (reads : Reads typed bound) :
      ReadAs (.single typed) (.single bound)
  | inOrder {first second : Bound String} {range : Range} (reads : Reads first range.lower)
      (reads' : Reads second range.upper) (ordered : range.lower.value ≤ range.upper.value) :
      ReadAs (.pair first second) (.between range)
  | exchanged {first second : Bound String} {range : Range} (reads : Reads first range.upper)
      (reads' : Reads second range.lower) (ordered : range.lower.value ≤ range.upper.value) :
      ReadAs (.pair first second) (.between range)

/-- The fault for which a comparison is refused, the first one if there are several. -/
inductive FirstFault : Comparison → Rejection → Prop
  | number {typed : Bound String} (unread : ¬ HasFiniteNumber typed) :
      FirstFault (.single typed) (.notANumber (shownNumber typed))
  | exactOperator {first second : Bound String}
      (exact : first.operator.isExact = true ∨ second.operator.isExact = true) :
      FirstFault (.pair first second) (.exactInRange first second)
  | bothAbove {first second : Bound String} (above : first.operator.boundsAbove = true)
      (above' : second.operator.boundsAbove = true) :
      FirstFault (.pair first second) (.bothAbove first second)
  | bothBelow {first second : Bound String} (below : first.operator.boundsBelow = true)
      (below' : second.operator.boundsBelow = true) :
      FirstFault (.pair first second) (.bothBelow first second)
  | firstNumber {first second : Bound String}
      (opposes : first.operator.Opposes second.operator) (unread : ¬ HasFiniteNumber first) :
      FirstFault (.pair first second) (.notANumber (shownNumber first))
  | secondNumber {first second : Bound String}
      (opposes : first.operator.Opposes second.operator) (read : HasFiniteNumber first)
      (unread : ¬ HasFiniteNumber second) :
      FirstFault (.pair first second) (.notANumber (shownNumber second))

theorem exists_ofComparison_iff {comparison : Comparison} :
    (∃ filter, ofComparison comparison = .ok filter) ↔ IsLegal comparison := by
  cases comparison with
  | single typed =>
      simp only [ofComparison_single_iff, IsLegal, hasFiniteNumber_iff]
      constructor
      · rintro ⟨filter, bound, reads, rfl⟩
        exact ⟨bound, reads⟩
      · rintro ⟨bound, reads⟩
        exact ⟨.single bound, bound, reads, rfl⟩
  | pair first second =>
      simp only [ofComparison_pair_iff, IsLegal, hasFiniteNumber_iff]
      constructor
      · rintro ⟨filter, opposes, bound, bound', reads, reads', rfl⟩
        exact ⟨opposes, ⟨bound, reads⟩, ⟨bound', reads'⟩⟩
      · rintro ⟨opposes, ⟨bound, reads⟩, ⟨bound', reads'⟩⟩
        exact ⟨_, opposes, bound, bound', reads, reads', rfl⟩

/-- Finite numbers can all be compared, so a range has its bounds in the order of their values. -/
theorem readAs_of_ofComparison {comparison : Comparison} {filter : Filter}
    (made : ofComparison comparison = .ok filter) : ReadAs comparison filter := by
  cases comparison with
  | single typed =>
      rcases ofComparison_single_iff.mp made with ⟨bound, reads, rfl⟩
      exact .single reads
  | pair first second =>
      rcases ofComparison_pair_iff.mp made with ⟨_, bound, bound', reads, reads', rfl⟩
      rcases Range.of_cases bound bound' with ⟨lower, upper, atMost⟩ | ⟨lower, upper, beyond⟩
      · refine .inOrder (lower.symm ▸ reads) (upper.symm ▸ reads') ?_
        rw [lower, upper]
        exact atMost
      · refine .exchanged (upper.symm ▸ reads) (lower.symm ▸ reads') ?_
        rw [lower, upper]
        exact Binary32.le_of_not_lt reads'.2.2 reads.2.2
          fun less => beyond (Binary32.le_of_lt less)

/-- The bounds of the filter are those that were typed, and their values ascend. -/
theorem ReadAs.bounds {comparison : Comparison} {filter : Filter}
    (readAs : ReadAs comparison filter) :
    (∃ read, List.Forall₂ Reads comparison.bounds read ∧ filter.bounds.Perm read) ∧
      filter.bounds.Pairwise fun bound bound' => bound.value ≤ bound'.value := by
  cases readAs with
  | single reads => exact ⟨⟨_, .cons reads .nil, .refl _⟩, List.pairwise_singleton _ _⟩
  | inOrder reads reads' ordered =>
      exact ⟨⟨_, .cons reads (.cons reads' .nil), .refl _⟩, List.pairwise_pair.mpr ordered⟩
  | exchanged reads reads' ordered =>
      exact ⟨⟨_, .cons reads (.cons reads' .nil), .swap _ _ _⟩, List.pairwise_pair.mpr ordered⟩

theorem firstFault_of_operatorFault? {first second : Bound String} {reason : Rejection}
    (fault : operatorFault? first second = some reason) :
    FirstFault (.pair first second) reason := by
  unfold operatorFault? at fault
  split at fault
  · rename_i exact
    rcases Option.some.inj fault with rfl
    exact .exactOperator (Bool.or_eq_true_iff.mp exact)
  · split at fault
    · rename_i above
      rcases Option.some.inj fault with rfl
      exact .bothAbove (Bool.and_eq_true_iff.mp above).1 (Bool.and_eq_true_iff.mp above).2
    · split at fault
      · rename_i below
        rcases Option.some.inj fault with rfl
        exact .bothBelow (Bool.and_eq_true_iff.mp below).1 (Bool.and_eq_true_iff.mp below).2
      · cases fault

theorem firstFault_of_ofComparison {comparison : Comparison} {reason : Rejection}
    (refused : ofComparison comparison = .error reason) : FirstFault comparison reason := by
  cases comparison with
  | single typed =>
      cases read : readBound typed with
      | ok bound => simp [ofComparison, read, bind, Except.bind, pure, Except.pure] at refused
      | error fault =>
          simp only [ofComparison, read, bind, Except.bind, Except.error.injEq] at refused
          rcases readBound_eq_error_iff.mp read with ⟨unread, rfl⟩
          exact refused ▸ .number unread
  | pair first second =>
      cases combined : operatorFault? first second with
      | some fault =>
          simp only [ofComparison, combined, Except.error.injEq] at refused
          exact refused ▸ firstFault_of_operatorFault? combined
      | none =>
          have opposes := operatorFault?_eq_none_iff.mp combined
          cases read : readBound first with
          | error fault =>
              simp only [ofComparison, combined, read, bind, Except.bind, Except.error.injEq]
                at refused
              rcases readBound_eq_error_iff.mp read with ⟨unread, rfl⟩
              exact refused ▸ .firstNumber opposes unread
          | ok bound =>
              cases read' : readBound second with
              | ok bound' =>
                  simp [ofComparison, combined, read, read', bind, Except.bind, pure,
                    Except.pure] at refused
              | error fault =>
                  simp only [ofComparison, combined, read, read', bind, Except.bind,
                    Except.error.injEq] at refused
                  rcases readBound_eq_error_iff.mp read' with ⟨unread, rfl⟩
                  have reads := readBound_eq_ok_iff.mp read
                  exact refused ▸ .secondNumber opposes (hasFiniteNumber_iff.mpr ⟨bound, reads⟩)
                    unread

theorem ofComparison_of_firstFault {comparison : Comparison} {reason : Rejection}
    (fault : FirstFault comparison reason) : ofComparison comparison = .error reason := by
  have inexactAbove {operator : Operator} (above : operator.boundsAbove = true) :
      operator.isExact = false := by
    cases operator <;> simp_all [Operator.isExact, Operator.boundsAbove]
  have inexactBelow {operator : Operator} (below : operator.boundsBelow = true) :
      operator.isExact = false ∧ operator.boundsAbove = false := by
    cases operator <;> simp_all [Operator.isExact, Operator.boundsAbove, Operator.boundsBelow]
  cases fault with
  | number unread =>
      simp [ofComparison, readBound_eq_error_iff.mpr ⟨unread, rfl⟩, bind, Except.bind]
  | exactOperator exact => simp [ofComparison, operatorFault?, exact]
  | bothAbove above above' =>
      simp [ofComparison, operatorFault?, inexactAbove above, inexactAbove above', above, above']
  | bothBelow below below' =>
      simp [ofComparison, operatorFault?, inexactBelow below, inexactBelow below', below, below']
  | firstNumber opposes unread =>
      simp [ofComparison, operatorFault?_eq_none_iff.mpr opposes,
        readBound_eq_error_iff.mpr ⟨unread, rfl⟩, bind, Except.bind]
  | secondNumber opposes read unread =>
      rcases hasFiniteNumber_iff.mp read with ⟨bound, reads⟩
      simp [ofComparison, operatorFault?_eq_none_iff.mpr opposes, readBound_eq_ok_iff.mpr reads,
        readBound_eq_error_iff.mpr ⟨unread, rfl⟩, bind, Except.bind]

/-- A comparison makes a filter exactly if it is legal.  The filter has the bounds that were typed,
with ascending values, and any other comparison is refused for its first fault. -/
theorem ofComparison_verdict (comparison : Comparison) :
    ((∃ filter, ofComparison comparison = .ok filter) ↔ IsLegal comparison) ∧
      (∀ filter, ofComparison comparison = .ok filter →
        ReadAs comparison filter ∧
          (∃ read, List.Forall₂ Reads comparison.bounds read ∧ filter.bounds.Perm read) ∧
          filter.bounds.Pairwise fun bound bound' => bound.value ≤ bound'.value) ∧
      ∀ reason, ofComparison comparison = .error reason ↔ FirstFault comparison reason := by
  refine ⟨exists_ofComparison_iff, ?_, ?_⟩
  · intro filter made
    have readAs := readAs_of_ofComparison made
    exact ⟨readAs, readAs.bounds⟩
  · intro reason
    exact ⟨firstFault_of_ofComparison, ofComparison_of_firstFault⟩

example : ofComparison (.pair ⟨.less, "x"⟩ ⟨.lessOrEqual, "1e99"⟩) =
    .error (.bothAbove ⟨.less, "x"⟩ ⟨.lessOrEqual, "1e99"⟩) := by
  decide +kernel

end Filter

end SearchCommands
