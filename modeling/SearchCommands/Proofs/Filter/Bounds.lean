import Mathlib.Data.List.Forall2
import SearchCommands.Filter
import SearchCommands.Proofs.Number.Whole

/-!
# Filters from typed bounds

Typed bounds ask for a filter: none of them for no filter, one for a single bound and two for a
range.  There is one exactly if every number can be read as a finite one and the operators of two
bounds bound from opposite sides.  Such a filter is sound, and reading the texts of the bounds of a
sound filter gives the filter again.
-/

namespace SearchCommands

open Number FieldPattern

/-- One operator bounds from above and the other from below. -/
def Operator.Opposes (first second : Operator) : Prop :=
  first.boundsAbove = true ∧ second.boundsBelow = true ∨
    first.boundsBelow = true ∧ second.boundsAbove = true

theorem Operator.Opposes.symm {first second : Operator} (opposes : first.Opposes second) :
    second.Opposes first := by
  rcases opposes with ⟨above, below⟩ | ⟨below, above⟩
  · exact Or.inr ⟨below, above⟩
  · exact Or.inl ⟨above, below⟩

theorem Operator.Opposes.given {first second : Operator} (opposes : first.Opposes second) :
    first ≠ .absent := by
  rintro rfl
  rcases opposes with ⟨above, _⟩ | ⟨below, _⟩
  · exact Bool.noConfusion above
  · exact Bool.noConfusion below

namespace Filter

theorem operatorFault?_eq_none_iff {first second : Bound String} :
    operatorFault? first second = none ↔ first.operator.Opposes second.operator := by
  rcases first with ⟨operator, value⟩
  rcases second with ⟨operator', value'⟩
  unfold operatorFault? Operator.Opposes
  cases operator <;> cases operator' <;>
    simp [Operator.isExact, Operator.boundsAbove, Operator.boundsBelow]

/-- The filter that typed bounds ask for, in the order of typing. -/
def ofBounds : List (Bound String) → Except Rejection (Option Filter)
  | [] => .ok none
  | [only] => (ofComparison (.single only)).map some
  | first :: second :: _ => (ofComparison (.pair first second)).map some

/-- The value of a typed bound can be read as a finite number. -/
def Reads (typed : Bound String) (bound : Bound Binary32) : Prop :=
  bound.operator = typed.operator ∧
    Binary32.read? (String.ofList (Text.trim typed.value.toList)) = some bound.value ∧
    bound.value.isFinite = true

theorem readBound_eq_ok_iff {typed : Bound String} {bound : Bound Binary32} :
    readBound typed = .ok bound ↔ Reads typed bound := by
  rcases bound with ⟨operator, value⟩
  simp only [readBound, Reads]
  cases Binary32.read? (String.ofList (Text.trim typed.value.toList)) with
  | none => simp
  | some found =>
      simp only [Option.some.injEq]
      split
      · rename_i finite
        simp only [Except.ok.injEq, Bound.mk.injEq]
        constructor
        · rintro ⟨rfl, rfl⟩
          exact ⟨rfl, rfl, finite⟩
        · rintro ⟨rfl, rfl, _⟩
          exact ⟨rfl, rfl⟩
      · rename_i infinite
        constructor
        · intro impossible
          cases impossible
        · rintro ⟨_, rfl, finite⟩
          exact absurd finite infinite

theorem ofComparison_single_iff {typed : Bound String} {filter : Filter} :
    ofComparison (.single typed) = .ok filter ↔
      ∃ bound, Reads typed bound ∧ filter = .single bound := by
  simp only [← readBound_eq_ok_iff, ofComparison]
  cases readBound typed with
  | error reason => simp [bind, Except.bind]
  | ok bound => simp [bind, Except.bind, pure, Except.pure, eq_comm]

theorem ofComparison_pair_iff {first second : Bound String} {filter : Filter} :
    ofComparison (.pair first second) = .ok filter ↔
      first.operator.Opposes second.operator ∧
        ∃ bound bound', Reads first bound ∧ Reads second bound' ∧
          filter = .between (Range.of bound bound') := by
  simp only [← readBound_eq_ok_iff, ← operatorFault?_eq_none_iff, ofComparison]
  cases operatorFault? first second with
  | some fault => simp
  | none =>
      cases readBound first with
      | error reason => simp [bind, Except.bind]
      | ok bound =>
          cases readBound second with
          | error reason => simp [bind, Except.bind]
          | ok bound' => simp [bind, Except.bind, pure, Except.pure, eq_comm]

/-- What typed bounds ask for, in words. -/
theorem ofBounds_eq_ok_iff {typed : List (Bound String)} (few : typed.length ≤ 2)
    {filter : Option Filter} :
    ofBounds typed = .ok filter ↔
      typed = [] ∧ filter = none ∨
      (∃ only bound, typed = [only] ∧ Reads only bound ∧ filter = some (.single bound)) ∨
      ∃ first second bound bound', typed = [first, second] ∧
        first.operator.Opposes second.operator ∧ Reads first bound ∧ Reads second bound' ∧
        filter = some (.between (Range.of bound bound')) := by
  have mapped {comparison : Comparison} :
      (ofComparison comparison).map some = .ok filter ↔
        ∃ found, ofComparison comparison = .ok found ∧ filter = some found := by
    cases ofComparison comparison <;> simp [Except.map, eq_comm]
  match typed with
  | [] =>
      constructor
      · intro same
        cases same
        exact Or.inl ⟨rfl, rfl⟩
      · rintro (⟨_, rfl⟩ | ⟨_, _, impossible, _⟩ | ⟨_, _, _, _, impossible, _⟩)
        · rfl
        · cases impossible
        · cases impossible
  | [only] =>
      simp only [ofBounds, mapped, ofComparison_single_iff]
      constructor
      · rintro ⟨found, ⟨bound, reads, rfl⟩, rfl⟩
        exact Or.inr (Or.inl ⟨only, bound, rfl, reads, rfl⟩)
      · rintro (⟨impossible, _⟩ | ⟨_, bound, same, reads, rfl⟩ | ⟨_, _, _, _, impossible, _⟩)
        · cases impossible
        · cases same
          exact ⟨_, ⟨bound, reads, rfl⟩, rfl⟩
        · cases impossible
  | [first, second] =>
      simp only [ofBounds, mapped, ofComparison_pair_iff]
      constructor
      · rintro ⟨found, ⟨opposes, bound, bound', reads, reads', rfl⟩, rfl⟩
        exact Or.inr (Or.inr ⟨first, second, bound, bound', rfl, opposes, reads, reads', rfl⟩)
      · rintro (⟨impossible, _⟩ | ⟨_, _, impossible, _⟩ |
          ⟨_, _, bound, bound', same, opposes, reads, reads', rfl⟩)
        · cases impossible
        · cases impossible
        · cases same
          exact ⟨_, ⟨opposes, bound, bound', reads, reads', rfl⟩, rfl⟩
  | _ :: _ :: _ :: _ =>
      simp only [List.length_cons] at few
      omega

end Filter

namespace Range

/-- The range of two bounds has these bounds, in one of the two orders. -/
theorem of_cases (first second : Bound Binary32) :
    (of first second).lower = first ∧ (of first second).upper = second ∧
        first.value ≤ second.value ∨
      (of first second).lower = second ∧ (of first second).upper = first ∧
        ¬ first.value ≤ second.value := by
  unfold of
  split
  · rename_i atMost
    exact Or.inl ⟨rfl, rfl, atMost⟩
  · rename_i beyond
    exact Or.inr ⟨rfl, rfl, beyond⟩

end Range

namespace Filter

/-- The filter that typed bounds ask for has the bounds that they are read as. -/
theorem exists_reads {typed : List (Bound String)} (few : typed.length ≤ 2)
    {filter : Option Filter} (asked : ofBounds typed = .ok filter) :
    ∃ read, List.Forall₂ Reads typed read ∧ (filter.toList.flatMap bounds).Perm read := by
  rcases (ofBounds_eq_ok_iff few).mp asked with ⟨rfl, rfl⟩ | ⟨only, bound, rfl, reads, rfl⟩ |
    ⟨first, second, bound, bound', rfl, _, reads, reads', rfl⟩
  · exact ⟨[], .nil, .nil⟩
  · exact ⟨[bound], .cons reads .nil, .refl _⟩
  · refine ⟨[bound, bound'], .cons reads (.cons reads' .nil), ?_⟩
    simp only [Option.toList_some, List.flatMap_singleton, bounds, Range.bounds]
    rcases Range.of_cases bound bound' with ⟨lower, upper, _⟩ | ⟨lower, upper, _⟩
    · rw [lower, upper]
    · rw [lower, upper]
      exact .swap bound bound' []

/-- As many bounds as were typed. -/
theorem length_bounds_of_ofBounds {typed : List (Bound String)} (few : typed.length ≤ 2)
    {filter : Option Filter} (asked : ofBounds typed = .ok filter) :
    (filter.toList.flatMap bounds).length = typed.length := by
  rcases exists_reads few asked with ⟨read, reads, same⟩
  rw [same.length_eq, reads.length_eq]

end Filter

namespace Number.Binary32

/-- Finite numbers can all be compared. -/
theorem le_of_not_lt {a b : Binary32} (aFinite : a.isFinite = true) (bFinite : b.isFinite = true)
    (notLess : ¬ b < a) : a ≤ b := by
  have rank {value : Binary32} (finite : value.isFinite = true) :
      ∃ place, value.rank? = some place := by
    rcases value with ⟨_ | _, place⟩ | _ | _
    · exact ⟨_, rfl⟩
    · exact ⟨_, rfl⟩
    · cases finite
    · cases finite
  rcases rank aFinite with ⟨left, leftEq⟩
  rcases rank bFinite with ⟨right, rightEq⟩
  refine le_iff.mpr ⟨left, right, leftEq, rightEq, ?_⟩
  apply Int.le_of_not_gt
  intro less
  exact notLess (lt_iff.mpr ⟨right, left, rightEq, leftEq, less⟩)

end Number.Binary32

/-- Two ordered bounds make the range that they are the bounds of. -/
theorem Range.of_bounds (range : Range) (lowerFinite : range.lower.value.isFinite = true)
    (upperFinite : range.upper.value.isFinite = true) :
    Range.of range.lower range.upper = range := by
  unfold Range.of
  rw [dif_pos (Binary32.le_of_not_lt lowerFinite upperFinite range.ordered)]

namespace Filter

/-- Operators are given, the two of a range oppose each other, and every number is allowed. -/
def IsSound (allowed : Binary32 → Prop) : Filter → Prop
  | single bound => bound.operator ≠ .absent ∧ allowed bound.value
  | between range =>
      range.lower.operator.Opposes range.upper.operator ∧ allowed range.lower.value ∧
        allowed range.upper.value

theorem IsSound.bounds {allowed : Binary32 → Prop} {filter : Filter}
    (sound : filter.IsSound allowed) :
    ∀ bound ∈ filter.bounds, bound.operator ≠ .absent ∧ allowed bound.value := by
  intro bound member
  cases filter with
  | single only =>
      simp only [Filter.bounds, List.mem_singleton] at member
      exact member ▸ sound
  | between range =>
      simp only [Filter.bounds, Range.bounds, List.mem_cons, List.not_mem_nil, or_false] at member
      rcases member with rfl | rfl
      · exact ⟨sound.1.given, sound.2.1⟩
      · exact ⟨sound.1.symm.given, sound.2.2⟩

/-- Whether a filter is sound depends on its numbers only as far as they are allowed. -/
theorem IsSound.of_bounds {allowed allowed' : Binary32 → Prop} {filter : Filter}
    (sound : filter.IsSound allowed) (each : ∀ bound ∈ filter.bounds, allowed' bound.value) :
    filter.IsSound allowed' := by
  cases filter with
  | single bound => exact ⟨sound.1, each bound (by simp [Filter.bounds])⟩
  | between range =>
      exact ⟨sound.1, each range.lower (by simp [Filter.bounds, Range.bounds]),
        each range.upper (by simp [Filter.bounds, Range.bounds])⟩

/-- The bounds of a sound range are in the order of their values. -/
theorem IsSound.ordered {allowed : Binary32 → Prop} {range : Range}
    (sound : (between range).IsSound allowed)
    (finite : ∀ {value}, allowed value → value.isFinite = true) :
    range.lower.value ≤ range.upper.value :=
  Binary32.le_of_not_lt (finite sound.2.1) (finite sound.2.2) range.ordered

/-- A filter that was asked for is sound. -/
theorem isSound_of_ofBounds {allowed : Binary32 → Prop} {typed : List (Bound String)}
    (few : typed.length ≤ 2) {filter : Filter} (asked : ofBounds typed = .ok (some filter))
    (given : ∀ bound ∈ typed, bound.operator ≠ .absent)
    (valid : ∀ bound ∈ typed, ∀ number, Reads bound number → allowed number.value) :
    filter.IsSound allowed := by
  rcases (ofBounds_eq_ok_iff few).mp asked with ⟨_, impossible⟩ |
    ⟨only, bound, rfl, reads, same⟩ | ⟨first, second, bound, bound', rfl, opposes, reads, reads', same⟩
  · cases impossible
  · rcases Option.some.inj same with rfl
    refine ⟨?_, valid only (by simp) bound reads⟩
    rw [reads.1]
    exact given only (by simp)
  · rcases Option.some.inj same with rfl
    have firstValid := valid first (by simp) bound reads
    have secondValid := valid second (by simp) bound' reads'
    rw [← reads.1, ← reads'.1] at opposes
    rcases Range.of_cases bound bound' with ⟨lower, upper, _⟩ | ⟨lower, upper, _⟩
    · simp only [IsSound, lower, upper]
      exact ⟨opposes, firstValid, secondValid⟩
    · simp only [IsSound, lower, upper]
      exact ⟨opposes.symm, secondValid, firstValid⟩

/-- A bound as it is typed in a command. -/
def typed (bound : Bound Binary32) : Bound String := ⟨bound.operator, bound.value.text⟩

end Filter

end SearchCommands
