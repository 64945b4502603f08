import SearchCommands.Proofs.Search.RoundTrip

/-!
# Searches with one canonical text

A search that was read is read back from its canonical text, so only one of them has that text.
Equality is slightly coarser than the text: it compares numbers by their values, so it does not see
the minus sign of a zero, and a play count can be typed with one (`text_shows_minus_zero`).  Two
searches that were read have one canonical text exactly if they are equal and have the same minus
signs there (`text_eq_iff_of_read`).
-/

namespace SearchCommands

open Number

namespace Number.Binary32

/-- The zero with a minus sign, which equals the one without. -/
def isMinusZero : Binary32 → Bool
  | finite true place => place.val == 0
  | _ => false

/-- Equal numbers are the same, up to the sign of a zero. -/
theorem eq_of_beq_of_isMinusZero {value value' : Binary32} (same : (value == value') = true)
    (zeros : value.isMinusZero = value'.isMinusZero) : value = value' := by
  cases value with
  | finite negative place =>
      obtain ⟨negative', rfl⟩ := finite_of_beq same
      -- opposite numbers are equal only if they are the two zeros
      change sameValue _ _ = true at same
      cases negative <;> cases negative' <;> simp [sameValue, rank?, isMinusZero] at same zeros ⊢ <;>
        omega
  | infinite negative =>
      change sameValue _ _ = true at same
      rcases value' with ⟨negative', place'⟩ | negative' | _
      · have inside := place'.isLt
        cases negative <;> cases negative' <;> simp [sameValue, rank?] at same <;> omega
      · cases negative <;> cases negative' <;> simp [sameValue, rank?, magnitudeCount] at same ⊢
      · cases negative <;> simp [sameValue, rank?] at same
  | nan => simp [BEq.beq, sameValue, rank?] at same

theorem IsUnsigned.isMinusZero_eq {value : Binary32} (unsigned : value.IsUnsigned) :
    value.isMinusZero = false := by
  obtain ⟨place, rfl⟩ := unsigned
  rfl

end Number.Binary32

namespace Filter

/-- Which of the bounds are zeros with a minus sign. -/
def minusZeros (filter : Filter) : List Bool :=
  filter.bounds.map fun bound => bound.value.isMinusZero

theorem bound_eq_of_beq {bound bound' : Bound Binary32} (same : (bound == bound') = true)
    (zeros : bound.value.isMinusZero = bound'.value.isMinusZero) : bound = bound' := by
  rcases bound with ⟨operator, value⟩
  rcases bound' with ⟨operator', value'⟩
  obtain ⟨operators, values⟩ := beq_bound_iff.mp same
  simp only [Bound.mk.injEq]
  exact ⟨operators, Binary32.eq_of_beq_of_isMinusZero values zeros⟩

/-- Equal filters are the same, up to the signs of zeros. -/
theorem eq_of_beq_of_minusZeros {filter filter' : Filter} (same : (filter == filter') = true)
    (zeros : filter.minusZeros = filter'.minusZeros) : filter = filter' := by
  rcases beq_cases same with ⟨bound, bound', rfl, rfl, bounds⟩ |
    ⟨range, range', rfl, rfl, lower, upper⟩
  · simp only [minusZeros, Filter.bounds, List.map_cons, List.map_nil, List.cons.injEq, and_true]
      at zeros
    simpa using bound_eq_of_beq bounds zeros
  · simp only [minusZeros, Filter.bounds, Range.bounds, List.map_cons, List.map_nil,
      List.cons.injEq, and_true] at zeros
    rcases range with ⟨first, second, _⟩
    rcases range' with ⟨first', second', _⟩
    simp only [between.injEq, Range.mk.injEq]
    exact ⟨bound_eq_of_beq lower zeros.1, bound_eq_of_beq upper zeros.2⟩

/-- No bound without a minus sign is a zero with one. -/
theorem IsSound.minusZeros_eq {filter : Filter} (sound : filter.IsSound Binary32.IsUnsigned) :
    filter.minusZeros = List.replicate filter.bounds.length false := by
  simp only [minusZeros, List.map_eq_replicate_iff]
  intro bound member
  exact (sound.bounds bound member).2.isMinusZero_eq

end Filter

namespace Search

open Beatmap

/-- Options with equal contents are the same if the contents are. -/
theorem eq_of_beq_option {α : Type} [BEq α] {left right : Option α}
    (same : (left == right) = true)
    (contents : ∀ value ∈ left, ∀ value' ∈ right, (value == value') = true → value = value') :
    left = right := by
  cases left with
  | none => cases right <;> simp_all
  | some value =>
      cases right with
      | none => simp at same
      | some value' => simp [contents value rfl value' rfl (by simpa using same)]

/-- Equal criteria without minus signs are the same. -/
theorem criteria_eq_of_beq {criteria criteria' : Criteria} (faithful : criteria.IsFaithful)
    (faithful' : criteria'.IsFaithful) (same : (criteria == criteria') = true) :
    criteria = criteria' := by
  rcases criteria with ⟨filters⟩
  rcases criteria' with ⟨filters'⟩
  simp only [Criteria.mk.injEq]
  funext measure
  apply eq_of_beq_option (beq_criteria_iff.mp same measure)
  intro filter own filter' own' equal
  apply Filter.eq_of_beq_of_minusZeros equal
  simp only [(faithful.filters measure filter own).minusZeros_eq,
    (faithful'.filters measure filter' own').minusZeros_eq, Filter.length_bounds_of_beq equal]

variable {search search' : Search}

/-- Equal searches that can be typed are the same, up to the signs of zeros in the play count. -/
theorem IsFaithful.eq_of_beq (faithful : search.IsFaithful) (faithful' : search'.IsFaithful)
    (same : (search == search') = true)
    (zeros : search.playcount.map Filter.minusZeros = search'.playcount.map Filter.minusZeros) :
    search = search' := by
  obtain ⟨username, exact, query, artist, title, playcount, beatmap⟩ := beq_iff.mp same
  have playcounts : search.playcount = search'.playcount := by
    apply eq_of_beq_option playcount
    intro filter own filter' own' equal
    apply Filter.eq_of_beq_of_minusZeros equal
    simpa [Option.mem_def.mp own, Option.mem_def.mp own'] using zeros
  have beatmaps : search.beatmap = search'.beatmap := by
    apply eq_of_beq_option beatmap
    intro criteria own criteria' own' equal
    exact criteria_eq_of_beq (faithful.beatmap criteria own) (faithful'.beatmap criteria' own') equal
  rcases search
  rcases search'
  simp only [mk.injEq]
  exact ⟨username, exact, query, artist, title, playcounts, beatmaps⟩

/-- Only one search that can be typed has a given canonical text, since it is read back. -/
theorem IsFaithful.eq_of_text_eq (faithful : search.IsFaithful) (faithful' : search'.IsFaithful)
    (same : search.text = search'.text) : search = search' := by
  have back := faithful.read_text
  simp only [same, faithful'.read_text, Except.ok.injEq, Outcome.mk.injEq, and_true] at back
  exact back.symm

/-- Two searches that were read have one canonical text exactly if they are equal and the zeros in
their play counts have the same signs. -/
theorem text_eq_iff_of_read {input input' : String} {outcome outcome' : Outcome Search}
    (done : read input = .ok outcome) (done' : read input' = .ok outcome') :
    outcome.value.text = outcome'.value.text ↔
      (outcome.value == outcome'.value) = true ∧
        outcome.value.playcount.map Filter.minusZeros =
          outcome'.value.playcount.map Filter.minusZeros := by
  have faithful := isFaithful_of_read done
  have faithful' := isFaithful_of_read done'
  constructor
  · intro same
    rw [← faithful.eq_of_text_eq faithful' same]
    exact ⟨faithful.beq_self, rfl⟩
  · rintro ⟨same, zeros⟩
    rw [faithful.eq_of_beq faithful' same zeros]

/-- Two orders of a command have one canonical text. -/
theorem text_eq_of_mixedCommand :
    read "AR>9 mrekk -e -t\t\" ar<1 -q\" \npc>=-10 ar<=.5 " =
        .ok ⟨Composition.mixedCommand.search, ""⟩ ∧
      read "mrekk ar<=.5 pc>=-10 -t\t\" ar<1 -q\" -e AR>9" =
        .ok ⟨Composition.reorderedCommand.search, ""⟩ ∧
      (Composition.mixedCommand.search == Composition.reorderedCommand.search) = true ∧
      Composition.mixedCommand.search.text = Composition.reorderedCommand.search.text := by
  have done := Composition.read_text Composition.mixedCommand_isValid
    Composition.mixedCommand_isConsistent
  have done' := Composition.read_text Composition.reorderedCommand_isValid
    (Composition.mixedCommand_isConsistent.of_sameItems Composition.sameItems_reorderedCommand)
  have same : (Composition.mixedCommand.search == Composition.reorderedCommand.search) = true := by
    decide +kernel
  exact ⟨done, done', same, (text_eq_iff_of_read done done').mpr ⟨same, by decide +kernel⟩⟩

/-- The search for plays of maps that were played more often than a zero with a sign. -/
def aboveZero (negative : Bool) : Search :=
  { empty with playcount := some (.single ⟨.greater, .finite negative ⟨0, Nat.zero_lt_succ _⟩⟩) }

theorem aboveZero_isFaithful (negative : Bool) : (aboveZero negative).IsFaithful where
  username := isPlainText_unspecifiedName
  query := by simp [aboveZero, empty]
  artist := by simp [aboveZero, empty]
  title := by simp [aboveZero, empty]
  exclusive := Or.inl rfl
  playcount := by
    rintro filter member
    obtain rfl := Option.some.inj member
    exact ⟨Operator.noConfusion, negative, _, rfl, Nat.dvd_zero _⟩
  beatmap := by simp [aboveZero, empty]

/-- A zero with a minus sign equals the one without, but its sign is printed. -/
theorem text_shows_minus_zero :
    ∃ outcome outcome' : Outcome Search, read "c>0" = .ok outcome ∧ read "c>-0" = .ok outcome' ∧
      (outcome.value == outcome'.value) = true ∧ outcome.value.text ≠ outcome'.value.text := by
  have plus : (aboveZero false).text = "c>0" := by decide +kernel
  have minus : (aboveZero true).text = "c>-0" := by decide +kernel
  refine ⟨⟨aboveZero false, ""⟩, ⟨aboveZero true, ""⟩, ?_, ?_, by decide +kernel, ?_⟩
  · rw [← plus]
    exact (aboveZero_isFaithful false).read_text
  · rw [← minus]
    exact (aboveZero_isFaithful true).read_text
  · simp only [plus, minus]
    decide

end Search

end SearchCommands
