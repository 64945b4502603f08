import SearchCommands.Proofs.Number.ReadBack

/-!
# Whole numbers

A number without a point is read as a whole number, for where rounding has a choice all magnitudes
are whole.  A whole number is written without a point, for its own digits round to it and the
shortest decimal has no more digits than that.
-/

namespace SearchCommands.Number

open FieldPattern

/-- A finite number whose magnitude is a multiple of one, and one is `2 ^ 149` units. -/
def Binary32.IsWhole (value : Binary32) : Prop :=
  ∃ negative place, value = .finite negative place ∧ 2 ^ unitDigits ∣ units place.val

theorem Binary32.IsWhole.isFinite {value : Binary32} (whole : value.IsWhole) :
    value.isFinite = true := by
  rcases whole with ⟨negative, place, rfl, _⟩
  rfl

/-- From some run on, all magnitudes are multiples of the distance in that run. -/
theorem dvd_units_of_run {run offset power : Nat} (inRun : offset < runLength)
    (large : power ≤ run) : 2 ^ power ∣ units ((run + 1) * runLength + offset) := by
  rw [units_of_run run inRun]
  exact Nat.dvd_mul_left_of_dvd (Nat.pow_dvd_pow 2 large) _

/-- A multiple of a power of two is rounded to a multiple of it. -/
theorem dvd_units_nearestPlace (value : Nat) {power : Nat} (long : 23 ≤ power) :
    2 ^ power ∣ units (nearestPlace (value * 2 ^ power) 1) := by
  rcases Nat.eq_zero_or_pos value with rfl | positive
  · have zero := nearestPlace_units 0
    rw [units_zero] at zero
    rw [Nat.zero_mul, zero, units_zero]
    exact Nat.dvd_zero _
  · have large : runLength ≤ value * 2 ^ power :=
      calc runLength = 1 * 2 ^ 23 := by decide
        _ ≤ value * 2 ^ power :=
          Nat.mul_le_mul positive (Nat.pow_le_pow_right (by decide) long)
    rcases placeBelow_of_le large with ⟨run, offset, inRun, _, quotient, below⟩
    rcases Nat.le_total run power with small | longRun
    · -- every digit of the multiple fits, so it is a magnitude itself
      have divides : 2 ^ run ∣ value * 2 ^ power :=
        Nat.dvd_mul_left_of_dvd (Nat.pow_dvd_pow 2 small) _
      have same : value * 2 ^ power = units ((run + 1) * runLength + offset) := by
        rw [units_of_run run inRun, ← quotient, Nat.div_mul_cancel divides]
      have rounded := nearestPlace_units ((run + 1) * runLength + offset)
      rw [← same] at rounded
      rw [rounded, ← same]
      exact Nat.dvd_mul_left _ _
    · have lower := dvd_units_of_run inRun longRun
      have upper : 2 ^ power ∣ units ((run + 1) * runLength + offset + 1) := by
        by_cases next : offset + 1 < runLength
        · rw [Nat.add_assoc]
          exact dvd_units_of_run next longRun
        · have edge : (run + 1) * runLength + offset + 1 = (run + 1 + 1) * runLength + 0 := by
            rw [Nat.add_mul (run + 1) 1]
            omega
          rw [edge]
          exact dvd_units_of_run (by decide) (Nat.le_succ_of_le longRun)
      simp only [nearestPlace, Nat.div_one, below]
      split
      · exact lower
      · split
        · exact upper
        · rcases Nat.mod_two_eq_zero_or_one ((run + 1) * runLength + offset) with even | odd
          · rw [even, Nat.add_zero]
            exact lower
          · rw [odd]
            exact upper

/-- A decimal without digits behind the point rounds to a whole number, if to a finite one. -/
theorem dvd_units_place (value : Nat)
    (finite : (Decimal.mk value 0).place < magnitudeCount) :
    2 ^ unitDigits ∣ units (Decimal.mk value 0).place := by
  have cases : (Decimal.mk value 0).place = 0 ∨ (Decimal.mk value 0).place = magnitudeCount ∨
      (Decimal.mk value 0).place = nearestPlace (value * 2 ^ unitDigits) 1 := by
    simp only [Decimal.place]
    split
    · exact Or.inl rfl
    · split
      · exact Or.inr (Or.inl rfl)
      · simp [tenTo, Nat.shiftLeft_eq]
  rcases cases with zero | beyond | nearest
  · rw [zero, units_zero]
    exact Nat.dvd_zero _
  · omega
  · rw [nearest]
    exact dvd_units_nearestPlace value (by decide)

namespace Binary32

theorem isWhole_ofPlace {value : Nat} {negative : Bool}
    (finite : (ofPlace negative (Decimal.mk value 0).place).isFinite = true) :
    (ofPlace negative (Decimal.mk value 0).place).IsWhole := by
  rw [ofPlace] at finite ⊢
  split
  · rename_i inside
    exact ⟨negative, _, rfl, dvd_units_place value inside⟩
  · rename_i outside
    rw [dif_neg outside] at finite
    cases finite

/-- The numbers of a number field can all be read. -/
theorem exists_read? {signed whole : Bool} {text : List Char}
    (number : NumberText signed whole text) : ∃ value, read? (String.ofList text) = some value := by
  rcases number with unsigned | ⟨_, digits, rfl, unsigned⟩
  · rcases exists_readDecimal? unsigned with ⟨decimal, read, _⟩
    exact ⟨_, read?_unsigned unsigned read⟩
  · rcases exists_readDecimal? unsigned with ⟨decimal, read, _⟩
    exact ⟨_, read?_minus read⟩

/-- Digits after an optional minus sign are read as a whole number, if as a finite one. -/
theorem exists_read?_whole {text : List Char} (number : NumberText true true text) :
    ∃ value, read? (String.ofList text) = some value ∧ (value.isFinite = true → value.IsWhole) := by
  rcases number with unsigned | ⟨_, digits, rfl, unsigned⟩
  · rcases exists_readDecimal? unsigned with ⟨decimal, read, whole⟩
    rcases whole rfl with rfl
    exact ⟨_, read?_unsigned unsigned read, isWhole_ofPlace⟩
  · rcases exists_readDecimal? unsigned with ⟨decimal, read, whole⟩
    rcases whole rfl with rfl
    exact ⟨_, read?_minus read, isWhole_ofPlace⟩

end Binary32

theorem exactDecimal_of_whole {place value : Nat} (whole : units place = 2 ^ unitDigits * value) :
    (exactDecimal place).digits = value * 10 ^ unitDigits := by
  change units place * 5 ^ unitDigits = _
  rw [whole, Nat.mul_comm _ value, Nat.mul_assoc, ← Nat.mul_pow]

/-- A whole number is written without a point. -/
theorem unsigned_whole {place : Nat} (finite : place < magnitudeCount)
    (whole : 2 ^ unitDigits ∣ units place) : Unsigned true (plainStyle.magnitude place) := by
  rcases exists_layOut (shortest true place) with ⟨digits, exponent, isDigits, shown, _, power⟩
  have noFraction : 0 ≤ exponent := by
    rcases power with positive | ⟨count, rfl, last, split⟩
    · exact positive
    · rcases Nat.eq_zero_or_pos place with rfl | placePositive
      · exfalso
        have noDigits : (shortest true 0).digits = 0 := by decide +kernel
        rw [noDigits] at split
        apply last
        cases count with
        | zero =>
            rw [List.replicate_zero, List.append_nil] at split
            rw [← split]
            rfl
        | succ count =>
            have length := congrArg List.length split
            have nonempty := List.length_pos_iff.mpr isDigits.1
            simp only [toDigits, Nat.toDigits_zero, List.length_append, List.length_replicate,
              List.length_singleton] at length
            omega
      · rcases whole with ⟨value, multiple⟩
        have positive : 0 < value := by
          apply Nat.pos_of_ne_zero
          rintro rfl
          have := units_pos placePositive
          omega
        exact (isShortest true place).exponent_nonneg (place_exactDecimal finite) positive
          (exactDecimal_of_whole multiple) rfl last split
  have unsigned := (layOut_plain isDigits exponent).1
  rw [decide_eq_true noFraction] at unsigned
  change Unsigned true (plainStyle.decimal (shortest true place))
  rw [shown]
  exact unsigned

/-- A whole number is written with digits after an optional minus sign. -/
theorem Binary32.IsWhole.numberText {value : Binary32} (whole : value.IsWhole) :
    NumberText true true value.text.toList := by
  rcases whole with ⟨negative, place, rfl, divides⟩
  have unsigned := unsigned_whole place.isLt divides
  cases negative with
  | true =>
      rw [Binary32.text_minus, String.toList_ofList]
      exact Or.inr ⟨rfl, _, rfl, unsigned⟩
  | false =>
      rw [Binary32.text_plus, String.toList_ofList]
      exact Or.inl unsigned

end SearchCommands.Number
