import Mathlib.Tactic.Ring
import SearchCommands.Number.Decimal

/-!
# Rounding to places

Places list the finite magnitudes in increasing order.  The magnitude at a place rounds to the place
itself, and a fraction rounds in the same way in every form in which it can be written.  Hence
rounding a decimal depends on its value alone.
-/

namespace SearchCommands.Number

theorem units_of_lt {place : Nat} (small : place < runLength) : units place = place := by
  rw [units, if_pos small]

/-- A place beyond the first run is a run and an offset in it. -/
theorem exists_run {place : Nat} (large : runLength ≤ place) :
    ∃ run offset, offset < runLength ∧ place = (run + 1) * runLength + offset := by
  refine ⟨place / runLength - 1, place % runLength, Nat.mod_lt _ (by decide), ?_⟩
  have positive : 1 ≤ place / runLength := (Nat.one_le_div_iff (by decide)).mpr large
  rw [Nat.sub_add_cancel positive, Nat.mul_comm]
  exact (Nat.div_add_mod place runLength).symm

theorem units_of_run (run : Nat) {offset : Nat} (inRun : offset < runLength) :
    units ((run + 1) * runLength + offset) = (runLength + offset) * 2 ^ run := by
  have quotient : ((run + 1) * runLength + offset) / runLength = run + 1 := by
    rw [Nat.mul_comm, Nat.mul_add_div (by decide), Nat.div_eq_of_lt inRun, Nat.add_zero]
  have remainder : ((run + 1) * runLength + offset) % runLength = offset := by
    rw [Nat.mul_comm, Nat.mul_add_mod, Nat.mod_eq_of_lt inRun]
  have notSmall : ¬ (run + 1) * runLength + offset < runLength := by
    rw [Nat.add_mul]
    omega
  rw [units, if_neg notSmall, quotient, remainder, Nat.add_sub_cancel, Nat.shiftLeft_eq]

/-- The magnitudes increase with their places. -/
theorem units_lt_succ (place : Nat) : units place < units (place + 1) := by
  by_cases small : place < runLength
  · rw [units_of_lt small]
    by_cases next : place + 1 < runLength
    · rw [units_of_lt next]
      omega
    · have edge : place + 1 = (0 + 1) * runLength + 0 := by omega
      rw [edge, units_of_run 0 (by decide)]
      omega
  · rcases exists_run (Nat.le_of_not_lt small) with ⟨run, offset, inRun, rfl⟩
    rw [units_of_run run inRun]
    have scale : 0 < 2 ^ run := Nat.two_pow_pos run
    by_cases next : offset + 1 < runLength
    · rw [Nat.add_assoc, units_of_run run next]
      exact Nat.mul_lt_mul_of_pos_right (by omega) scale
    · have edge : (run + 1) * runLength + offset + 1 = (run + 1 + 1) * runLength + 0 := by
        rw [Nat.add_mul (run + 1) 1]
        omega
      rw [edge, units_of_run (run + 1) (by decide), Nat.pow_succ, Nat.mul_comm (2 ^ run) 2,
        ← Nat.mul_assoc]
      exact Nat.mul_lt_mul_of_pos_right (by omega) scale

theorem units_zero : units 0 = 0 := units_of_lt (by decide)

theorem units_pos {place : Nat} (positive : 0 < place) : 0 < units place := by
  rcases Nat.exists_eq_succ_of_ne_zero (Nat.pos_iff_ne_zero.mp positive) with ⟨before, rfl⟩
  exact Nat.zero_lt_of_lt (units_lt_succ before)

/-- A multiple of at least 24 binary digits lies in the run that its length gives. -/
theorem placeBelow_of_le {multiple : Nat} (large : runLength ≤ multiple) :
    ∃ run offset, offset < runLength ∧ run = multiple.log2 - 23 ∧
      multiple / 2 ^ run = runLength + offset ∧
      placeBelow multiple = (run + 1) * runLength + offset := by
  have nonzero : multiple ≠ 0 := by
    rintro rfl
    exact absurd large (by decide)
  have runEq : runLength = 2 ^ 23 := by decide
  have long : 23 ≤ multiple.log2 := by
    rw [Nat.le_log2 nonzero, ← runEq]
    exact large
  have split : multiple.log2 = (multiple.log2 - 23) + 23 := by omega
  have low : runLength ≤ multiple / 2 ^ (multiple.log2 - 23) := by
    rw [Nat.le_div_iff_mul_le (Nat.two_pow_pos _), runEq, ← Nat.pow_add, Nat.add_comm, ← split]
    exact Nat.log2_self_le nonzero
  have high : multiple / 2 ^ (multiple.log2 - 23) < 2 * runLength := by
    rw [Nat.div_lt_iff_lt_mul (Nat.two_pow_pos _), runEq, ← Nat.pow_succ', ← Nat.pow_add,
      show 23 + 1 + (multiple.log2 - 23) = multiple.log2 + 1 by omega]
    exact Nat.lt_log2_self
  refine ⟨multiple.log2 - 23, multiple / 2 ^ (multiple.log2 - 23) - runLength, by omega, rfl,
    by omega, ?_⟩
  rw [placeBelow, Nat.shiftRight_eq_div_pow, Nat.add_mul]
  omega

theorem placeBelow_of_lt {multiple : Nat} (small : multiple < runLength) :
    placeBelow multiple = multiple := by
  have short : multiple.log2 - 23 = 0 := by
    by_cases zero : multiple = 0
    · rw [zero, Nat.log2_zero]
    · have : multiple.log2 < 23 := (Nat.log2_lt zero).mpr small
      omega
  rw [placeBelow, short]
  simp

theorem placeBelow_units (place : Nat) : placeBelow (units place) = place := by
  by_cases small : place < runLength
  · rw [units_of_lt small, placeBelow_of_lt small]
  · rcases exists_run (Nat.le_of_not_lt small) with ⟨run, offset, inRun, rfl⟩
    rw [units_of_run run inRun]
    have scale : 0 < 2 ^ run := Nat.two_pow_pos run
    have log : ((runLength + offset) * 2 ^ run).log2 = 23 + run := by
      have nonzero : (runLength + offset) * 2 ^ run ≠ 0 :=
        Nat.mul_ne_zero (by simp [runLength]) scale.ne'
      rw [Nat.log2_eq_iff nonzero]
      have runEq : runLength = 2 ^ 23 := by decide
      constructor
      · rw [Nat.pow_add, ← runEq]
        exact Nat.mul_le_mul_right _ (Nat.le_add_right _ _)
      · rw [show 23 + run + 1 = 23 + 1 + run by omega, Nat.pow_add, Nat.pow_succ, ← runEq]
        exact Nat.mul_lt_mul_of_pos_right (by omega) scale
    rw [placeBelow, log, Nat.add_sub_cancel_left, Nat.shiftRight_eq_div_pow,
      Nat.mul_div_cancel _ scale, Nat.add_mul]
    omega

/-- A magnitude rounds to its own place. -/
theorem nearestPlace_units (place : Nat) : nearestPlace (units place) 1 = place := by
  have next := units_lt_succ place
  simp only [nearestPlace, Nat.div_one, placeBelow_units, Nat.mul_one]
  rw [if_pos (by omega)]

/-- Rounding a fraction does not depend on how the fraction is written. -/
theorem nearestPlace_scale (numerator denominator : Nat) {factor : Nat} (positive : 0 < factor) :
    nearestPlace (numerator * factor) (denominator * factor) =
      nearestPlace numerator denominator := by
  unfold nearestPlace
  rw [Nat.mul_div_mul_right _ _ positive]
  have left : 2 * (numerator * factor) = (2 * numerator) * factor := by ring
  have right (twice : Nat) :
      twice * (denominator * factor) = (twice * denominator) * factor := by ring
  simp only [left, right, Nat.mul_lt_mul_right positive]

/-- Equal fractions round to the same place. -/
theorem nearestPlace_congr {numerator denominator numerator' denominator' : Nat}
    (positive : 0 < denominator) (positive' : 0 < denominator')
    (same : numerator * denominator' = numerator' * denominator) :
    nearestPlace numerator denominator = nearestPlace numerator' denominator' := by
  rw [← nearestPlace_scale numerator denominator positive',
    ← nearestPlace_scale numerator' denominator' positive, same, Nat.mul_comm denominator]

end SearchCommands.Number
