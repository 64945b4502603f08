/-!
# Binary32 numbers

The numbers of a filter are IEEE 754 binary32 numbers. A finite number is a sign and a place in the
increasing list of the finite magnitudes, so that comparing magnitudes is comparing places. Every
finite magnitude is a whole multiple of the smallest positive one, its unit; all reading and
writing of numbers is exact arithmetic on such multiples.
-/

namespace SearchCommands.Number

/-- The number of finite magnitudes, which is also the place after the last of them. -/
def magnitudeCount : Nat := 0x7F800000

/-- A binary32 number. -/
inductive Binary32 where
  /-- A sign and the place of the magnitude among the finite ones, from zero up. -/
  | finite (negative : Bool) (place : Fin magnitudeCount)
  /-- An infinity. -/
  | infinite (negative : Bool)
  /-- The result of an undefined operation, which compares with nothing. -/
  | nan
  deriving DecidableEq, Repr

/-- The number of magnitudes that have equal distances, 2²³. -/
def runLength : Nat := 0x800000

/-- The magnitude at a place, as a multiple of the smallest positive magnitude. In the first run the
multiples are consecutive; the second run goes on so, and from there on each run has twice the
distances of the run before. -/
def units (place : Nat) : Nat :=
  if place < runLength then place
  else (runLength + place % runLength) <<< (place / runLength - 1)

/-- The last place whose magnitude is at most the given multiple of the unit. A multiple of up to 24
binary digits is its own place; of a longer one only the first 24 digits count. -/
def placeBelow (multiple : Nat) : Nat :=
  let shift := multiple.log2 - 23
  shift * runLength + multiple >>> shift

/-- The place nearest to `numerator / denominator` units; of two equally near places the even one. -/
def nearestPlace (numerator denominator : Nat) : Nat :=
  let below := placeBelow (numerator / denominator)
  let middle := (units below + units (below + 1)) * denominator
  if 2 * numerator < middle then below
  else if middle < 2 * numerator then below + 1
  else below + below % 2

namespace Binary32

/-- The number with a sign and a place; places beyond the finite ones are infinite. -/
def ofPlace (negative : Bool) (place : Nat) : Binary32 :=
  if finitePlace : place < magnitudeCount then .finite negative ⟨place, finitePlace⟩
  else .infinite negative

/-- Zero without a sign. -/
def zero : Binary32 := .finite false ⟨0, by decide⟩

/-- Neither infinite nor undefined. -/
def isFinite : Binary32 → Bool
  | .finite _ _ => true
  | _ => false

/-- A whole number that increases with the number, if the number can be compared at all. The two
zeros have the same rank. -/
def rank? : Binary32 → Option Int
  | .finite false place => some place.val
  | .finite true place => some (-place.val)
  | .infinite false => some magnitudeCount
  | .infinite true => some (-magnitudeCount)
  | .nan => none

/-- At most, by value; false if either side is undefined. -/
def le (a b : Binary32) : Bool :=
  match a.rank?, b.rank? with
  | some left, some right => left ≤ right
  | _, _ => false

/-- Less, by value; false if either side is undefined. -/
def lt (a b : Binary32) : Bool :=
  match a.rank?, b.rank? with
  | some left, some right => left < right
  | _, _ => false

/-- Equality by value: the two zeros are equal, and an undefined number equals nothing. -/
def sameValue (a b : Binary32) : Bool :=
  match a.rank?, b.rank? with
  | some left, some right => left == right
  | _, _ => false

instance : LE Binary32 := ⟨fun a b => a.le b = true⟩
instance : LT Binary32 := ⟨fun a b => a.lt b = true⟩
instance : BEq Binary32 := ⟨sameValue⟩

instance (a b : Binary32) : Decidable (a ≤ b) := inferInstanceAs (Decidable (a.le b = true))
instance (a b : Binary32) : Decidable (a < b) := inferInstanceAs (Decidable (a.lt b = true))

theorem le_iff {a b : Binary32} :
    a ≤ b ↔ ∃ left right, a.rank? = some left ∧ b.rank? = some right ∧ left ≤ right := by
  change a.le b = true ↔ _
  unfold le
  cases a.rank? <;> cases b.rank? <;> simp

theorem lt_iff {a b : Binary32} :
    a < b ↔ ∃ left right, a.rank? = some left ∧ b.rank? = some right ∧ left < right := by
  change a.lt b = true ↔ _
  unfold lt
  cases a.rank? <;> cases b.rank? <;> simp

/-- What is less is at most. -/
theorem le_of_lt {a b : Binary32} (less : a < b) : a ≤ b := by
  obtain ⟨left, right, hLeft, hRight, h⟩ := lt_iff.1 less
  exact le_iff.2 ⟨left, right, hLeft, hRight, by omega⟩

/-- What is at most another number does not exceed it. -/
theorem not_lt_of_le {a b : Binary32} (atMost : a ≤ b) : ¬ b < a := by
  intro less
  obtain ⟨left, right, hLeft, hRight, h⟩ := le_iff.1 atMost
  obtain ⟨left', right', hLeft', hRight', h'⟩ := lt_iff.1 less
  rw [hLeft] at hRight'
  rw [hRight] at hLeft'
  cases hLeft'
  cases hRight'
  omega

end Binary32

end SearchCommands.Number
