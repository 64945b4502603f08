import SearchCommands.Number.Shortest
import SearchCommands.Proofs.Number.Rounding

/-!
# Decimals by value

Zeros at the end of the digits of a decimal can be moved into its power of ten, and the place to
which the decimal rounds stays the same.  The exact decimal of a magnitude rounds to the place of
the magnitude, and so does the shortest one, since each candidate for it has been rounded.
-/

namespace SearchCommands.Number

theorem ofDigits_append (left right : List Char) :
    ofDigits (left ++ right) = ofDigits left * 10 ^ right.length + ofDigits right := by
  change Nat.ofDigitChars 10 (left ++ right) 0 =
    Nat.ofDigitChars 10 left 0 * 10 ^ right.length + Nat.ofDigitChars 10 right 0
  rw [Nat.ofDigitChars_append, Nat.ofDigitChars_eq_ofDigitChars_zero, Nat.mul_comm]

theorem ofDigits_zeros (count : Nat) : ofDigits (List.replicate count '0') = 0 :=
  Nat.ofDigitChars_replicate_zero

theorem ofDigits_append_zeros (text : List Char) (count : Nat) :
    ofDigits (text ++ List.replicate count '0') = ofDigits text * 10 ^ count := by
  rw [ofDigits_append, ofDigits_zeros, List.length_replicate, Nat.add_zero]

theorem ofDigits_toDigits (value : Nat) : ofDigits (toDigits value) = value :=
  Nat.ofDigitChars_ten_toDigits

theorem isDigit_of_mem_toDigits {value : Nat} {c : Char} (member : c ∈ toDigits value) :
    c.isDigit = true :=
  Nat.isDigit_of_mem_toDigits (by decide) (by decide) member

/-- A factor of ten is a zero at the end of the digits. -/
theorem toDigits_scale {value : Nat} (positive : 0 < value) (count : Nat) :
    toDigits (value * 10 ^ count) = toDigits value ++ List.replicate count '0' := by
  induction count with
  | zero => simp
  | succ count ih =>
      have larger : 0 < value * 10 ^ count := Nat.mul_pos positive (Nat.pow_pos (by decide))
      have step := Nat.toDigits_append_toDigits (b := 10) (n := value * 10 ^ count) (d := 0)
        (by decide) larger (by decide)
      have scaled : value * 10 ^ (count + 1) = 10 * (value * 10 ^ count) + 0 := by
        rw [Nat.pow_succ]
        ring
      rw [scaled]
      change Nat.toDigits 10 (10 * (value * 10 ^ count) + 0) = _
      rw [← step, Nat.toDigits_zero, List.replicate_succ', ← List.append_assoc, ← ih]
      rfl

namespace Decimal

theorem place_zero (exponent : Int) : place ⟨0, exponent⟩ = 0 := by
  simp [place]

/-- Of the powers of ten in the numerator and in the denominator, one is one. -/
theorem nearestPlace_tenTo (digits : Nat) (exponent : Int) :
    (if 0 ≤ exponent then nearestPlace ((digits * tenTo exponent.toNat) <<< unitDigits) 1
      else nearestPlace (digits <<< unitDigits) (tenTo (-exponent).toNat)) =
      nearestPlace (digits * 10 ^ exponent.toNat * 2 ^ unitDigits) (10 ^ (-exponent).toNat) := by
  simp only [tenTo, Nat.pow_eq, Nat.shiftLeft_eq]
  split
  · have none : (-exponent).toNat = 0 := by omega
    rw [none, Nat.pow_zero]
  · have none : exponent.toNat = 0 := by omega
    rw [none, Nat.pow_zero, Nat.mul_one]

/-- Zeros at the end of the digits count as powers of ten. -/
theorem place_scale (digits count : Nat) (exponent : Int) :
    place ⟨digits * 10 ^ count, exponent - count⟩ = place ⟨digits, exponent⟩ := by
  rcases Nat.eq_zero_or_pos digits with rfl | positive
  · rw [Nat.zero_mul, place_zero, place_zero]
  have scaledPositive : 0 < digits * 10 ^ count := Nat.mul_pos positive (Nat.pow_pos (by decide))
  have size : ((toDigits (digits * 10 ^ count)).length : Int) + (exponent - count) =
      (toDigits digits).length + exponent := by
    rw [toDigits_scale positive, List.length_append, List.length_replicate]
    omega
  have powers : 10 ^ count * 10 ^ (exponent - count).toNat * 10 ^ (-exponent).toNat =
      10 ^ exponent.toNat * 10 ^ (-(exponent - count)).toNat := by
    rw [← Nat.pow_add, ← Nat.pow_add, ← Nat.pow_add]
    congr 1
    omega
  -- the decimals have equally many digits before the point, and they are equal fractions
  simp only [place, size, Nat.ne_of_gt positive, Nat.ne_of_gt scaledPositive, false_or,
    nearestPlace_tenTo]
  have fractions : nearestPlace
      (digits * 10 ^ count * 10 ^ (exponent - count).toNat * 2 ^ unitDigits)
      (10 ^ (-(exponent - count)).toNat) =
      nearestPlace (digits * 10 ^ exponent.toNat * 2 ^ unitDigits) (10 ^ (-exponent).toNat) := by
    apply nearestPlace_congr (Nat.pow_pos (by decide)) (Nat.pow_pos (by decide))
    calc digits * 10 ^ count * 10 ^ (exponent - count).toNat * 2 ^ unitDigits *
          10 ^ (-exponent).toNat
        = digits * 2 ^ unitDigits *
            (10 ^ count * 10 ^ (exponent - count).toNat * 10 ^ (-exponent).toNat) := by ring
      _ = digits * 2 ^ unitDigits *
            (10 ^ exponent.toNat * 10 ^ (-(exponent - count)).toNat) := by rw [powers]
      _ = digits * 10 ^ exponent.toNat * 2 ^ unitDigits *
            10 ^ (-(exponent - count)).toNat := by ring
  rw [fractions]

end Decimal

theorem units_lt {place : Nat} (finite : place < magnitudeCount) : units place < 2 ^ 24 * 2 ^ 253 := by
  rcases Nat.lt_or_ge place runLength with small | large
  · rw [units_of_lt small]
    exact Nat.lt_trans small (by decide)
  · rcases exists_run large with ⟨run, offset, inRun, rfl⟩
    rw [units_of_run run inRun]
    have runBound : run ≤ 253 := by
      simp only [magnitudeCount, runLength] at finite
      omega
    calc (runLength + offset) * 2 ^ run < 2 ^ 24 * 2 ^ run := by
          apply Nat.mul_lt_mul_of_pos_right _ (Nat.two_pow_pos run)
          simp only [runLength] at inRun ⊢
          omega
      _ ≤ 2 ^ 24 * 2 ^ 253 := Nat.mul_le_mul_left _ (Nat.pow_le_pow_right (by decide) runBound)

/-- The exact decimal of a magnitude is neither too long nor too short to be rounded. -/
theorem size_exactDecimal {place : Nat} (positive : 0 < place) (finite : place < magnitudeCount) :
    (-50 : Int) ≤ (toDigits (exactDecimal place).digits).length + (exactDecimal place).exponent ∧
      ((toDigits (exactDecimal place).digits).length : Int) + (exactDecimal place).exponent ≤ 50 := by
  have above := units_lt finite
  have below := units_pos positive
  simp only [exactDecimal, unitDigits, Nat.pow_eq]
  have upper : (toDigits (units place * 5 ^ 149)).length ≤ 190 := by
    rw [toDigits, Nat.length_toDigits_le_iff (by decide) (by decide)]
    calc units place * 5 ^ 149 < 2 ^ 24 * 2 ^ 253 * 5 ^ 149 :=
          Nat.mul_lt_mul_of_pos_right above (by decide)
      _ < 10 ^ 190 := by decide
  have lower : ¬ (toDigits (units place * 5 ^ 149)).length ≤ 104 := by
    rw [toDigits, Nat.length_toDigits_le_iff (by decide) (by decide), Nat.not_lt]
    calc 10 ^ 104 ≤ 1 * 5 ^ 149 := by decide
      _ ≤ units place * 5 ^ 149 := Nat.mul_le_mul_right _ below
  omega

/-- The exact decimal of a magnitude rounds to its place. -/
theorem place_exactDecimal {place : Nat} (finite : place < magnitudeCount) :
    (exactDecimal place).place = place := by
  rcases Nat.eq_zero_or_pos place with rfl | positive
  · simp [exactDecimal, units_zero, Decimal.place]
  · rcases size_exactDecimal positive finite with ⟨lower, upper⟩
    have nonzero : (exactDecimal place).digits ≠ 0 :=
      Nat.ne_of_gt (Nat.mul_pos (units_pos positive) (Nat.pow_pos (by decide)))
    have exponent : (exactDecimal place).exponent = -149 := rfl
    have negative : ¬ (0 : Int) ≤ (exactDecimal place).exponent := by
      rw [exponent]
      decide
    simp only [Decimal.place, nonzero, false_or, if_neg (Int.not_lt.mpr lower),
      if_neg (Int.not_lt.mpr upper), if_neg negative]
    have toNat : (-(exactDecimal place).exponent).toNat = 149 := by
      rw [exponent]
      rfl
    rw [toNat]
    simp only [exactDecimal, unitDigits, tenTo, Nat.pow_eq, Nat.shiftLeft_eq]
    have scaled := nearestPlace_scale (units place) 1 (Nat.pow_pos (by decide) : 0 < 10 ^ 149)
    rw [nearestPlace_units, Nat.one_mul] at scaled
    have numerator : units place * 5 ^ 149 * 2 ^ 149 = units place * 10 ^ 149 := by
      rw [Nat.mul_assoc, ← Nat.mul_pow]
    rw [numerator, scaled]

/-- What is nearest with some number of digits has as many digits, and it rounds to the place. -/
theorem nearest?_eq_some {halfUp : Bool} {exact decimal : Decimal} {place count : Nat}
    (found : nearest? halfUp exact place count = some decimal) :
    decimal.place = place ∧
      decimal.exponent = exact.exponent + ((toDigits exact.digits).length - count : Nat) := by
  simp only [nearest?] at found
  split at found
  · rename_i belowFits aboveFits
    rw [beq_iff_eq] at belowFits aboveFits
    rcases Option.some.inj found with rfl
    split
    · exact ⟨aboveFits, rfl⟩
    · exact ⟨belowFits, rfl⟩
  · rename_i belowFits _
    rw [beq_iff_eq] at belowFits
    rcases Option.some.inj found with rfl
    exact ⟨belowFits, rfl⟩
  · rename_i _ aboveFits
    rw [beq_iff_eq] at aboveFits
    rcases Option.some.inj found with rfl
    exact ⟨aboveFits, rfl⟩
  · cases found

/-- If the cut value itself rounds to the place, something is nearest. -/
theorem nearest?_ne_none {halfUp : Bool} {exact : Decimal} {place count : Nat}
    (fits : (Decimal.mk (exact.digits / tenTo ((toDigits exact.digits).length - count))
      (exact.exponent + ((toDigits exact.digits).length - count : Nat))).place = place) :
    nearest? halfUp exact place count ≠ none := by
  simp only [nearest?, fits, beq_self_eq_true]
  split <;> simp_all

/-- What can be found as the shortest decimal for an exact value: the nearest one with the fewest
digits, or the exact value itself. -/
def IsShortest (halfUp : Bool) (exact : Decimal) (place : Nat) (decimal : Decimal) : Prop :=
  (∃ count, nearest? halfUp exact place (count + 1) = some decimal ∧
    ∀ fewer < count, nearest? halfUp exact place (fewer + 1) = none) ∨ decimal = exact

theorem isShortest (halfUp : Bool) (place : Nat) :
    IsShortest halfUp (exactDecimal place) place (shortest halfUp place) := by
  unfold shortest candidate?
  generalize exactDecimal place = exact
  cases found : (List.range 9).findSome? fun count => nearest? halfUp exact place (count + 1) with
  | none => exact Or.inr rfl
  | some decimal =>
      left
      rw [List.findSome?_eq_some_iff] at found
      rcases found with ⟨fewer, count, more, split, fits, none⟩
      have inOrder := congrArg (fun counts => counts[fewer.length]?) split
      have bound : fewer.length < 9 := by
        have := congrArg List.length split
        simp at this
        omega
      have countEq : count = fewer.length := by
        simpa [List.getElem?_range bound] using inOrder.symm
      refine ⟨count, by simpa using fits, ?_⟩
      intro other less
      apply none
      have taken := congrArg (fun counts => counts.take fewer.length) split
      simp only [List.take_left, List.take_range] at taken
      rw [← taken, List.mem_range]
      omega

theorem IsShortest.place_eq {halfUp : Bool} {exact decimal : Decimal} {place : Nat}
    (shortest : IsShortest halfUp exact place decimal) (fits : exact.place = place) :
    decimal.place = place := by
  rcases shortest with ⟨count, found, _⟩ | rfl
  · exact (nearest?_eq_some found).1
  · exact fits

theorem place_shortest (halfUp : Bool) {place : Nat} (finite : place < magnitudeCount) :
    (shortest halfUp place).place = place :=
  (isShortest halfUp place).place_eq (place_exactDecimal finite)

/-- The shortest decimal for a positive whole number, without the zeros at its end, counts no
fractions of one. -/
theorem IsShortest.exponent_nonneg {halfUp : Bool} {exact decimal : Decimal} {place : Nat}
    (shortest : IsShortest halfUp exact place decimal) (fits : exact.place = place)
    {value power : Nat} (positive : 0 < value) (exactDigits : exact.digits = value * 10 ^ power)
    (exactExponent : exact.exponent = -(power : Int)) {digits : List Char} {count : Nat}
    (last : digits.getLast? ≠ some '0')
    (split : toDigits decimal.digits = digits ++ List.replicate count '0') :
    0 ≤ decimal.exponent + count := by
  have exactText : toDigits exact.digits = toDigits value ++ List.replicate power '0' := by
    rw [exactDigits, toDigits_scale positive]
  have exactLength : (toDigits exact.digits).length = (toDigits value).length + power := by
    rw [exactText, List.length_append, List.length_replicate]
  rcases shortest with ⟨fewest, found, fewer⟩ | rfl
  · have exponent := (nearest?_eq_some found).2
    rw [exactExponent, exactLength] at exponent
    have enough : fewest + 1 ≤ (toDigits value).length := by
      apply Nat.le_of_not_lt
      intro more
      have nonempty : 0 < (toDigits value).length := Nat.length_toDigits_pos
      have none := fewer ((toDigits value).length - 1) (by omega)
      rw [Nat.sub_add_cancel nonempty] at none
      refine nearest?_ne_none ?_ none
      -- the own digits of the number are enough to tell it
      have cut : (toDigits exact.digits).length - (toDigits value).length = power := by omega
      have quotient : exact.digits / tenTo power = value := by
        rw [exactDigits]
        exact Nat.mul_div_cancel _ (Nat.pow_pos (by decide))
      rw [cut, quotient, exactExponent, Int.add_left_neg]
      have scaled := Decimal.place_scale value power 0
      rw [← exactDigits, Int.zero_sub, ← exactExponent] at scaled
      rw [← scaled]
      exact fits
    omega
  · rw [exactText] at split
    have enough : power ≤ count := by
      apply Nat.le_of_not_lt
      intro less
      rcases Nat.exists_eq_add_of_lt less with ⟨rest, total⟩
      have count' : power = (rest + 1) + count := by omega
      rw [count', ← List.replicate_append_replicate, ← List.append_assoc] at split
      have shown := List.append_cancel_right split
      apply last
      rw [← shown, List.replicate_succ', ← List.append_assoc, List.getLast?_concat]
    rw [exactExponent]
    omega

end SearchCommands.Number
