import SearchCommands.Proofs.Field.Spelling
import SearchCommands.Proofs.Number.Decimals

/-!
# Reading numbers back

A finite number is written with digits and at most one point, after a minus sign if it has one.
The text is a number that a field reads, and reading it gives the number again.
-/

namespace SearchCommands.Number

open FieldPattern

theorem takeWhile_digits {digits : List Char} (rest : List Char)
    (all : ∀ c ∈ digits, c.isDigit = true)
    (ends : ∀ c ∈ rest.head?, c.isDigit = false) :
    (digits ++ rest).takeWhile Char.isDigit = digits ∧
      (digits ++ rest).dropWhile Char.isDigit = rest := by
  rw [List.takeWhile_append_of_pos all, List.dropWhile_append_of_pos all]
  cases rest with
  | nil => simp
  | cons c rest =>
      have noDigit : ¬ c.isDigit = true := by simp [ends c (by simp)]
      rw [List.takeWhile_cons_of_neg noDigit, List.dropWhile_cons_of_neg noDigit, List.append_nil]
      exact ⟨rfl, rfl⟩

theorem readDecimal?_digits {text : List Char} (digits : Digits text) :
    readDecimal? text = some ⟨ofDigits text, 0⟩ := by
  rcases digits with ⟨nonempty, all⟩
  rcases takeWhile_digits [] all (by simp) with ⟨taken, dropped⟩
  rw [List.append_nil] at taken dropped
  simp [readDecimal?, taken, dropped, nonempty, readExponent?]

theorem readDecimal?_point {integer fraction : List Char}
    (integerAll : ∀ c ∈ integer, c.isDigit = true) (digits : Digits fraction) :
    readDecimal? (integer ++ '.' :: fraction) =
      some ⟨ofDigits (integer ++ fraction), -fraction.length⟩ := by
  rcases digits with ⟨nonempty, all⟩
  have pointEnds : ∀ c ∈ ('.' :: fraction).head?, c.isDigit = false := by
    intro c member
    rw [List.head?_cons, Option.mem_some_iff] at member
    exact member ▸ rfl
  rcases takeWhile_digits _ integerAll pointEnds with ⟨taken, dropped⟩
  rcases takeWhile_digits [] all (by simp) with ⟨taken', dropped'⟩
  rw [List.append_nil] at taken' dropped'
  simp [readDecimal?, taken, dropped, taken', dropped', nonempty, readExponent?]

/-- The decimal that a number without a sign spells. -/
theorem exists_readDecimal? {whole : Bool} {text : List Char} (unsigned : Unsigned whole text) :
    ∃ decimal, readDecimal? text = some decimal ∧
      (whole = true → decimal = ⟨ofDigits text, 0⟩) := by
  rcases unsigned with digits | ⟨rfl, integer, fraction, rfl, integerDigits, digits⟩
  · exact ⟨_, readDecimal?_digits digits, fun _ => rfl⟩
  · have integerAll : ∀ c ∈ integer, c.isDigit = true := by
      rcases integerDigits with rfl | integerDigits
      · simp
      · exact integerDigits.2
    exact ⟨_, readDecimal?_point integerAll digits, fun isWhole => Bool.noConfusion isWhole⟩

theorem unsigned_head? {whole : Bool} {text : List Char} (unsigned : Unsigned whole text) :
    ∃ c rest, text = c :: rest ∧ c ≠ '-' ∧ c ≠ '+' := by
  have ofDigit {c : Char} (digit : c.isDigit = true) : c ≠ '-' ∧ c ≠ '+' := by
    constructor
    · rintro rfl
      exact absurd digit (by decide)
    · rintro rfl
      exact absurd digit (by decide)
  have ofDigits {text : List Char} (digits : Digits text) :
      ∃ c rest, text = c :: rest ∧ c ≠ '-' ∧ c ≠ '+' := by
    rcases List.exists_cons_of_ne_nil digits.1 with ⟨c, rest, rfl⟩
    exact ⟨c, rest, rfl, ofDigit (digits.2 c (by simp))⟩
  rcases unsigned with digits | ⟨_, integer, fraction, rfl, rfl | digits, _⟩
  · exact ofDigits digits
  · exact ⟨'.', fraction, rfl, by decide, by decide⟩
  · rcases ofDigits digits with ⟨c, rest, rfl, different⟩
    exact ⟨c, rest ++ '.' :: fraction, rfl, different⟩

namespace Binary32

theorem read?_unsigned {whole : Bool} {text : List Char} (unsigned : Unsigned whole text)
    {decimal : Decimal} (read : readDecimal? text = some decimal) :
    read? (String.ofList text) = some (ofPlace false decimal.place) := by
  rcases unsigned_head? unsigned with ⟨c, rest, rfl, noMinus, noPlus⟩
  unfold read?
  rw [String.toList_ofList]
  split
  · rename_i found
    exact absurd (List.cons.inj found).1 noMinus
  · rename_i found
    exact absurd (List.cons.inj found).1 noPlus
  · simp only [readMagnitude?, read, Decimal.toBinary32]

theorem read?_minus {text : List Char} {decimal : Decimal}
    (read : readDecimal? text = some decimal) :
    read? (String.ofList ('-' :: text)) = some (ofPlace true decimal.place) := by
  unfold read?
  rw [String.toList_ofList]
  simp only [readMagnitude?, read, Decimal.toBinary32]

end Binary32

theorem trimZeros_cases (digits : List Char) (exponent : Int) :
    (ofDigits digits = 0 ∧ trimZeros digits exponent = (['0'], 0)) ∨
      ∃ kept count, kept ≠ [] ∧ kept.getLast? ≠ some '0' ∧
        digits = kept ++ List.replicate count '0' ∧
        trimZeros digits exponent = (kept, exponent + count) := by
  have split : digits = (digits.reverse.dropWhile (· == '0')).reverse ++
      (digits.reverse.takeWhile (· == '0')).reverse := by
    rw [← List.reverse_append, List.takeWhile_append_dropWhile, List.reverse_reverse]
  have zeros : (digits.reverse.takeWhile (· == '0')).reverse =
      List.replicate (digits.reverse.takeWhile (· == '0')).length '0' := by
    rw [List.eq_replicate_iff]
    refine ⟨List.length_reverse, ?_⟩
    intro c member
    have isZero := List.all_eq_true.mp List.all_takeWhile c (List.mem_reverse.mp member)
    exact beq_iff_eq.mp isZero
  generalize (digits.reverse.takeWhile (· == '0')).length = count at zeros
  rw [zeros] at split
  unfold trimZeros
  by_cases empty : (digits.reverse.dropWhile (· == '0')).reverse = []
  · left
    rw [empty, List.nil_append] at split
    simp only [empty, List.isEmpty_nil, if_true, and_true]
    rw [split, ofDigits_zeros]
  · right
    refine ⟨_, count, empty, ?_, split, ?_⟩
    · rw [List.getLast?_reverse]
      intro isZero
      have notZero := List.head?_dropWhile_not (· == '0') digits.reverse
      rw [isZero] at notZero
      exact absurd notZero (by decide)
    · have length := congrArg List.length split
      rw [List.length_append, List.length_replicate] at length
      simp only [List.isEmpty_iff, empty, if_false, Prod.mk.injEq, true_and]
      omega

/-- The text is a number without a sign that has the value of a decimal. -/
def Denotes (whole : Bool) (text : List Char) (decimal : Decimal) : Prop :=
  Unsigned whole text ∧
    ∃ read, readDecimal? text = some read ∧ read.place = decimal.place

theorem digits_append_zeros {digits : List Char} (isDigits : Digits digits) (count : Nat) :
    Digits (digits ++ List.replicate count '0') := by
  refine ⟨by simp [isDigits.1], ?_⟩
  intro c member
  rcases List.mem_append.mp member with member | member
  · exact isDigits.2 c member
  · exact (List.mem_replicate.mp member).2 ▸ rfl

theorem digits_zeros_append {digits : List Char} (isDigits : Digits digits) (count : Nat) :
    Digits (List.replicate count '0' ++ digits) := by
  refine ⟨by simp [isDigits.1], ?_⟩
  intro c member
  rcases List.mem_append.mp member with member | member
  · exact (List.mem_replicate.mp member).2 ▸ rfl
  · exact isDigits.2 c member

/-- Zeros behind the digits count the power of ten up. -/
theorem denotes_zeros_behind {digits : List Char} (isDigits : Digits digits) (power : Nat) :
    Denotes true (digits ++ List.replicate power '0') ⟨ofDigits digits, power⟩ := by
  have longer := digits_append_zeros isDigits power
  refine ⟨Or.inl longer, _, readDecimal?_digits longer, ?_⟩
  rw [ofDigits_append_zeros]
  have scaled := Decimal.place_scale (ofDigits digits) power power
  rwa [Int.sub_self] at scaled

/-- A point before the last digits counts the power of ten down. -/
theorem denotes_point {digits : List Char} (all : ∀ c ∈ digits, c.isDigit = true) {cut : Nat}
    (inside : cut < digits.length) :
    Denotes false (digits.take cut ++ '.' :: digits.drop cut)
      ⟨ofDigits digits, cut - digits.length⟩ := by
  have fraction : Digits (digits.drop cut) := by
    refine ⟨?_, fun c member => all c (List.mem_of_mem_drop member)⟩
    rw [ne_eq, List.drop_eq_nil_iff]
    omega
  have integer : ∀ c ∈ digits.take cut, c.isDigit = true :=
    fun c member => all c (List.mem_of_mem_take member)
  refine ⟨Or.inr ⟨rfl, _, _, rfl, ?_, fraction⟩, _, readDecimal?_point integer fraction, ?_⟩
  · by_cases empty : digits.take cut = []
    · exact Or.inl empty
    · exact Or.inr ⟨empty, integer⟩
  · have length : -((digits.drop cut).length : Int) = cut - digits.length := by
      rw [List.length_drop]
      omega
    rw [List.take_append_drop, length]

/-- Zeros between the point and the digits count it down further. -/
theorem denotes_zeros_before {digits : List Char} (isDigits : Digits digits) (zeros : Nat) :
    Denotes false (['0', '.'] ++ List.replicate zeros '0' ++ digits)
      ⟨ofDigits digits, -(zeros + digits.length)⟩ := by
  have fraction := digits_zeros_append isDigits zeros
  have integer : ∀ c ∈ ['0'], c.isDigit = true := by decide
  have split : ['0', '.'] ++ List.replicate zeros '0' ++ digits =
      ['0'] ++ '.' :: (List.replicate zeros '0' ++ digits) := by simp
  rw [split]
  refine ⟨Or.inr ⟨rfl, _, _, rfl, Or.inr ⟨by simp, integer⟩, fraction⟩, _,
    readDecimal?_point integer fraction, ?_⟩
  have value : ofDigits (['0'] ++ (List.replicate zeros '0' ++ digits)) = ofDigits digits := by
    rw [← List.append_assoc, ofDigits_append]
    have none : ofDigits (['0'] ++ List.replicate zeros '0') = 0 := ofDigits_zeros (zeros + 1)
    rw [none, Nat.zero_mul, Nat.zero_add]
  rw [value, List.length_append, List.length_replicate, Nat.cast_add]

/-- Digits and a power of ten are laid out as a number without a sign that has their value, and
without a point if the power of ten is none or counts up. -/
theorem layOut_plain {digits : List Char} (isDigits : Digits digits) (exponent : Int) :
    Denotes (decide (0 ≤ exponent)) (plainStyle.layOut digits exponent)
      ⟨ofDigits digits, exponent⟩ := by
  simp only [Style.layOut, plainStyle, if_true, List.append_nil]
  by_cases whole : 0 ≤ exponent
  · rw [if_pos whole, decide_eq_true whole]
    rcases Int.eq_ofNat_of_zero_le whole with ⟨power, rfl⟩
    exact denotes_zeros_behind isDigits power
  · rw [if_neg whole, decide_eq_false whole]
    have positive : 0 < digits.length := List.length_pos_iff.mpr isDigits.1
    by_cases lead : 0 ≤ exponent + digits.length - 1
    · rw [if_pos lead]
      generalize cutEq : (exponent + digits.length - 1 + 1).toNat = cut
      have cutBound : cut < digits.length := by omega
      obtain rfl : exponent = cut - digits.length := by omega
      exact denotes_point isDigits.2 cutBound
    · rw [if_neg lead]
      generalize zerosEq : (-(exponent + digits.length - 1) - 1).toNat = zeros
      obtain rfl : exponent = -(zeros + digits.length) := by omega
      exact denotes_zeros_before isDigits zeros

/-- The digits of a decimal and their power of ten, as they are laid out. -/
theorem exists_layOut (decimal : Decimal) :
    ∃ digits exponent, Digits digits ∧
      plainStyle.decimal decimal = plainStyle.layOut digits exponent ∧
      (Decimal.mk (ofDigits digits) exponent).place = decimal.place ∧
      (0 ≤ exponent ∨ ∃ count : Nat, exponent = decimal.exponent + count ∧
        digits.getLast? ≠ some '0' ∧
        toDigits decimal.digits = digits ++ List.replicate count '0') := by
  rcases trimZeros_cases (toDigits decimal.digits) decimal.exponent with
    ⟨zero, trimmed⟩ | ⟨kept, count, nonempty, last, split, trimmed⟩
  · rw [ofDigits_toDigits] at zero
    refine ⟨['0'], 0, ⟨by simp, by decide⟩, by simp only [Style.decimal, trimmed], ?_,
      Or.inl (Int.le_refl 0)⟩
    have shown : decimal = ⟨0, decimal.exponent⟩ := by rw [← zero]
    rw [shown, Decimal.place_zero]
    exact Decimal.place_zero 0
  · refine ⟨kept, decimal.exponent + count, ⟨nonempty, ?_⟩, by simp only [Style.decimal, trimmed],
      ?_, Or.inr ⟨count, rfl, last, split⟩⟩
    · intro c member
      apply @isDigit_of_mem_toDigits decimal.digits
      rw [split]
      exact List.mem_append_left _ member
    · have scaled := Decimal.place_scale (ofDigits kept) count (decimal.exponent + count)
      rw [← ofDigits_append_zeros, ← split, ofDigits_toDigits] at scaled
      rw [← scaled]
      congr 2
      omega

/-- A magnitude is written as a number without a sign, and reading that number gives it back. -/
theorem unsigned_magnitude {place : Nat} (finite : place < magnitudeCount) :
    Unsigned false (plainStyle.magnitude place) ∧
      ∃ decimal, readDecimal? (plainStyle.magnitude place) = some decimal ∧
        decimal.place = place := by
  have rounded := place_shortest true finite
  change Unsigned false (plainStyle.decimal (shortest true place)) ∧
    ∃ decimal, readDecimal? (plainStyle.decimal (shortest true place)) = some decimal ∧
      decimal.place = place
  rcases exists_layOut (shortest true place) with ⟨digits, exponent, isDigits, shown, rounds, _⟩
  rcases layOut_plain isDigits exponent with ⟨unsigned, decimal, read, value⟩
  rw [shown]
  refine ⟨?_, decimal, read, ?_⟩
  · rcases unsigned with digits | fraction
    · exact Or.inl digits
    · exact Or.inr ⟨rfl, fraction.2⟩
  · rw [value, rounds, rounded]

namespace Binary32

theorem ofPlace_val (negative : Bool) (place : Fin magnitudeCount) :
    ofPlace negative place.val = finite negative place := by
  rw [ofPlace, dif_pos place.isLt]

theorem text_plus (place : Fin magnitudeCount) :
    (finite false place).text = String.ofList (plainStyle.magnitude place.val) := by
  simp only [text, Style.finite, Bool.false_eq_true, if_false]

theorem text_minus (place : Fin magnitudeCount) :
    (finite true place).text = String.ofList ('-' :: plainStyle.magnitude place.val) := by
  simp only [text, Style.finite, if_true]

/-- A finite number is written as a number that can be typed. -/
theorem numberText_text {value : Binary32} (finite : value.isFinite = true) :
    NumberText true false value.text.toList := by
  cases value with
  | finite negative place =>
      have unsigned := (unsigned_magnitude place.isLt).1
      cases negative with
      | true =>
          rw [text_minus, String.toList_ofList]
          exact Or.inr ⟨rfl, _, rfl, unsigned⟩
      | false =>
          rw [text_plus, String.toList_ofList]
          exact Or.inl unsigned
  | infinite negative => cases finite
  | nan => cases finite

/-- A finite number is read back from its text. -/
theorem read?_text {value : Binary32} (finite : value.isFinite = true) :
    read? value.text = some value := by
  cases value with
  | finite negative place =>
      rcases unsigned_magnitude place.isLt with ⟨unsigned, decimal, read, rounds⟩
      cases negative with
      | true =>
          have back := read?_minus read
          rw [rounds, ofPlace_val] at back
          rw [text_minus, back]
      | false =>
          have back := read?_unsigned unsigned read
          rw [rounds, ofPlace_val] at back
          rw [text_plus, back]
  | infinite negative => cases finite
  | nan => cases finite

end Binary32

end SearchCommands.Number
