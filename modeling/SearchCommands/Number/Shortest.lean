import SearchCommands.Number.Decimal

/-!
# Shortest decimal texts

A finite number is written with the fewest digits that read back as the same number, and of the
decimals with that many digits it is written as the nearest one. The exact value of a number has
finitely many decimal digits, so candidates are found by cutting the exact digits, and a candidate
is accepted if rounding it gives the number again.
-/

namespace SearchCommands.Number

/-- How a number is laid out. -/
structure Style where
  /-- Whether a number whose first digit counts `10 ^ exponent` is written without a power of ten. -/
  positional : Int → Bool
  /-- What follows a whole number that is written without a power of ten. -/
  wholeMark : List Char
  /-- Whether the greater of two equally near candidates is taken always, or only if it is even. -/
  halfUp : Bool

/-- The exact decimal value of the magnitude at a place: a unit is `5 ^ 149 / 10 ^ 149`. -/
def exactDecimal (place : Nat) : Decimal :=
  ⟨units place * Nat.pow 5 unitDigits, -unitDigits⟩

/-- The decimal of `count` digits that is nearest to an exact value among the two neighbours of the
value that read back as the magnitude at a place, if any does. -/
def nearest? (halfUp : Bool) (exact : Decimal) (place count : Nat) : Option Decimal :=
  let cut := (toDigits exact.digits).length - count
  let step := tenTo cut
  let below : Decimal := ⟨exact.digits / step, exact.exponent + cut⟩
  let above : Decimal := ⟨exact.digits / step + 1, exact.exponent + cut⟩
  let twice := 2 * (exact.digits % step)
  let preferAbove := step < twice || (twice == step && (halfUp || above.digits % 2 == 0))
  match below.place == place, above.place == place with
  | true, true => some (if preferAbove then above else below)
  | true, false => some below
  | false, true => some above
  | false, false => none

/-- The nearest decimal of `count` digits to the magnitude at a place that reads back as it. -/
def candidate? (halfUp : Bool) (place count : Nat) : Option Decimal :=
  nearest? halfUp (exactDecimal place) place count

/-- The decimal with the fewest digits that reads back as the magnitude at a place. Nine digits
tell all magnitudes apart; the exact value stands behind them. -/
def shortest (halfUp : Bool) (place : Nat) : Decimal :=
  ((List.range 9).findSome? fun count => candidate? halfUp place (count + 1)).getD
    (exactDecimal place)

/-- Removes the zeros at the end of the digits, each of them a factor of ten. -/
def trimZeros : List Char → Int → List Char × Int
  | digits, exponent =>
      let kept := (digits.reverse.dropWhile (· == '0')).reverse
      if kept.isEmpty then (['0'], 0) else (kept, exponent + (digits.length - kept.length))

/-- Writes digits and a power of ten as a style asks. -/
def Style.layOut (style : Style) (digits : List Char) (exponent : Int) : List Char :=
  let lead := exponent + digits.length - 1
  if style.positional lead then
    if 0 ≤ exponent then digits ++ List.replicate exponent.toNat '0' ++ style.wholeMark
    else if 0 ≤ lead then
      let whole := (lead + 1).toNat
      digits.take whole ++ '.' :: digits.drop whole
    else ['0', '.'] ++ List.replicate (-lead - 1).toNat '0' ++ digits
  else
    let mantissa := match digits with
      | [] => []
      | [digit] => [digit]
      | digit :: rest => digit :: '.' :: rest
    mantissa ++ ['e', if 0 ≤ lead then '+' else '-'] ++ toDigits lead.natAbs

/-- Writes a decimal, without the zeros at the end of its digits. -/
def Style.decimal (style : Style) (decimal : Decimal) : List Char :=
  let (digits, exponent) := trimZeros (toDigits decimal.digits) decimal.exponent
  style.layOut digits exponent

/-- Writes the magnitude at a place. -/
def Style.magnitude (style : Style) (place : Nat) : List Char :=
  style.decimal (shortest style.halfUp place)

/-- Writes a finite number, with a minus sign also on the negative zero. -/
def Style.finite (style : Style) (negative : Bool) (place : Nat) : List Char :=
  if negative then '-' :: style.magnitude place else style.magnitude place

/-- The style of commands and clauses: never a power of ten, and whole numbers without a point. -/
def plainStyle : Style := ⟨fun _ => true, [], true⟩

namespace Binary32

/-- The text of a number in a command. -/
def text : Binary32 → String
  | .finite negative place => String.ofList (plainStyle.finite negative place.val)
  | .infinite false => "inf"
  | .infinite true => "-inf"
  | .nan => "NaN"

instance : ToString Binary32 := ⟨text⟩

end Binary32

end SearchCommands.Number
