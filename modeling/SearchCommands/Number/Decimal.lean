import SearchCommands.Number.Binary32

/-!
# Decimal numbers

A decimal number is a whole number of digits and a power of ten. Reading a number is two steps: the
text gives a decimal, exactly, and the decimal is rounded once to the nearest binary32 number.
-/

namespace SearchCommands.Number

/-- The number `digits · 10 ^ exponent`. -/
structure Decimal where
  /-- The digits, as one whole number. -/
  digits : Nat
  /-- The power of ten that they count. -/
  exponent : Int
  deriving DecidableEq, Repr

/-- The value of a digit. -/
def digitValue (c : Char) : Nat := c.toNat - '0'.toNat

/-- The whole number that a run of digits spells. -/
def ofDigits (text : List Char) : Nat :=
  text.foldl (fun value c => 10 * value + digitValue c) 0

/-- The digits of a whole number. -/
def toDigits (value : Nat) : List Char := Nat.toDigits 10 value

/-- A power of ten. -/
def tenTo (exponent : Nat) : Nat := Nat.pow 10 exponent

/-- The number of binary digits after the point that the smallest positive magnitude has. -/
def unitDigits : Nat := 149

namespace Decimal

/-- The place of the nearest binary32 magnitude. A decimal of `n` digits lies below
`10 ^ (n + exponent)` and, unless it is zero, not below a tenth of that; what is beyond all
magnitudes, or too small to be nearer to the first one than to zero, is decided by that alone. -/
def place (d : Decimal) : Nat :=
  let size := (toDigits d.digits).length + d.exponent
  if d.digits = 0 ∨ size < -50 then 0
  else if 50 < size then magnitudeCount
  else if 0 ≤ d.exponent then nearestPlace ((d.digits * tenTo d.exponent.toNat) <<< unitDigits) 1
  else nearestPlace (d.digits <<< unitDigits) (tenTo (-d.exponent).toNat)

/-- The nearest binary32 number of a sign. -/
def toBinary32 (d : Decimal) (negative : Bool) : Binary32 :=
  Binary32.ofPlace negative d.place

end Decimal

/-- Reads an exponent: the letter `e`, an optional sign and at least one digit. No text at all
stands for the exponent zero. -/
def readExponent? : List Char → Option Int
  | [] => some 0
  | letter :: rest =>
      if letter != 'e' && letter != 'E' then none
      else
        let (negative, digits) := match rest with
          | '-' :: digits => (true, digits)
          | '+' :: digits => (false, digits)
          | digits => (false, digits)
        if digits.isEmpty || !digits.all Char.isDigit then none
        else if negative then some (-(ofDigits digits : Int)) else some (ofDigits digits)

/-- Reads a number without a sign: digits, optionally with a point before, among or after them, and
an optional exponent. -/
def readDecimal? (text : List Char) : Option Decimal :=
  let whole := text.takeWhile Char.isDigit
  let (fraction, rest) := match text.dropWhile Char.isDigit with
    | '.' :: rest => (rest.takeWhile Char.isDigit, rest.dropWhile Char.isDigit)
    | rest => ([], rest)
  if whole.isEmpty && fraction.isEmpty then none
  else
    (readExponent? rest).map fun exponent =>
      ⟨ofDigits (whole ++ fraction), exponent - fraction.length⟩

/-- Reads the magnitude of a number: a decimal, or a word for an infinity or for an undefined
number in any letter case. -/
def readMagnitude? (negative : Bool) (text : List Char) : Option Binary32 :=
  match readDecimal? text with
  | some decimal => some (decimal.toBinary32 negative)
  | none =>
      let word := text.map Char.toLower
      if word = ['i', 'n', 'f'] ∨ word = ['i', 'n', 'f', 'i', 'n', 'i', 't', 'y'] then
        some (.infinite negative)
      else if word = ['n', 'a', 'n'] then some .nan
      else none

namespace Binary32

/-- Reads a number: an optional sign and a magnitude, with nothing around them. -/
def read? (text : String) : Option Binary32 :=
  match text.toList with
  | '-' :: rest => readMagnitude? true rest
  | '+' :: rest => readMagnitude? false rest
  | rest => readMagnitude? false rest

end Binary32

end SearchCommands.Number
