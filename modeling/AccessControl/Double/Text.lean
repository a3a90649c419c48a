import AccessControl.Double

/-!
# Reading and writing doubles in decimal

A decimal is a whole coefficient and a power of ten. Numerals are read as lists of digits, so that
the coefficient of a numeral with a fraction is the number its digits spell without the point.

A decimal is read as the nearest double. A double is written with the fewest digits that read back
as the same double; of two such texts the nearer one is taken, and on a tie the even one. The digits
are written positionally while the leading digit stands for `10 ^ e` with `-5 ≤ e < 16`, with at
least one digit behind the point, and with a signed exponent beyond that.
-/

namespace AccessControl

/-- The number `coefficient * 10 ^ exponent`. -/
structure Decimal where
  /-- The digits, read as a whole number. -/
  coefficient : Nat
  /-- The power of ten. -/
  exponent : Int
  deriving DecidableEq

namespace Decimal

/-- The number that a digit stands for. -/
def digitValue (digit : Char) : Nat := digit.toNat - '0'.toNat

/-- The number that a list of digits spells. -/
def valueOf (digits : List Char) : Nat :=
  digits.foldl (fun value digit => 10 * value + digitValue digit) 0

/-- The decimal of a numeral: digits before the point, digits after it, and an exponent. -/
def ofDigits (whole fraction : List Char) (exponent : Int) : Decimal :=
  ⟨valueOf (whole ++ fraction), exponent - fraction.length⟩

/-- The longest list of digits at the head of a text, and the rest of the text. -/
def spanDigits (text : List Char) : List Char × List Char :=
  (text.takeWhile Char.isDigit, text.dropWhile Char.isDigit)

end Decimal

namespace Double

/-- The double nearest to a decimal, if that is not beyond the largest double. Powers of ten far
outside the range of doubles are decided without being computed. -/
def ofDecimal (negative : Bool) (decimal : Decimal) : Option Double :=
  if decimal.coefficient = 0 then some (zero negative)
  else if 400 < decimal.exponent then none
  else if decimal.exponent < -(400 + decimal.coefficient.log2 : Int) then some (zero negative)
  else round negative (decimal.coefficient * Nat.pow 10 decimal.exponent.toNat * one)
    (Nat.pow 10 (-decimal.exponent).toNat)

/-- Decimal digits with the power of ten that the first of them stands for. -/
structure Digits where
  /-- The digits, without trailing zeros. -/
  digits : List Char
  /-- The power of ten of the first digit. -/
  exponent : Int
  deriving DecidableEq

/-- A power of five. -/
def powerOfFive (exponent : Nat) : Nat := Nat.pow 5 exponent

/-- Powers of five are positive. -/
theorem powerOfFive_pos (exponent : Nat) : 0 < powerOfFive exponent := Nat.pow_pos (by decide)

/-- The power of five that makes units whole: a unit is `5 ^ 1074` times `10 ^ (-1074)`. -/
def unitCoefficient : Nat := powerOfFive 1074

/-- The power of five is positive. -/
theorem unitCoefficient_pos : 0 < unitCoefficient := powerOfFive_pos 1074

namespace Digits

/-- The digits of `coefficient * 10 ^ (drop - 1074)`. -/
def ofScaled (coefficient drop : Nat) : Digits :=
  let written := Nat.toDigits 10 coefficient
  ⟨(written.reverse.dropWhile (· == '0')).reverse, (drop : Int) - 1074 + (written.length - 1 : Nat)⟩

/-- Whether `coefficient * 10 ^ (drop - 1074)` is read as the magnitude with these units. -/
def readsBack (units coefficient drop : Nat) : Bool :=
  nearestUnits (coefficient * Nat.pow 10 drop) unitCoefficient == units

/-- The digits left after dropping the last `drop` digits of the exact expansion and rounding down
or up: the nearer one of the two if it reads back, a tie going to the even one, and otherwise the
other one if that does. -/
def shortened? (units drop : Nat) : Option Digits :=
  let exact := units * unitCoefficient
  let scale := Nat.pow 10 drop
  let below := exact / scale
  let left := 2 * (exact % scale)
  let candidates :=
    if left < scale ∨ (left = scale ∧ below % 2 = 0) then [below, below + 1] else [below + 1, below]
  (candidates.find? (fun coefficient => readsBack units coefficient drop)).map
    (fun coefficient => ofScaled coefficient drop)

/-- The fewest digits that read back as the magnitude with these units, which is not zero. Should no
seventeen digits do, the exact expansion is written. -/
def shortest (units : Nat) : Digits :=
  let width := (Nat.toDigits 10 (units * unitCoefficient)).length
  ((List.range 17).findSome? (fun count => shortened? units (width - (count + 1)))).getD
    (ofScaled (units * unitCoefficient) 0)

/-- Positional notation, with at least one digit behind the point. -/
def positional (number : Digits) : List Char :=
  if number.exponent < 0 then
    '0' :: '.' :: (List.replicate (-number.exponent - 1).toNat '0' ++ number.digits)
  else
    let places := number.exponent.toNat + 1
    let whole := number.digits.take places
    let fraction := number.digits.drop places
    whole ++ List.replicate (places - whole.length) '0' ++
      '.' :: (if fraction.isEmpty then ['0'] else fraction)

/-- Scientific notation: the point behind the first digit, if more digits follow, and the exponent
with its sign. -/
def scientific (number : Digits) : List Char :=
  let mantissa := match number.digits with
    | first :: next :: rest => first :: '.' :: next :: rest
    | few => few
  mantissa ++ 'e' :: (if number.exponent < 0 then '-' else '+') ::
    Nat.toDigits 10 number.exponent.natAbs

/-- The notation by the size of the number. -/
def text (number : Digits) : List Char :=
  if -5 ≤ number.exponent ∧ number.exponent < 16 then number.positional else number.scientific

end Digits

/-- The text of a double: the fewest digits that read back. -/
def text (x : Double) : List Char :=
  let magnitude := if x.units = 0 then ['0', '.', '0'] else (Digits.shortest x.units).text
  if x.negative then '-' :: magnitude else magnitude

end Double

end AccessControl
