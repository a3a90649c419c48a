import AccessControl.Double.Text
import AccessControl.Text.Character
import AccessControl.Toml

/-!
# Unquoted values

Numbers, truth values and moments are written without quotes, as one run of letters, digits and a
few signs. Single underscores may stand between digits. A decimal number does not start with a zero
before other digits, and a float has digits on both sides of its point.
-/

namespace AccessControl

namespace Toml

/-- The characters of unquoted values. -/
def isScalarPart (c : Char) : Bool :=
  c.isAlphanum || c == '+' || c == '-' || c == '_' || c == '.' || c == ':'

/-- Digits without the underscores between them. -/
def ungrouped? (isDigit : Char → Bool) : List Char → Option (List Char)
  | [] => none
  | [c] => if isDigit c then some [c] else none
  | c :: '_' :: rest => if isDigit c then (ungrouped? isDigit rest).map (c :: ·) else none
  | c :: rest => if isDigit c then (ungrouped? isDigit rest).map (c :: ·) else none

/-- Digits that do not start with a zero before others. -/
def wholeDigits? (text : List Char) : Option (List Char) :=
  match ungrouped? Char.isDigit text with
  | some digits => if digits.head? == some '0' && digits.length != 1 then none else some digits
  | none => none

/-- The number that digits of a base spell, each with its value. -/
def valueInBase (base : Nat) (digits : List Char) : Nat :=
  digits.foldl (fun value digit => base * value + (Text.hexadecimalDigit? digit).getD 0) 0

/-- Whether a character is a digit of a base. -/
def isDigitOf (base : Nat) (c : Char) : Bool :=
  (Text.hexadecimalDigit? c).any (fun value => value < base)

/-- The digits of a base, as a natural number. -/
def based? (base : Nat) (text : List Char) : Option Nat :=
  (ungrouped? (isDigitOf base) text).map (valueInBase base)

/-- The sign of a number, set for a minus, and the text behind it. -/
def signed : List Char → Bool × List Char
  | '-' :: rest => (true, rest)
  | '+' :: rest => (false, rest)
  | text => (false, text)

/-- The integer that a text spells. -/
def integer? : List Char → Option Int
  | '0' :: 'x' :: digits => (based? 16 digits).map Int.ofNat
  | '0' :: 'o' :: digits => (based? 8 digits).map Int.ofNat
  | '0' :: 'b' :: digits => (based? 2 digits).map Int.ofNat
  | text =>
    let (negative, digits) := signed text
    (wholeDigits? digits).map (fun digits =>
      if negative then -(Decimal.valueOf digits : Int) else Decimal.valueOf digits)

/-- Digits and the underscores between them. -/
def isGroupedDigit (c : Char) : Bool := c.isDigit || c == '_'

/-- The digits of a fraction, if a point stands at the head of the text, and the rest. -/
def fractionDigits? : List Char → Option (List Char × List Char)
  | '.' :: text =>
    (ungrouped? Char.isDigit (text.takeWhile isGroupedDigit)).map (fun digits =>
      (digits, text.dropWhile isGroupedDigit))
  | text => some ([], text)

/-- The exponent that a text spells; zero if there is no text. -/
def exponent? : List Char → Option Int
  | [] => some 0
  | letter :: text =>
    if letter = 'e' ∨ letter = 'E' then
      let (negative, digits) := signed text
      (ungrouped? Char.isDigit digits).map (fun digits =>
        if negative then -(Decimal.valueOf digits : Int) else Decimal.valueOf digits)
    else none

/-- The float that a text spells: a whole number with a fraction or an exponent or both. -/
def finite? (text : List Char) : Option Toml := do
  let (negative, text) := signed text
  let whole ← wholeDigits? (text.takeWhile isGroupedDigit)
  let behind := text.dropWhile isGroupedDigit
  if behind.isEmpty then none
  else
    let (fraction, rest) ← fractionDigits? behind
    let exponent ← exponent? rest
    match Double.ofDecimal negative (Decimal.ofDigits whole fraction exponent) with
    | some value => some (.float (some value))
    | none => some .excessive

/-- The value that a word stands for. -/
def word? (text : List Char) : Option Toml :=
  match String.ofList text with
  | "true" => some (.boolean true)
  | "false" => some (.boolean false)
  | "inf" | "+inf" | "-inf" | "nan" | "+nan" | "-nan" => some (.float none)
  | _ => none

/-- The value that an unquoted text spells. -/
def scalar? (text : List Char) : Option Toml :=
  (word? text).or (((integer? text).map .integer).or
    ((finite? text).or ((Moment.read? text).map .moment)))

/-- An unquoted value at the head of a text. Behind a date, a blank with a digit goes on to a
time. -/
def readScalar? (text : List Char) : Option (Toml × List Char) :=
  let run := text.takeWhile isScalarPart
  let rest := text.dropWhile isScalarPart
  let (run, rest) := match Moment.date? run, rest with
    | some (_, []), ' ' :: digit :: more =>
      if digit.isDigit then
        let time := (digit :: more).takeWhile isScalarPart
        (run ++ ' ' :: time, (digit :: more).dropWhile isScalarPart)
      else (run, rest)
    | _, _ => (run, rest)
  (scalar? run).map (fun value => (value, rest))

end Toml

end AccessControl
