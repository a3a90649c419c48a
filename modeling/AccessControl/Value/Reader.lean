import AccessControl.Text.Character
import AccessControl.Value

/-!
# Reading the text of a value

A text is read as a whole: blanks may stand around it and between its parts, but nothing else. Of
two members with one name the later counts. Lists and objects nest at most 127 deep, a text in
quotes holds no bare control character, and a number beyond the largest double is refused.
-/

namespace AccessControl

namespace Json

/-- Reads something at the head of a text and returns it with the rest of the text. -/
abbrev Reader (α : Type) := List Char → Option (α × List Char)

/-- The characters between the parts of a text. -/
def isBlank (c : Char) : Bool := c == ' ' || c == '\n' || c == '\t' || c == '\r'

/-- The text without the blanks at its head. -/
def skipBlanks (text : List Char) : List Char := text.dropWhile isBlank

/-- The number that four hexadecimal digits spell. -/
def hexFour? : Reader Nat
  | a :: b :: c :: d :: rest => (Text.hexadecimal? [a, b, c, d]).map (fun value => (value, rest))
  | _ => none

/-- The character of an escape behind its `u`: four hexadecimal digits, or eight in two escapes for
a character beyond the first 65536. Half of such a pair is refused. -/
def escapedCodePoint? : Reader Char := fun text => do
  let (high, rest) ← hexFour? text
  if 0xDC00 ≤ high ∧ high ≤ 0xDFFF then none
  else if 0xD800 ≤ high ∧ high ≤ 0xDBFF then
    let rest ← List.isPrefixOf? ['\\', 'u'] rest
    let (low, rest) ← hexFour? rest
    if 0xDC00 ≤ low ∧ low ≤ 0xDFFF then
      some (Char.ofNat (0x10000 + (high - 0xD800) * 0x400 + (low - 0xDC00)), rest)
    else none
  else some (Char.ofNat high, rest)

/-- The character of an escape behind its backslash. -/
def escaped? : Reader Char
  | '"' :: rest => some ('"', rest)
  | '\\' :: rest => some ('\\', rest)
  | '/' :: rest => some ('/', rest)
  | 'b' :: rest => some (Char.ofNat 8, rest)
  | 'f' :: rest => some (Char.ofNat 12, rest)
  | 'n' :: rest => some ('\n', rest)
  | 'r' :: rest => some ('\r', rest)
  | 't' :: rest => some ('\t', rest)
  | 'u' :: rest => escapedCodePoint? rest
  | _ => none

/-- The characters up to the closing quote; the fuel is the length of the text. -/
def quotedWithin? : Nat → Reader (List Char)
  | 0, _ => none
  | _ + 1, [] => none
  | _ + 1, '"' :: rest => some ([], rest)
  | fuel + 1, '\\' :: rest => do
    let (c, rest) ← escaped? rest
    let (cs, rest) ← quotedWithin? fuel rest
    some (c :: cs, rest)
  | fuel + 1, c :: rest =>
    if c.toNat < 32 then none
    else do
      let (cs, rest) ← quotedWithin? fuel rest
      some (c :: cs, rest)

/-- The text behind an opening quote, up to the closing one. -/
def quoted? : Reader String := fun text => do
  let (cs, rest) ← quotedWithin? text.length text
  some (String.ofList cs, rest)

/-- The digits of a fraction, if a point stands at the head of the text. -/
def fraction? : Reader (Option (List Char))
  | '.' :: rest =>
    let (digits, rest) := Decimal.spanDigits rest
    if digits.isEmpty then none else some (some digits, rest)
  | text => some (none, text)

/-- The exponent, if its letter stands at the head of the text. -/
def exponent? : Reader (Option Int)
  | letter :: text =>
    if letter = 'e' ∨ letter = 'E' then
      let (negative, text) := match text with
        | '-' :: rest => (true, rest)
        | '+' :: rest => (false, rest)
        | rest => (false, rest)
      let (digits, rest) := Decimal.spanDigits text
      let value : Int := Decimal.valueOf digits
      if digits.isEmpty then none else some (some (if negative then -value else value), rest)
    else some (none, letter :: text)
  | [] => some (none, [])

/-- A number without its sign: no zero before other digits, and digits behind a point. -/
def magnitude? (negative : Bool) : Reader Number := fun text => do
  let (whole, rest) := Decimal.spanDigits text
  if whole.isEmpty || (whole.head? == some '0' && whole.length != 1) then none
  else
    let (fraction, rest) ← fraction? rest
    let (exponent, rest) ← exponent? rest
    let number ←
      if fraction.isNone && exponent.isNone then Number.ofWhole? negative whole
      else
        (Double.ofDecimal negative
          (Decimal.ofDigits whole (fraction.getD []) (exponent.getD 0))).map .double
    some (number, rest)

/-- A number. -/
def number? : Reader Number
  | '-' :: rest => magnitude? true rest
  | text => magnitude? false text

/-- Parts separated by commas up to the closing character, at least one; the fuel is the length of
the text. -/
def partsWithin? {α : Type} (part : Reader α) (closing : Char) : Nat → Reader (List α)
  | 0, _ => none
  | fuel + 1, text => do
    let (first, rest) ← part (skipBlanks text)
    match skipBlanks rest with
    | c :: rest =>
      if c = closing then some ([first], rest)
      else if c = ',' then
        let (others, rest) ← partsWithin? part closing fuel rest
        some (first :: others, rest)
      else none
    | [] => none

/-- Parts separated by commas up to the closing character, perhaps none. -/
def parts? {α : Type} (part : Reader α) (closing : Char) : Reader (List α) := fun text =>
  match skipBlanks text with
  | c :: rest =>
    if c = closing then some ([], rest) else partsWithin? part closing text.length (c :: rest)
  | [] => none

/-- A member of an object: its name, a colon and its value. -/
def member? (value : Reader Json) : Reader (String × Json) := fun text => do
  let rest ← List.isPrefixOf? ['"'] text
  let (name, rest) ← quoted? rest
  let rest ← List.isPrefixOf? [':'] (skipBlanks rest)
  let (value, rest) ← value (skipBlanks rest)
  some ((name, value), rest)

/-- A value at the head of a text, with lists and objects nested less deep than the bound. -/
def value? : (depth : Nat) → Reader Json
  | _, 'n' :: rest => (List.isPrefixOf? ['u', 'l', 'l'] rest).map (fun rest => (.null, rest))
  | _, 't' :: rest => (List.isPrefixOf? ['r', 'u', 'e'] rest).map (fun rest => (.bool true, rest))
  | _, 'f' :: rest =>
    (List.isPrefixOf? ['a', 'l', 's', 'e'] rest).map (fun rest => (.bool false, rest))
  | _, '"' :: rest => (quoted? rest).map (fun (text, rest) => (.string text, rest))
  | depth + 1, '[' :: rest =>
    (parts? (value? depth) ']' rest).map (fun (items, rest) => (.array items, rest))
  | depth + 1, '\x7b' :: rest =>
    (parts? (member? (value? depth)) '\x7d' rest).map
      (fun (members, rest) => (.ofMembers members, rest))
  | _, text => (number? text).map (fun (number, rest) => (.number number, rest))

/-- The value that a whole text spells. -/
def read? (text : List Char) : Option Json :=
  match value? 127 (skipBlanks text) with
  | some (value, rest) => if (skipBlanks rest).isEmpty then some value else none
  | none => none

end Json

end AccessControl
