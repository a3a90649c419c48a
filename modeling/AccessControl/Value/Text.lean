import AccessControl.Value

/-!
# Compact text of values

Values are written without blanks, members in the order in which the object holds them. In a quoted
text the quote, the backslash and the control characters are escaped and all else is written as is.
-/

namespace AccessControl

namespace Json

/-- A hexadecimal digit in lower case. -/
def hexDigit (n : Nat) : Char := Nat.digitChar (n % 16)

/-- A character inside a quoted text: the short escape where there is one, four hexadecimal digits
for the other control characters, and otherwise the character itself. -/
def quotedChar (c : Char) : List Char :=
  match c with
  | '"' => ['\\', '"']
  | '\\' => ['\\', '\\']
  | '\n' => ['\\', 'n']
  | '\r' => ['\\', 'r']
  | '\t' => ['\\', 't']
  | _ =>
    if c.toNat = 8 then ['\\', 'b']
    else if c.toNat = 12 then ['\\', 'f']
    else if c.toNat < 32 then ['\\', 'u', '0', '0', hexDigit (c.toNat / 16), hexDigit c.toNat]
    else [c]

/-- A text between quotes. -/
def quoted (text : String) : List Char := '"' :: (text.toList.flatMap quotedChar ++ ['"'])

mutual

/-- The compact text of a value. -/
def text : Value Number → List Char
  | .null => ['n', 'u', 'l', 'l']
  | .bool true => ['t', 'r', 'u', 'e']
  | .bool false => ['f', 'a', 'l', 's', 'e']
  | .number value => value.text
  | .string value => quoted value
  | .array items => '[' :: (itemsText items ++ [']'])
  | .object members => '\x7b' :: (membersText members ++ ['\x7d'])

/-- The items of a list, separated by commas. -/
def itemsText : List (Value Number) → List Char
  | [] => []
  | item :: rest => text item ++ restText rest

/-- Further items, each behind a comma. -/
def restText : List (Value Number) → List Char
  | [] => []
  | item :: rest => ',' :: (text item ++ restText rest)

/-- The members of an object, separated by commas. -/
def membersText : List (String × Value Number) → List Char
  | [] => []
  | (name, value) :: rest => quoted name ++ ':' :: (text value ++ moreText rest)

/-- Further members, each behind a comma. -/
def moreText : List (String × Value Number) → List Char
  | [] => []
  | (name, value) :: rest => ',' :: (quoted name ++ ':' :: (text value ++ moreText rest))

end

/-- The compact text of a value as a string. -/
def compact (value : Json) : String := String.ofList (text value)

end Json

end AccessControl
