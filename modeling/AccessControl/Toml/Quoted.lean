import AccessControl.Text.Character

/-!
# Quoted texts, keys and blanks of a document

A text stands between double quotes, with escapes, or between single quotes, as it is. Between three
quotes of a kind it may have line ends, of which one directly behind the opening quotes does not
count, and one or two further quotes before the closing ones. Control characters are refused
everywhere, but for tabs and for line ends where they are allowed. A carriage return stands before a
line feed only.
-/

namespace AccessControl

namespace Toml

/-- Reads something at the head of a text and returns it with the text behind it. -/
abbrev Reader (α : Type) := List Char → Option (α × List Char)

/-- A blank inside a line. -/
def isSpace (c : Char) : Bool := c == ' ' || c == '\t'

/-- A control character other than the tab. -/
def isControl (c : Char) : Bool := (c.toNat < 32 && c != '\t') || c.toNat == 127

/-- The text without the blanks at its head. -/
def skipSpaces (text : List Char) : List Char := text.dropWhile isSpace

/-- The text behind a line end at its head. -/
def behindLine? : List Char → Option (List Char)
  | '\n' :: rest => some rest
  | '\r' :: '\n' :: rest => some rest
  | _ => none

/-- The text without the blanks, line ends and comments at its head. The flag is set inside a
comment, which ends with its line. -/
def skipVoid (comment : Bool) : List Char → List Char
  | [] => []
  | '\n' :: rest => skipVoid false rest
  | '\r' :: '\n' :: rest => skipVoid false rest
  | '#' :: rest => skipVoid true rest
  | c :: rest =>
    if isSpace c || (comment && !isControl c) then skipVoid comment rest else c :: rest

/-- The text behind the rest of a line, which may hold blanks and a comment. -/
def behindRest? (text : List Char) : Option (List Char) :=
  let rest := match skipSpaces text with
    | '#' :: comment => comment.dropWhile (fun c => !isControl c)
    | other => other
  if rest.isEmpty then some [] else behindLine? rest

/-- The character of a code point that hexadecimal digits spell. -/
def codePoint? (digits : List Char) : Option Char :=
  match Text.hexadecimal? digits with
  | some value => if value.isValidChar then some (Char.ofNat value) else none
  | none => none

/-- The character of an escape behind its backslash. -/
def escaped? : Reader Char
  | '"' :: rest => some ('"', rest)
  | '\\' :: rest => some ('\\', rest)
  | 'b' :: rest => some (Char.ofNat 8, rest)
  | 't' :: rest => some ('\t', rest)
  | 'n' :: rest => some ('\n', rest)
  | 'f' :: rest => some (Char.ofNat 12, rest)
  | 'r' :: rest => some ('\r', rest)
  | 'e' :: rest => some (Char.ofNat 27, rest)
  | 'x' :: a :: b :: rest => (codePoint? [a, b]).map (fun c => (c, rest))
  | 'u' :: a :: b :: c :: d :: rest => (codePoint? [a, b, c, d]).map (fun c => (c, rest))
  | 'U' :: a :: b :: c :: d :: e :: f :: g :: h :: rest =>
    (codePoint? [a, b, c, d, e, f, g, h]).map (fun c => (c, rest))
  | _ => none

/-- The characters up to a closing double quote; the fuel is the length of the text. -/
def basicWithin? : Nat → Reader (List Char)
  | 0, _ => none
  | _ + 1, [] => none
  | _ + 1, '"' :: rest => some ([], rest)
  | fuel + 1, '\\' :: rest => do
    let (c, rest) ← escaped? rest
    let (cs, rest) ← basicWithin? fuel rest
    some (c :: cs, rest)
  | fuel + 1, c :: rest =>
    if isControl c then none else (basicWithin? fuel rest).map (fun (cs, rest) => (c :: cs, rest))

/-- The characters up to a closing single quote. -/
def literal? : Reader (List Char)
  | [] => none
  | '\'' :: rest => some ([], rest)
  | c :: rest =>
    if isControl c then none else (literal? rest).map (fun (cs, rest) => (c :: cs, rest))

/-- The text without the blanks and line ends at its head. -/
def skipLines : List Char → List Char
  | [] => []
  | '\n' :: rest => skipLines rest
  | '\r' :: '\n' :: rest => skipLines rest
  | c :: rest => if isSpace c then skipLines rest else c :: rest

/-- The text behind an escaped line end: further blanks and line ends do not count either. -/
def behindEscapedLine? (text : List Char) : Option (List Char) :=
  (behindLine? (skipSpaces text)).map skipLines

/-- The characters up to three closing double quotes; the fuel is the length of the text. -/
def linesWithin? : Nat → Reader (List Char)
  | 0, _ => none
  | _ + 1, '"' :: '"' :: '"' :: '"' :: '"' :: rest => some (['"', '"'], rest)
  | _ + 1, '"' :: '"' :: '"' :: '"' :: rest => some (['"'], rest)
  | _ + 1, '"' :: '"' :: '"' :: rest => some ([], rest)
  | fuel + 1, '\\' :: rest =>
    match behindEscapedLine? rest with
    | some rest => linesWithin? fuel rest
    | none => do
      let (c, rest) ← escaped? rest
      let (cs, rest) ← linesWithin? fuel rest
      some (c :: cs, rest)
  | fuel + 1, '\r' :: '\n' :: rest =>
    (linesWithin? fuel rest).map (fun (cs, rest) => ('\r' :: '\n' :: cs, rest))
  | fuel + 1, c :: rest =>
    if isControl c && c != '\n' then none
    else (linesWithin? fuel rest).map (fun (cs, rest) => (c :: cs, rest))
  | _ + 1, [] => none

/-- The characters up to three closing single quotes. -/
def literalLines? : Reader (List Char)
  | '\'' :: '\'' :: '\'' :: '\'' :: '\'' :: rest => some (['\'', '\''], rest)
  | '\'' :: '\'' :: '\'' :: '\'' :: rest => some (['\''], rest)
  | '\'' :: '\'' :: '\'' :: rest => some ([], rest)
  | '\r' :: '\n' :: rest => (literalLines? rest).map (fun (cs, rest) => ('\r' :: '\n' :: cs, rest))
  | c :: rest =>
    if isControl c && c != '\n' then none
    else (literalLines? rest).map (fun (cs, rest) => (c :: cs, rest))
  | [] => none

/-- The text without a line end at its head. -/
def withoutFirstLine (text : List Char) : List Char := (behindLine? text).getD text

/-- A text inside one line, behind its opening quote. -/
def lineText? (text : List Char) : Option (List Char × List Char) :=
  match text with
  | '"' :: rest => basicWithin? rest.length rest
  | '\'' :: rest => literal? rest
  | _ => none

/-- A quoted text. -/
def text? : Reader String := fun text =>
  let read := match text with
    | '"' :: '"' :: '"' :: rest =>
      let body := withoutFirstLine rest
      linesWithin? (body.length + 1) body
    | '\'' :: '\'' :: '\'' :: rest => literalLines? (withoutFirstLine rest)
    | other => lineText? other
  read.map (fun (cs, rest) => (String.ofList cs, rest))

/-- The characters of bare keys. -/
def isKeyPart (c : Char) : Bool := c.isAlphanum || c == '_' || c == '-'

/-- One key: bare or quoted. -/
def key? : Reader String := fun text =>
  match text.takeWhile isKeyPart with
  | [] => (lineText? text).map (fun (cs, rest) => (String.ofList cs, rest))
  | key => some (String.ofList key, text.dropWhile isKeyPart)

/-- Keys with points between them, at most as many as the fuel says. -/
def pathWithin? : Nat → Reader (List String)
  | 0, _ => none
  | fuel + 1, text => do
    let (key, rest) ← key? (skipSpaces text)
    match skipSpaces rest with
    | '.' :: rest => do
      let (keys, rest) ← pathWithin? fuel rest
      some (key :: keys, rest)
    | rest => some ([key], rest)

/-- How many keys can have points between them. -/
def pathLimit : Nat := 80

/-- Keys with points between them, and blanks around the points. -/
def path? : Reader (List String) := pathWithin? pathLimit

end Toml

end AccessControl
