import AccessControl.Toml.Quoted
import AccessControl.Toml.Scalar
import AccessControl.Toml.Table

/-!
# Reading documents

A document is a list of lines: headers, which name the table that the following lines fill, and keys
with their values. Arrays and tables in braces may go over several lines, with comments wherever
they have blanks but around the points of a key, and may end with a comma. They nest at most eighty
deep.
-/

namespace AccessControl

namespace Toml

/-- How deep arrays and tables in braces can nest. -/
def nestingLimit : Nat := 80

/-- Parts with commas between them up to a closing sign, behind the opening one, at most as many as
the fuel says. -/
def partsWithin? {α : Type} (part : Reader α) (closing : Char) : Nat → Reader (List α)
  | 0, _ => none
  | fuel + 1, text =>
    match skipVoid false text with
    | [] => none
    | c :: rest =>
      if c = closing then some ([], rest)
      else do
        let (first, rest) ← part (c :: rest)
        match skipVoid false rest with
        | [] => none
        | d :: rest =>
          if d = closing then some ([first], rest)
          else if d = ',' then
            let (others, rest) ← partsWithin? part closing fuel rest
            some (first :: others, rest)
          else none

/-- Parts with commas between them up to a closing sign. -/
def parts? {α : Type} (part : Reader α) (closing : Char) : Reader (List α) := fun text =>
  partsWithin? part closing (text.length + 1) text

/-- A dotted key with its value. Around the sign between them may stand what `skip` takes away. -/
def assignment? (skip : List Char → List Char) (value : Reader Toml) :
    Reader (List String × Toml) := fun text => do
  let (path, rest) ← path? text
  match skip rest with
  | '=' :: rest => do
    let (value, rest) ← value (skip rest)
    some ((path, value), rest)
  | _ => none

/-- A value at the head of a text, with arrays and tables nested less deep than the bound. -/
def value? : (depth : Nat) → Reader Toml
  | _, '"' :: rest => (text? ('"' :: rest)).map (fun (text, rest) => (.string text, rest))
  | _, '\'' :: rest => (text? ('\'' :: rest)).map (fun (text, rest) => (.string text, rest))
  | depth + 1, '[' :: rest =>
    (parts? (value? depth) ']' rest).map (fun (items, rest) => (.array items, rest))
  | depth + 1, '\x7b' :: rest => do
    let (assignments, rest) ← parts? (assignment? (skipVoid false) (value? depth)) '\x7d' rest
    let table ← tableOf? assignments
    some (table, rest)
  | _, text => readScalar? text

/-- A document under construction: its entries and the path of the table that lines fill. -/
structure Progress where
  /-- The entries of the whole document. -/
  entries : Entries
  /-- The path of the last header. -/
  path : List String

/-- A header behind its opening bracket: `[path]`, or `[[path]]` for one more table of a list. -/
def header? (progress : Progress) (text : List Char) : Option (Progress × List Char) := do
  let (isList, text) := match text with
    | '[' :: rest => (true, rest)
    | other => (false, other)
  let (path, rest) ← path? text
  let key ← path.getLast?
  let rest ← List.isPrefixOf? (if isList then [']', ']'] else [']']) rest
  let change := if isList then addTable key else openTable key
  let entries ← within change path.dropLast progress.entries
  some (⟨entries, path⟩, rest)

/-- A key with its value on a line of its own. -/
def line? (adopting : Bool) (progress : Progress) (text : List Char) :
    Option (Progress × List Char) := do
  let ((path, value), rest) ← assignment? skipSpaces (value? nestingLimit) text
  let entries ← within (assign adopting value true path) progress.path progress.entries
  some (⟨entries, progress.path⟩, rest)

/-- The entries that lines add to a document, for at most as many lines as the fuel says. -/
def linesOf? (adopting : Bool) : Nat → Progress → List Char → Option Entries
  | 0, _, _ => none
  | fuel + 1, progress, text =>
    match skipVoid false text with
    | [] => some progress.entries
    | c :: rest => do
      let (progress, rest) ←
        if c = '[' then header? progress rest else line? adopting progress (c :: rest)
      let rest ← behindRest? rest
      linesOf? adopting fuel progress rest

/-- The text without a byte order mark at its head. -/
def withoutMark : List Char → List Char
  | c :: rest => if c.toNat = 0xFEFF then rest else c :: rest
  | [] => []

/-- The table that a whole text spells. The flag says whether dotted keys adopt the tables that
headers imply. -/
def read? (adopting : Bool) (text : List Char) : Option Toml :=
  (linesOf? adopting (text.length + 1) ⟨[], []⟩ (withoutMark text)).map (fun entries =>
    .table (finishEntries entries))

end Toml

end AccessControl
