import AccessControl.Expression.Disjunction
import AccessControl.Text.Alphanumeric
import AccessControl.Text.Character

/-!
# Reading policy expressions

An expression is one clause or several with `||` between them, a clause one atom or several with
`&&` between them, and an atom is a reference or an expression in parentheses. A reference is
`data.` with a bare name behind it, or `data[` with a quoted name and `]`. Blanks may stand before
every atom, connective, quote and closing sign, but not inside `data.name` and not between `data`
and `[`.

Reading stops at the first place where the text does not go on as it should. What stopped it is kept
with the text that was left at that place, from which its offset in the whole text follows.
-/

namespace AccessControl

/-- Why a text is no policy expression. -/
inductive ExpressionError where
  /-- The text is blank. -/
  | empty
  /-- A character where the grammar has no place for it. -/
  | unexpectedCharacter (found : Char) (offset : Nat)
  /-- The text ends where it has to go on. -/
  | unexpectedEnd
  /-- A parenthesis without its partner. -/
  | unbalanced (offset : Nat)
  /-- The groups nest deeper than the limit. -/
  | tooDeep (limit : Nat)
  deriving DecidableEq, Repr

namespace ExpressionError

/-- The text of a cause. -/
def message : ExpressionError → String
  | .empty => "empty policy expression"
  | .unexpectedCharacter found offset =>
    s!"unexpected '{found}' at offset {offset} in policy expression"
  | .unexpectedEnd => "unexpected end of policy expression"
  | .unbalanced offset => s!"unbalanced parenthesis at offset {offset} in policy expression"
  | .tooDeep limit => s!"policy expression nests deeper than {limit} groups"

end ExpressionError

namespace Expression

/-- How deep groups can nest. -/
def groupLimit : Nat := 64

/-- What stopped the reading, with the text left at that place. -/
inductive Stop where
  /-- The text does not go on as it should; with nothing left, it has ended too early. -/
  | unexpected (left : List Char)
  /-- A parenthesis without its partner, at the head of what is left. -/
  | unbalanced (left : List Char)
  /-- A group deeper than the limit. -/
  | tooDeep

/-- The number of bytes before what is left of a text. -/
def offset (text left : List Char) : Nat := Text.byteLength text - Text.byteLength left

/-- The error that a stop in a text is. -/
def Stop.error (text : List Char) : Stop → ExpressionError
  | .unexpected [] => .unexpectedEnd
  | .unexpected (found :: rest) => .unexpectedCharacter found (offset text (found :: rest))
  | .unbalanced left => .unbalanced (offset text left)
  | .tooDeep => .tooDeep groupLimit

/-- Reads something at the head of a text and returns it with the text behind it. -/
abbrev Reader (α : Type) := List Char → Except Stop (α × List Char)

/-- The text without the blanks at its head. -/
def skipBlanks (text : List Char) : List Char := text.dropWhile Text.isBlank

/-- The characters of bare names. -/
def isBare (c : Char) : Bool := Text.isAlphanumeric c || c == '_' || c == '$'

/-- Reads what stands before a quote, and the quote. -/
def quotedBy (quote : Char) : Reader (List Char)
  | [] => .error (.unexpected [])
  | c :: rest =>
    if c = quote then .ok ([], rest)
    else
      match quotedBy quote rest with
      | .error stop => .error stop
      | .ok (name, rest) => .ok (c :: name, rest)

/-- Reads a quoted name. Either quote will do, and the name ends at the next quote of the kind. -/
def quoted : Reader (List Char) := fun text =>
  match skipBlanks text with
  | '"' :: rest => quotedBy '"' rest
  | '\'' :: rest => quotedBy '\'' rest
  | left => .error (.unexpected left)

/-- Reads the name in a reference, behind `data`. -/
def selector : Reader (List Char)
  | '.' :: rest =>
    match rest.takeWhile isBare with
    | [] => .error (.unexpected rest)
    | name => .ok (name, rest.dropWhile isBare)
  | '[' :: rest =>
    match quoted rest with
    | .error stop => .error stop
    | .ok (name, rest) =>
      match skipBlanks rest with
      | ']' :: rest => .ok (name, rest)
      | left => .error (.unexpected left)
  | left => .error (.unexpected left)

/-- Reads a reference that is not preceded by blanks. -/
def reference : Reader Atom
  | 'd' :: 'a' :: 't' :: 'a' :: rest =>
    match selector rest with
    | .error stop => .error stop
    | .ok (name, rest) => .ok (.reference (String.ofList name), rest)
  | left => .error (.unexpected left)

/-- Reads items with a connective between them, at most as many as the fuel says. -/
def chainWithin {α : Type} (connective : Connective) (item : Reader α) : Nat → Reader (List α)
  | 0, text => .error (.unexpected text)
  | fuel + 1, text =>
    match item text with
    | .error stop => .error stop
    | .ok (first, rest) =>
      match connective.spelling.isPrefixOf? (skipBlanks rest) with
      | none => .ok ([first], rest)
      | some behind =>
        match chainWithin connective item fuel behind with
        | .error stop => .error stop
        | .ok (others, rest) => .ok (first :: others, rest)

/-- Reads one item or several with a connective between them. There are fewer connectives than
characters, so the fuel is enough. -/
def chain {α : Type} (connective : Connective) (item : Reader α) : Reader (List α) := fun text =>
  chainWithin connective item (text.length + 1) text

/-- Reads an expression whose atoms are read by `atom`. -/
def clausesOf (atom : Reader Atom) : Reader Disjunction := chain .or (chain .and atom)

/-- Reads an atom in which groups can nest as deep as the budget says. -/
def atom : (budget : Nat) → Reader Atom
  | 0 => fun text =>
    match skipBlanks text with
    | '(' :: _ => .error .tooDeep
    | left => reference left
  | budget + 1 => fun text =>
    match skipBlanks text with
    | '(' :: rest =>
      match clausesOf (atom budget) rest with
      | .error stop => .error stop
      | .ok (clauses, behind) =>
        match skipBlanks behind with
        | ')' :: behind => .ok (.group clauses, behind)
        | _ => .error (.unbalanced ('(' :: rest))
    | left => reference left

/-- Reads the clauses of a text up to its end. -/
def clauses (text : List Char) : Except Stop Disjunction :=
  match clausesOf (atom groupLimit) text with
  | .error stop => .error stop
  | .ok (tree, rest) =>
    match skipBlanks rest with
    | [] => .ok tree
    | ')' :: behind => .error (.unbalanced (')' :: behind))
    | left => .error (.unexpected left)

/-- The tree that a text spells. -/
def treeOf (text : List Char) : Except ExpressionError Disjunction :=
  if (skipBlanks text).isEmpty then .error .empty else (clauses text).mapError (Stop.error text)

end Expression

end AccessControl
