import AccessControl.Rule.Operand
import AccessControl.Rule.Scan

/-!
# Reading operands and comparisons

A comparison is two operands around one comparison operator. An operand is a sum of products of
factors; a factor is a primary operand with accessors behind it, or the negative of a factor. A
primary operand is a literal, a bag, a name, a call or an operand in parentheses.

Reading claims levels from a budget: a factor claims one, and so does every operator of a sum or a
product and every accessor, until the operand they belong to is complete. The budget of each
function is its first argument and goes down by one with every level claimed, which bounds the
height of what is read and ends the recursion.
-/

namespace AccessControl

namespace Operand

/-- The levels that one operand can claim. -/
def levels : Nat := 64

/-- Reads something at the head of a list of tokens and returns it with the tokens behind it. -/
abbrev Reader (α : Type) := List Lexeme → Except SyntaxError (α × List Lexeme)

/-- The refusal of a token. -/
def unexpected (lexeme : Lexeme) : SyntaxError := .unexpectedToken lexeme.token lexeme.offset

/-- Passes over one token, which has to be the given one. -/
def expect (side : Side) (token : Token) : List Lexeme → Except SyntaxError (List Lexeme)
  | [] => .error (.unexpectedEnd side)
  | lexeme :: rest => if lexeme.token = token then .ok rest else .error (unexpected lexeme)

/-- Reads an operand and what may follow to make a larger operand of it. -/
def continued (head : Reader Operand) (tail : Operand → Reader Operand) : Reader Operand :=
  fun tokens =>
  match head tokens with
  | .error cause => .error cause
  | .ok (operand, rest) => tail operand rest

/-- Reads operands separated by commas up to a closing parenthesis; the fuel is the number of
tokens. -/
def argumentsWithin (side : Side) (argument : Reader Operand) : Nat → Reader (List Operand)
  | 0, _ => .error (.unexpectedEnd side)
  | fuel + 1, tokens =>
    match argument tokens with
    | .error cause => .error cause
    | .ok (_, []) => .error (.unexpectedEnd side)
    | .ok (operand, ⟨.comma, _⟩ :: rest) =>
      match argumentsWithin side argument fuel rest with
      | .error cause => .error cause
      | .ok (operands, rest) => .ok (operand :: operands, rest)
    | .ok (operand, ⟨.closeParen, _⟩ :: rest) => .ok ([operand], rest)
    | .ok (_, lexeme :: _) => .error (unexpected lexeme)

/-- Reads the arguments of a call behind its opening parenthesis. -/
def arguments (side : Side) (argument : Reader Operand) : Reader (List Operand) := fun tokens =>
  match tokens with
  | ⟨.closeParen, _⟩ :: rest => .ok ([], rest)
  | _ => argumentsWithin side argument (tokens.length + 1) tokens

/-- Reads a primary operand, whose parts in parentheses are read by `inner`. -/
def primary (side : Side) (inner : Reader Operand) : Reader Operand
  | [] => .error (.unexpectedEnd side)
  | ⟨.literal value, _⟩ :: rest => .ok (.literal value, rest)
  | ⟨.name word, _⟩ :: rest =>
    match Bag.ofWord? word with
    | some which => .ok (.bag which, rest)
    | none =>
      match rest with
      | ⟨.openParen, _⟩ :: rest =>
        match arguments side inner rest with
        | .error cause => .error cause
        | .ok (operands, rest) => .ok (.call word operands, rest)
      | _ => .ok (.name word, rest)
  | ⟨.openParen, _⟩ :: rest =>
    match inner rest with
    | .error cause => .error cause
    | .ok (operand, rest) =>
      match expect side .closeParen rest with
      | .error cause => .error cause
      | .ok rest => .ok (operand, rest)
  | lexeme :: _ => .error (unexpected lexeme)

/-- Whether an operator makes a sum. -/
def isSumOperator : Operator → Bool
  | .plus | .minus => true
  | _ => false

mutual

/-- Reads a factor, which claims a level. -/
def factor (side : Side) : (budget : Nat) → Reader Operand
  | 0 => fun _ => .error (.tooDeep side levels)
  | budget + 1 => fun tokens =>
    match tokens with
    | ⟨.operator .minus, _⟩ :: rest =>
      match factor side budget rest with
      | .error cause => .error cause
      | .ok (inner, rest) => .ok (.negative inner, rest)
    | _ =>
      continued
        (primary side
          (continued (continued (factor side budget) (moreFactors side budget))
            (moreTerms side budget)))
        (accessors side budget) tokens

/-- Reads the accessors behind an operand. Each claims a level: a point with the name of a field, or
an operand in brackets. -/
def accessors (side : Side) : (budget : Nat) → Operand → Reader Operand
  | 0 => fun base tokens =>
    match tokens with
    | ⟨.dot, _⟩ :: _ => .error (.tooDeep side levels)
    | ⟨.openBracket, _⟩ :: _ => .error (.tooDeep side levels)
    | _ => .ok (base, tokens)
  | budget + 1 => fun base tokens =>
    match tokens with
    | ⟨.dot, _⟩ :: ⟨.name key, _⟩ :: rest => accessors side budget (.field base key) rest
    | ⟨.dot, _⟩ :: lexeme :: _ => .error (unexpected lexeme)
    | ⟨.dot, _⟩ :: [] => .error (.unexpectedEnd side)
    | ⟨.openBracket, _⟩ :: rest =>
      match continued (continued (factor side budget) (moreFactors side budget))
          (moreTerms side budget) rest with
      | .error cause => .error cause
      | .ok (position, rest) =>
        match expect side .closeBracket rest with
        | .error cause => .error cause
        | .ok rest => accessors side budget (.index base position) rest
    | _ => .ok (base, tokens)

/-- Reads the operators of a product and their right operands. Each operator claims a level. -/
def moreFactors (side : Side) : (budget : Nat) → Operand → Reader Operand
  | 0 => fun left tokens =>
    match tokens with
    | ⟨.operator operator, _⟩ :: _ =>
      if isSumOperator operator then .ok (left, tokens) else .error (.tooDeep side levels)
    | _ => .ok (left, tokens)
  | budget + 1 => fun left tokens =>
    match tokens with
    | ⟨.operator operator, _⟩ :: rest =>
      if isSumOperator operator then .ok (left, tokens)
      else
        match factor side budget rest with
        | .error cause => .error cause
        | .ok (right, rest) => moreFactors side budget (.arithmetic left operator right) rest
    | _ => .ok (left, tokens)

/-- Reads the operators of a sum and their right operands. Each operator claims a level. -/
def moreTerms (side : Side) : (budget : Nat) → Operand → Reader Operand
  | 0 => fun left tokens =>
    match tokens with
    | ⟨.operator operator, _⟩ :: _ =>
      if isSumOperator operator then .error (.tooDeep side levels) else .ok (left, tokens)
    | _ => .ok (left, tokens)
  | budget + 1 => fun left tokens =>
    match tokens with
    | ⟨.operator operator, _⟩ :: rest =>
      if isSumOperator operator then
        match continued (factor side budget) (moreFactors side budget) rest with
        | .error cause => .error cause
        | .ok (right, rest) => moreTerms side budget (.arithmetic left operator right) rest
      else .ok (left, tokens)
    | _ => .ok (left, tokens)

end

/-- Reads a product of factors. -/
def term (side : Side) (budget : Nat) : Reader Operand :=
  continued (factor side budget) (moreFactors side budget)

/-- Reads an operand: a sum of products. -/
def sum (side : Side) (budget : Nat) : Reader Operand :=
  continued (term side budget) (moreTerms side budget)

/-- The operand that all the tokens of one side make up. -/
def ofLexemes (side : Side) (tokens : List Lexeme) : Except SyntaxError Operand :=
  if tokens.isEmpty then .error (.emptyOperand side)
  else
    match sum side levels tokens with
    | .error cause => .error cause
    | .ok (operand, []) => .ok operand
    | .ok (_, lexeme :: _) => .error (unexpected lexeme)

end Operand

namespace Comparison

/-- The relation that a token stands for. -/
def relation? (lexeme : Lexeme) : Option Relation :=
  match lexeme.token with
  | .relation relation => some relation
  | _ => none

/-- Whether a token is a comparison operator. -/
def isRelation (lexeme : Lexeme) : Bool := (relation? lexeme).isSome

/-- The comparison that a list of tokens makes up. The number of comparison operators is looked at
first, then the left operand, then the right one. -/
def ofLexemes (tokens : List Lexeme) : Except SyntaxError Comparison :=
  match tokens.filterMap relation? with
  | [] => .error .missingOperator
  | [relation] => do
    let left ← Operand.ofLexemes .left (tokens.takeWhile (fun lexeme => !isRelation lexeme))
    let right ← Operand.ofLexemes .right
      ((tokens.dropWhile (fun lexeme => !isRelation lexeme)).drop 1)
    .ok ⟨left, relation, right⟩
  | relations => .error (.multipleOperators relations.length)

/-- The comparison that a text spells. -/
def parse (text : String) : Except SyntaxError Comparison := do
  let tokens ← Lexeme.scan text
  ofLexemes tokens

end Comparison

end AccessControl
