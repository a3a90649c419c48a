import AccessControl.Expression.Disjunction
import AccessControl.Number.Arithmetic
import AccessControl.Value.Text

/-!
# Tokens of rules and what can be wrong with a rule's text

A rule is a sequence of tokens: names, literals, punctuation and operators. It compares its two
operands by one of six relations, of which equality has two spellings. A text that is no rule is
refused for one cause, which names the place where that is known.
-/

namespace AccessControl

/-- The relation that a rule states between its operands. -/
inductive Relation where
  /-- Less. -/
  | less
  /-- Greater. -/
  | greater
  /-- Less or equal. -/
  | atMost
  /-- Greater or equal. -/
  | atLeast
  /-- Equal. -/
  | equal
  /-- Not equal. -/
  | unequal
  deriving DecidableEq, Repr

namespace Relation

/-- The sign that stands for a relation in the normal text of a rule. -/
def symbol : Relation → String
  | .less => "<"
  | .greater => ">"
  | .atMost => "<="
  | .atLeast => ">="
  | .equal => "=="
  | .unequal => "!="

end Relation

/-- A token of a rule. -/
inductive Token where
  /-- A name. -/
  | name (word : String)
  /-- A literal: a number, a text, a truth value or null. -/
  | literal (value : Json)
  /-- The point before a field. -/
  | dot
  /-- The comma between arguments. -/
  | comma
  /-- An opening parenthesis. -/
  | openParen
  /-- A closing parenthesis. -/
  | closeParen
  /-- An opening bracket. -/
  | openBracket
  /-- A closing bracket. -/
  | closeBracket
  /-- An arithmetic operator. -/
  | operator (sign : Operator)
  /-- A comparison operator. -/
  | relation (sign : Relation)
  deriving DecidableEq

namespace Token

/-- How messages speak of a token. -/
def description : Token → String
  | .name word => s!"identifier '{word}'"
  | .literal value => "literal " ++ Json.compact value
  | .dot => "'.'"
  | .comma => "','"
  | .openParen => "'('"
  | .closeParen => "')'"
  | .openBracket => "'['"
  | .closeBracket => "']'"
  | .operator sign => s!"'{sign.symbol}'"
  | .relation sign => s!"'{sign.symbol}'"

end Token

/-- A token and the number of bytes before it in the text. -/
structure Lexeme where
  /-- The token. -/
  token : Token
  /-- The bytes before it. -/
  offset : Nat
  deriving DecidableEq

/-- The operand of a comparison that a message is about. -/
inductive Side where
  /-- The operand before the comparison operator. -/
  | left
  /-- The operand behind the comparison operator. -/
  | right
  deriving DecidableEq, Repr

namespace Side

/-- The word for a side. -/
def word : Side → String
  | .left => "left"
  | .right => "right"

end Side

/-- Why a text is no rule. -/
inductive SyntaxError where
  /-- There is no comparison operator. -/
  | missingOperator
  /-- There are several comparison operators. -/
  | multipleOperators (count : Nat)
  /-- One side of the comparison has no tokens. -/
  | emptyOperand (side : Side)
  /-- A character that no token has. -/
  | unexpectedCharacter (character : Char) (offset : Nat)
  /-- A boolean connective, which belongs between policies. -/
  | connective (sign : Connective) (offset : Nat)
  /-- A quoted text without its closing quote. -/
  | unterminatedString (offset : Nat)
  /-- A number beyond the largest double. -/
  | invalidNumber (literal : String)
  /-- A token where the grammar has no place for it. -/
  | unexpectedToken (found : Token) (offset : Nat)
  /-- The operand ends where it has to go on. -/
  | unexpectedEnd (side : Side)
  /-- The operand nests deeper than the limit. -/
  | tooDeep (side : Side) (limit : Nat)
  deriving DecidableEq

namespace SyntaxError

/-- The text of a cause. -/
def message : SyntaxError → String
  | .missingOperator => "missing comparison operator"
  | .multipleOperators count => s!"expected exactly one comparison operator, found {count}"
  | .emptyOperand side => s!"empty {side.word} operand"
  | .unexpectedCharacter character offset =>
    s!"unexpected character '{character}' at offset {offset}"
  | .connective sign offset =>
    s!"boolean connective '{sign.symbol}' at offset {offset} is not allowed in a rule"
  | .unterminatedString offset => s!"unterminated string literal starting at offset {offset}"
  | .invalidNumber literal => s!"invalid number literal '{literal}'"
  | .unexpectedToken found offset => s!"unexpected {found.description} at offset {offset}"
  | .unexpectedEnd side => s!"unexpected end of {side.word} operand"
  | .tooDeep side limit => s!"{side.word} operand nests deeper than {limit} levels"

end SyntaxError

end AccessControl
