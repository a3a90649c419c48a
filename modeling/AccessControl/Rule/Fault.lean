import AccessControl.Rule.Token

/-!
# Faults of evaluation

A rule that is well formed can still fault on the attributes of a request. Faults and syntax errors
are the two ways in which a rule has no truth value, and both carry the text of the rule.
-/

namespace AccessControl

/-- Why an operand has no value or two values have no order. -/
inductive Fault where
  /-- A name that was not registered when the rule was compiled. -/
  | unknownIdentifier (name : String)
  /-- An object without the member asked for. -/
  | missingField (field : String)
  /-- A field of a value that has none. -/
  | notAnObject (field : String) (kind : Kind)
  /-- An index beyond the end of a list. -/
  | indexOutOfBounds (index : Nat) (length : Nat)
  /-- An index into a list that is a number but no integer from zero on. -/
  | fractionalIndex
  /-- An index that the value cannot have. -/
  | invalidIndex (target : Kind) (index : Kind)
  /-- An operator on values it is not for. -/
  | typeMismatch (operator : Operator) (left : Kind) (right : Kind)
  /-- An order between values that have none. -/
  | incomparable (left : Kind) (right : Kind)
  /-- A call of a name that stands for a value. -/
  | notCallable (name : String)
  /-- A function's name where a value is needed. -/
  | notAValue (name : String)
  /-- A function that gave a message for an answer. -/
  | function (name : String) (message : String)
  /-- A division or a remainder by zero. -/
  | divisionByZero
  /-- A result beyond the largest double. -/
  | notFinite
  deriving DecidableEq, Repr

namespace Fault

/-- The text of a fault. -/
def message : Fault → String
  | .unknownIdentifier name => s!"unknown identifier '{name}'"
  | .missingField field => s!"missing field '{field}'"
  | .notAnObject field kind => s!"cannot read field '{field}' of {kind.word}"
  | .indexOutOfBounds index length => s!"index {index} out of bounds for array of length {length}"
  | .fractionalIndex => "cannot index array with non-integer number"
  | .invalidIndex target index => s!"cannot index {target.word} with {index.word}"
  | .typeMismatch operator left right =>
    s!"cannot apply '{operator.symbol}' to {left.word} and {right.word}"
  | .incomparable left right => s!"cannot order {left.word} against {right.word}"
  | .notCallable name => s!"'{name}' is not a function"
  | .notAValue name => s!"'{name}' is a function, not a value"
  | .function name message => s!"function '{name}' failed: {message}"
  | .divisionByZero => "division by zero"
  | .notFinite => "arithmetic result is not a finite number"

end Fault

/-- Why a rule has no truth value, with the text of the rule. -/
inductive RuleError where
  /-- The text is no rule. -/
  | uncompiled (rule : String) (cause : SyntaxError)
  /-- The evaluation faulted. -/
  | faulted (rule : String) (fault : Fault)
  deriving DecidableEq

namespace RuleError

/-- The text of the rule. -/
def rule : RuleError → String
  | .uncompiled rule _ => rule
  | .faulted rule _ => rule

/-- What is wrong, without the rule. -/
def reason : RuleError → String
  | .uncompiled _ cause => cause.message
  | .faulted _ fault => fault.message

/-- What is wrong with which rule. -/
def message (error : RuleError) : String := s!"in access rule '{error.rule}': {error.reason}"

end RuleError

end AccessControl
