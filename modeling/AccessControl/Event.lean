import AccessControl.Expression.Grammar
import AccessControl.Registry
import AccessControl.Rule.Fault

/-!
# Reported events

What goes wrong while policies are compiled and checked is reported as events of three levels. An
event carries texts under names, which say what it is about.
-/

namespace AccessControl

/-- How grave an event is. -/
inductive Level where
  /-- Something is wrong and access is denied for it. -/
  | error
  /-- Something looks wrong. -/
  | warning
  /-- Something that will be reported again when it matters. -/
  | debug
  deriving DecidableEq, Repr

namespace Level

/-- The word for a level. -/
def word : Level → String
  | .error => "ERROR"
  | .warning => "WARN"
  | .debug => "DEBUG"

end Level

/-- A reported event. -/
inductive Event where
  /-- A text that is no rule was compiled. -/
  | uncompiledRule (rule : String) (cause : SyntaxError)
  /-- A rule had no truth value, so its target policy denies. -/
  | failedRule (error : RuleError)
  /-- An expression names a target policy that the policy does not have. -/
  | unknownTarget (target : String) (expression : String)
  /-- An expression could not be read, so the policy denies. -/
  | malformedExpression (expression : String) (error : ExpressionError)
  deriving DecidableEq

namespace Event

/-- The level of an event. -/
def level : Event → Level
  | .uncompiledRule _ _ => .debug
  | .failedRule _ => .error
  | .unknownTarget _ _ => .warning
  | .malformedExpression _ _ => .error

/-- The text of an event. -/
def message : Event → String
  | .uncompiledRule _ _ => "Access rule failed to compile"
  | .failedRule _ => "Access rule failed; denying target policy"
  | .unknownTarget _ _ =>
    "Policy expression references an unknown target policy; treating it as false"
  | .malformedExpression _ _ => "Malformed policy expression; denying"

/-- The texts that an event carries, each under its name. -/
def fields : Event → List (String × String)
  | .uncompiledRule rule cause => [("rule", rule), ("error", cause.message)]
  | .failedRule error => [("rule", error.rule), ("error", error.message)]
  | .unknownTarget target expression => [("policy", target), ("expression", expression)]
  | .malformedExpression expression error => [("expression", expression), ("error", error.message)]

end Event

/-- A result with the events reported and the host functions called on the way to it. -/
structure Observed (α : Type) where
  /-- The result. -/
  value : α
  /-- The events, in the order of their reports. -/
  events : List Event
  /-- The calls, in order. -/
  calls : List Call

end AccessControl
