import AccessControl.Event
import AccessControl.Rule.Evaluation
import AccessControl.Rule.Grammar

/-!
# Rules

A rule is a text that states one comparison. It is read once, and the injected entries that it names
are bound as they are at that moment. A text that is no rule still makes a rule, which fails with
the same error whenever it is evaluated.
-/

namespace AccessControl

/-- A compiled rule. -/
structure Rule where
  /-- The text as written. -/
  source : String
  /-- The comparison with the injected entries bound to it, or why the text is none. -/
  compiled : Except SyntaxError (Comparison × Registry)

namespace Rule

/-- Compiles a text over a registry. -/
def compile (source : String) (registry : Registry) : Rule :=
  match Comparison.parse source with
  | .error cause => ⟨source, .error cause⟩
  | .ok comparison => ⟨source, .ok (comparison, registry.snapshot comparison.names)⟩

/-- Why the text is no rule, if it is none. -/
def syntaxError? (rule : Rule) : Option SyntaxError :=
  match rule.compiled with
  | .error cause => some cause
  | .ok _ => none

/-- Whether the text is a rule. -/
def isCompiled (rule : Rule) : Bool := rule.syntaxError?.isNone

/-- The injected names bound to the rule, ascending. -/
def boundNames (rule : Rule) : List String :=
  match rule.compiled with
  | .error _ => []
  | .ok (_, scope) => scope.names

/-- What compiling the rule reported. -/
def compilationEvents (rule : Rule) : List Event :=
  match rule.compiled with
  | .error cause => [.uncompiledRule rule.source cause]
  | .ok _ => []

/-- The normal text of the comparison, or the text as written if it is no rule. -/
def text (rule : Rule) : String :=
  match rule.compiled with
  | .error _ => rule.source
  | .ok (comparison, _) => String.ofList comparison.text

/-- The truth value of a rule for a request. -/
def evaluate (rule : Rule) (attributes : Attributes) : Traced RuleError Bool :=
  match rule.compiled with
  | .error cause => .ofExcept (.error (.uncompiled rule.source cause))
  | .ok (comparison, scope) =>
    (comparison.evaluate scope attributes).mapError (RuleError.faulted rule.source)

end Rule

end AccessControl
