import AccessControl.Expression
import AccessControl.Target

/-!
# Policies

A policy is a set of named target policies and an expression over their results. It is declared as a
group, with an expression and names of the author's choice, or as a single target policy under a
generated name, or it is merged from two policies. Checking a policy always gives a decision: a
target policy that fails counts as false, and so does a name without a target policy; an expression
that cannot be read denies.
-/

namespace AccessControl

/-- The declaration of a group of target policies. -/
structure GroupSpec where
  /-- The text of the expression. -/
  expression : String
  /-- The target policies by name. -/
  targets : NameMap TargetSpec
  deriving DecidableEq

/-- The declaration of a policy. -/
inductive PolicySpec where
  /-- Named target policies with an expression. -/
  | group (spec : GroupSpec)
  /-- One target policy. -/
  | single (spec : TargetSpec)
  deriving DecidableEq

namespace PolicySpec

/-- Whether one target policy is declared, which is to get a generated name. -/
def isSingle : PolicySpec → Bool
  | .group _ => false
  | .single _ => true

/-- The number of target policies declared. -/
def size : PolicySpec → Nat
  | .group spec => spec.targets.size
  | .single _ => 1

end PolicySpec

/-- The answer to a request. -/
structure Decision where
  /-- Whether access is granted. -/
  allowed : Bool
  /-- The result of every target policy. -/
  results : NameMap Bool
  /-- How the answer came about. -/
  reason : String
  deriving DecidableEq

/-- Named target policies with the expression that combines their results. -/
structure Policy where
  /-- The expression. -/
  expression : Expression
  /-- The target policies by name. -/
  targets : NameMap TargetPolicy
  /-- Whether problems with the expression are reported. -/
  logging : Bool := true

namespace Policy

/-- The generated name of a number: an underscore and the 32 hexadecimal digits of the number. -/
def generatedName (serial : Nat) : String :=
  String.ofList ('_' :: (Nat.toDigits 16 serial).leftpad 32 '0')

/-- The policy of a group, whose rules are compiled over a registry. -/
def group (spec : GroupSpec) (registry : Registry) (logging : Bool) : Policy where
  expression := .parse spec.expression
  targets := spec.targets.mapValues (fun target => .compile target registry logging)
  logging := logging

/-- The policy of one target policy under a name, which its expression refers to. -/
def single (name : String) (spec : TargetSpec) (registry : Registry) (logging : Bool) : Policy where
  expression := .referTo name
  targets := NameMap.empty.insert name (.compile spec registry logging)
  logging := logging

/-- The policy of a declaration. The name is for a single target policy. -/
def ofSpec (name : String) (spec : PolicySpec) (registry : Registry) (logging : Bool) : Policy :=
  match spec with
  | .group spec => group spec registry logging
  | .single spec => single name spec registry logging

/-- Two policies joined by a connective. Where both have a target policy of one name, that of the
right one counts. Whether problems are reported is up to the left one. -/
def merge (left : Policy) (connective : Connective) (right : Policy) : Policy where
  expression := left.expression.concat connective right.expression
  targets := left.targets.union right.targets
  logging := left.logging

/-- The policy with reports of expression problems switched on or off. -/
def withLogging (policy : Policy) (logging : Bool) : Policy := { policy with logging := logging }

/-- What compiling the target policies reported. -/
def compilationEvents (policy : Policy) : List Event :=
  policy.targets.values.flatMap TargetPolicy.compilationEvents

/-- The names that the expression refers to without a target policy of the name. -/
def unknownReferences (policy : Policy) : List String :=
  policy.expression.references.filter (fun name => !policy.targets.contains name)

/-- The words for a truth value. -/
def truthWord (value : Bool) : String := if value then "true" else "false"

/-- The decision that follows from the results of the target policies. -/
def conclude (policy : Policy) (results : NameMap Bool) : Decision :=
  let text := policy.expression.text
  match policy.expression.evaluate results with
  | .ok allowed =>
    let granted := results.values.countP id
    ⟨allowed, results, s!"Expression '{text}' evaluated to {truthWord allowed} " ++
      s!"({granted} of {results.size} target policies true)"⟩
  | .error cause => ⟨false, results, s!"Malformed policy expression '{text}': {cause.message}"⟩

/-- What is reported about the expression, whatever the request: first the unknown names, ascending,
then that it cannot be read. -/
def expressionEvents (policy : Policy) : List Event :=
  let text := policy.expression.text
  if policy.logging then
    policy.unknownReferences.map (fun name => .unknownTarget name text)
      ++ policy.expression.error?.toList.map (fun cause => .malformedExpression text cause)
  else []

/-- The decision for a request. The target policies are evaluated in ascending order of their names,
all of them. -/
def decide (policy : Policy) (attributes : Attributes) : Observed Decision :=
  let runs := policy.targets.mapValues (fun target => target.evaluate attributes)
  ⟨policy.conclude (runs.mapValues (fun run => run.value)),
    runs.values.flatMap (fun run => run.events) ++ policy.expressionEvents,
    runs.values.flatMap (fun run => run.calls)⟩

/-- Whether a request is granted. -/
def check (policy : Policy) (attributes : Attributes) : Bool :=
  (policy.decide attributes).value.allowed

end Policy

end AccessControl
