import AccessControl.Rule

/-!
# Target policies

A target policy is a list of rules with a way to combine their truth values and an effect. All rules
are evaluated in order, whatever the values so far, up to the first that fails. A failure denies,
and the effect is not applied to it.
-/

namespace AccessControl

/-- A word that stands for no algorithm or no effect. -/
structure KeywordError where
  /-- What the word was to be. -/
  kind : String
  /-- The word. -/
  value : String
  /-- The words that would do. -/
  expected : String
  deriving DecidableEq, Repr

namespace KeywordError

/-- The text of the error. -/
def message (error : KeywordError) : String :=
  s!"unknown {error.kind} '{error.value}', expected one of: {error.expected}"

end KeywordError

/-- How the truth values of rules are combined. -/
inductive Algorithm where
  /-- Every rule has to hold. -/
  | all
  /-- At least one rule has to hold. -/
  | any
  deriving DecidableEq, Repr, Inhabited

namespace Algorithm

/-- The word for an algorithm. -/
def word : Algorithm → String
  | .all => "all"
  | .any => "any"

/-- The algorithm that a word stands for. -/
def ofWord? (word : String) : Option Algorithm :=
  match word with
  | "all" => some .all
  | "any" => some .any
  | _ => none

/-- The algorithm that a word stands for, or an error that names the words that do. -/
def parse (word : String) : Except KeywordError Algorithm :=
  match ofWord? word with
  | some algorithm => .ok algorithm
  | none => .error ⟨"algorithm", word, "all, any"⟩

/-- The value of no rules at all. -/
def start : Algorithm → Bool
  | .all => true
  | .any => false

/-- The value so far together with that of one more rule. -/
def combine : Algorithm → Bool → Bool → Bool
  | .all, sofar, next => sofar && next
  | .any, sofar, next => sofar || next

end Algorithm

/-- What the combined truth value of the rules means. -/
inductive Effect where
  /-- Access is granted where the rules hold. -/
  | permit
  /-- Access is granted where the rules do not hold. -/
  | deny
  deriving DecidableEq, Repr

namespace Effect

instance : Inhabited Effect := ⟨.deny⟩

/-- The word for an effect. -/
def word : Effect → String
  | .permit => "permit"
  | .deny => "deny"

/-- The effect that a word stands for. -/
def ofWord? (word : String) : Option Effect :=
  match word with
  | "permit" => some .permit
  | "deny" => some .deny
  | _ => none

/-- The effect that a word stands for, or an error that names the words that do. -/
def parse (word : String) : Except KeywordError Effect :=
  match ofWord? word with
  | some effect => .ok effect
  | none => .error ⟨"effect", word, "permit, deny"⟩

/-- The decision for a combined truth value. -/
def apply : Effect → Bool → Bool
  | .permit, combined => combined
  | .deny, combined => !combined

end Effect

/-- The declaration of a target policy. -/
structure TargetSpec where
  /-- The texts of the rules, in order. -/
  rules : List String := []
  /-- How the rules are combined. -/
  algorithm : Algorithm := .all
  /-- What their combination means. -/
  effect : Effect := .deny
  deriving DecidableEq, Inhabited

/-- Compiled rules with an algorithm and an effect. -/
structure TargetPolicy where
  /-- The rules, in order. -/
  rules : List Rule
  /-- How the rules are combined. -/
  algorithm : Algorithm
  /-- What their combination means. -/
  effect : Effect
  /-- Whether a failing rule is reported. -/
  logging : Bool := true

namespace TargetPolicy

/-- Compiles every rule of a declaration over a registry. -/
def compile (spec : TargetSpec) (registry : Registry) (logging : Bool) : TargetPolicy :=
  ⟨spec.rules.map (fun source => .compile source registry), spec.algorithm, spec.effect, logging⟩

/-- What compiling the rules reported. -/
def compilationEvents (target : TargetPolicy) : List Event :=
  target.rules.flatMap Rule.compilationEvents

/-- The combined truth value of rules on top of a value so far. The first rule that fails ends the
evaluation; until then every rule is evaluated. -/
def combineRules (algorithm : Algorithm) (attributes : Attributes) :
    Bool → List Rule → Traced RuleError Bool
  | sofar, [] => .value sofar
  | sofar, rule :: rest =>
    (rule.evaluate attributes).andThen (fun value =>
      combineRules algorithm attributes (algorithm.combine sofar value) rest)

/-- The decision for a request, or the error of the first rule that fails. -/
def outcome (target : TargetPolicy) (attributes : Attributes) : Traced RuleError Bool :=
  (combineRules target.algorithm attributes target.algorithm.start target.rules).andThen
    (fun combined => .value (target.effect.apply combined))

/-- The decision for a request, where a failing rule denies. -/
def evaluate (target : TargetPolicy) (attributes : Attributes) : Observed Bool :=
  let run := target.outcome attributes
  match run.outcome with
  | .ok decision => ⟨decision, [], run.calls⟩
  | .error cause => ⟨false, if target.logging then [.failedRule cause] else [], run.calls⟩

end TargetPolicy

end AccessControl
