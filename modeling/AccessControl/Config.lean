import AccessControl.Declaration
import AccessControl.Text.Character

/-!
# Configurations

A configuration holds settings, values to be injected and policies by name. It is checked before it
is used: injected names must be names that a rule can mention, every rule has to compile, and every
expression has to be read and may refer to nothing but target policies of its own group. Compiling a
configuration registers its values and compiles its policies over the registry, the unnamed ones
under generated names.
-/

namespace AccessControl

/-- What a configuration says about evaluation. -/
structure Settings where
  /-- Whether failures are reported. -/
  logErrors : Bool := true
  deriving DecidableEq, Inhabited

/-- Why no rule can mention a name, or why a value under it would not be found. -/
inductive NameFault where
  /-- The name has no characters. -/
  | empty
  /-- The first character starts no name. -/
  | start
  /-- A further character is in no name. -/
  | part
  /-- The name is that of an attribute bag. -/
  | bag
  /-- The name is a literal. -/
  | literal
  deriving DecidableEq, Repr

namespace NameFault

/-- The text of a fault. -/
def message : NameFault → String
  | .empty => "name is empty"
  | .start => "name must start with a letter, '_' or '$'"
  | .part => "name may only contain letters, digits, '_' or '$'"
  | .bag => "name is reserved for an attribute bag"
  | .literal => "name is a literal keyword"

/-- What is wrong with a name for an injected value, if anything is. -/
def of? (name : String) : Option NameFault :=
  match name.toList with
  | [] => some .empty
  | first :: others =>
    if !Text.isNameStart first then some .start
    else if !others.all Text.isNamePart then some .part
    else if (Bag.ofWord? name).isSome then some .bag
    else if name == "true" || name == "false" || name == "null" then some .literal
    else none

end NameFault

/-- What is wrong with a declared policy. -/
inductive PolicyFault where
  /-- A rule does not compile. -/
  | rule (source : String) (cause : SyntaxError)
  /-- The expression cannot be read. -/
  | expression (cause : ExpressionError)
  /-- The expression refers to a target policy that the group does not have. -/
  | unknownTarget (name : String)
  deriving DecidableEq

namespace PolicyFault

/-- The text of a fault. -/
def message : PolicyFault → String
  | .rule source cause => (RuleError.uncompiled source cause).message
  | .expression cause => s!"expression: {cause.message}"
  | .unknownTarget name => s!"expression references unknown target policy '{name}'"

/-- The first rule of a target policy that does not compile. -/
def ofTarget? (spec : TargetSpec) : Option PolicyFault :=
  spec.rules.findSome? (fun source =>
    (Rule.compile source .empty).syntaxError?.map (fun cause => .rule source cause))

/-- What is wrong with the expression of a group. -/
def ofExpression? (spec : GroupSpec) : Option PolicyFault :=
  let expression := Expression.parse spec.expression
  match expression.error? with
  | some cause => some (.expression cause)
  | none =>
    (expression.references.find? (fun name => !spec.targets.contains name)).map .unknownTarget

end PolicyFault

/-- Why a configuration is refused. -/
inductive ConfigFault where
  /-- An injected value has a name that will not do. -/
  | injectedName (name : String) (fault : NameFault)
  /-- A policy will not do. The path is its name, with that of its target policy if the fault is
  there. -/
  | policy (path : String) (fault : PolicyFault)
  deriving DecidableEq

namespace ConfigFault

/-- The text of a fault. -/
def message : ConfigFault → String
  | .injectedName name fault => s!"Invalid injected name '{name}': {fault.message}"
  | .policy path fault => s!"Invalid policy '{path}': {fault.message}"

/-- What is wrong with a policy. The expression of a group is looked at first, then its target
policies in ascending order. -/
def ofPolicy? (name : String) : PolicySpec → Option ConfigFault
  | .single spec => (PolicyFault.ofTarget? spec).map (.policy name)
  | .group spec =>
    ((PolicyFault.ofExpression? spec).map (.policy name)).or
      (spec.targets.entries.findSome? (fun (target, spec) =>
        (PolicyFault.ofTarget? spec).map (.policy (name ++ "." ++ target))))

end ConfigFault

/-- Settings, values to be injected and policies. -/
structure Config where
  /-- The settings. -/
  evaluation : Settings := {}
  /-- The values to be injected, by name. -/
  injected : NameMap Json := .empty
  /-- The policies by name. -/
  policies : NameMap PolicySpec := .empty
  deriving DecidableEq, Inhabited

namespace Config

/-- What is wrong with a configuration, if anything is: injected names are looked at first, then
policies, both in ascending order. -/
def fault? (config : Config) : Option ConfigFault :=
  (config.injected.names.findSome? (fun name => (NameFault.of? name).map (.injectedName name))).or
    (config.policies.entries.findSome? (fun (name, spec) => ConfigFault.ofPolicy? name spec))

/-- A registry with the injected values added to it. -/
def registry (config : Config) (start : Registry) : Registry :=
  start.union (config.injected.mapValues .value)

/-- The number of a policy among those that get generated names, counted in ascending order of the
names from one on. -/
def serial (config : Config) (name : String) : Nat :=
  config.policies.entries.countP (fun (other, spec) => spec.isSingle && other < name) + 1

/-- The compiled policies, over a registry to which the injected values have been added. -/
def compile (config : Config) (start : Registry) : NameMap Policy :=
  config.policies.mapEntries (fun name spec =>
    Policy.ofSpec (Policy.generatedName (config.serial name)) spec (config.registry start)
      config.evaluation.logErrors)

end Config

end AccessControl
