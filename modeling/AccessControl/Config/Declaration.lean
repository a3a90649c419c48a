import AccessControl.Config

/-!
# Declared forms of configurations

A configuration is declared as a value like the policies in it. Sources of configurations differ in
what they take for a truth value and in which numbers they can write, so a reading says how truth
values are read and what value, if any, becomes of a number.
-/

namespace AccessControl

variable {ν : Type}

namespace Settings

/-- The settings that a value declares. -/
def ofValue? (flag : Value ν → Option Bool) (value : Value ν) : Option Settings := do
  let members ← value.record? ["log_errors"]
  let logErrors ← Value.fieldOr members "log_errors" true flag
  some ⟨logErrors⟩

/-- The written form of settings. -/
def toValue (settings : Settings) : Value ν := .object [("log_errors", .bool settings.logErrors)]

end Settings

namespace Config

/-- The policy that a value declares, if every number in the value is one that is taken. -/
def policy? (number : ν → Option Json) (value : Value ν) : Option PolicySpec :=
  if (value.replaceNumbers? number).isSome then PolicySpec.ofValue? value else none

/-- The configuration that a value declares. -/
def ofValue? (flag : Value ν → Option Bool) (number : ν → Option Json) (value : Value ν) :
    Option Config := do
  let members ← value.record? ["evaluation", "injected", "policies"]
  let evaluation ← Value.fieldOr members "evaluation" {} (Settings.ofValue? flag)
  let injected ← Value.fieldOr members "injected" .empty
    (fun injected => injected.map? (fun value => value.replaceNumbers? number))
  let policies ← Value.fieldOr members "policies" .empty
    (fun policies => policies.map? (policy? number))
  some ⟨evaluation, injected, policies⟩

/-- The configuration that a plain value declares. -/
def ofJson? (value : Json) : Option Config := ofValue? Value.bool? (fun n => some (.number n)) value

/-- The written form of a configuration. -/
def toValue (config : Config) : Json :=
  .object [("evaluation", config.evaluation.toValue), ("injected", .ofMap config.injected),
    ("policies", .ofNameMap PolicySpec.toValue config.policies)]

end Config

end AccessControl
