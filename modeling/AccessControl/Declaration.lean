import AccessControl.Attributes
import AccessControl.Policy
import AccessControl.Value.Record

/-!
# Declared forms

Policies and requests are declared as values. Every declared thing has a written form, a value with
its members in ascending order, and a reading that accepts more than the written form: fields may be
left out where there is a default, members that are no field do not count, and a record may be a
list. A policy is a group if it can be read as one, and otherwise a single target policy.
-/

namespace AccessControl

variable {ν : Type}

namespace Bag

/-- The bag that a value declares. -/
def ofValue? (value : Value ν) : Option Bag := value.keyword? ofWord?

/-- The written form of a bag. -/
def toValue (bag : Bag) : Value ν := .string bag.word

end Bag

namespace Algorithm

/-- The algorithm that a value declares. -/
def ofValue? (value : Value ν) : Option Algorithm := value.keyword? ofWord?

/-- The written form of an algorithm. -/
def toValue (algorithm : Algorithm) : Value ν := .string algorithm.word

end Algorithm

namespace Effect

/-- The effect that a value declares. -/
def ofValue? (value : Value ν) : Option Effect := value.keyword? ofWord?

/-- The written form of an effect. -/
def toValue (effect : Effect) : Value ν := .string effect.word

end Effect

namespace TargetSpec

/-- The target policy that a value declares. Every field has a default. -/
def ofValue? (value : Value ν) : Option TargetSpec := do
  let members ← value.record? ["target", "algorithm", "effect"]
  let rules ← Value.fieldOr members "target" [] (fun rules => rules.list? Value.string?)
  let algorithm ← Value.fieldOr members "algorithm" .all Algorithm.ofValue?
  let effect ← Value.fieldOr members "effect" .deny Effect.ofValue?
  some ⟨rules, algorithm, effect⟩

/-- The written form of a target policy. -/
def toValue (spec : TargetSpec) : Value ν :=
  .object [("algorithm", spec.algorithm.toValue), ("effect", spec.effect.toValue),
    ("target", .ofList .string spec.rules)]

end TargetSpec

namespace GroupSpec

/-- The group that a value declares. Both fields are needed. -/
def ofValue? (value : Value ν) : Option GroupSpec := do
  let members ← value.record? ["expression", "policies"]
  let expression ← Value.field? members "expression" Value.string?
  let targets ← Value.field? members "policies" (fun targets => targets.map? TargetSpec.ofValue?)
  some ⟨expression, targets⟩

/-- The written form of a group. -/
def toValue (spec : GroupSpec) : Value ν :=
  .object [("expression", .string spec.expression),
    ("policies", .ofNameMap TargetSpec.toValue spec.targets)]

end GroupSpec

namespace PolicySpec

/-- The policy that a value declares: a group if the value declares one, and otherwise the single
target policy that it declares. -/
def ofValue? (value : Value ν) : Option PolicySpec :=
  match GroupSpec.ofValue? value with
  | some spec => some (.group spec)
  | none => (TargetSpec.ofValue? value).map .single

/-- The written form of a policy. -/
def toValue : PolicySpec → Value ν
  | .group spec => spec.toValue
  | .single spec => spec.toValue

end PolicySpec

namespace Attributes

/-- The request that a value declares. A bag that is left out is null. -/
def ofValue? (value : Json) : Option Attributes := do
  let members ← value.record? ["user", "action", "env", "resource"]
  let user ← Value.fieldOr members "user" .null some
  let action ← Value.fieldOr members "action" .null some
  let environment ← Value.fieldOr members "env" .null some
  let resource ← Value.fieldOr members "resource" .null some
  some ⟨user, action, environment, resource⟩

/-- The written form of a request. -/
def toValue (attributes : Attributes) : Json :=
  .object [("action", attributes.action), ("env", attributes.environment),
    ("resource", attributes.resource), ("user", attributes.user)]

end Attributes

end AccessControl
