import AccessControl.Policy
import AccessControl.Proofs.Expression.Agreement

/-!
# Decisions of policies

A policy is checked by the truth value of its expression over the results of its target policies; an
expression without a tree denies. The expression of every policy that is built from groups, single
target policies under bare names and merges agrees with its text, and the names that are generated
for single target policies are bare.
-/

namespace AccessControl

namespace Policy

/-- The results of the target policies for a request, by name. -/
def results (policy : Policy) (attributes : Attributes) : NameMap Bool :=
  policy.targets.mapValues (fun target => (target.evaluate attributes).value)

/-- The decision for a request is what follows from the results. -/
theorem decide_value (policy : Policy) (attributes : Attributes) :
    (policy.decide attributes).value = policy.conclude (policy.results attributes) := by
  rw [decide, results, NameMap.mapValues_mapValues]

/-- A policy grants where its expression has the value true, and denies where it has none. -/
theorem check_eq_evaluate (policy : Policy) (attributes : Attributes) :
    policy.check attributes =
      (policy.expression.evaluate (policy.results attributes)).toOption.getD false := by
  rw [check, decide_value, conclude]
  cases policy.expression.evaluate (policy.results attributes) <;> rfl

/-- A policy with a tree grants where the tree holds. -/
theorem check_of_tree {policy : Policy} {tree : Disjunction}
    (h : policy.expression.tree = .ok tree) (attributes : Attributes) :
    policy.check attributes = tree.holds (policy.results attributes) := by
  rw [check, decide_value, conclude, Expression.evaluate, h]
  rfl

/-- A policy whose expression is malformed denies. -/
theorem check_of_malformed {policy : Policy} (h : policy.expression.malformed = true)
    (attributes : Attributes) : policy.check attributes = false := by
  cases htree : policy.expression.tree with
  | error cause =>
    rw [check, decide_value, conclude, Expression.evaluate, htree]
    rfl
  | ok tree =>
    rw [Expression.malformed_eq_false_iff.mpr ⟨tree, htree⟩] at h
    cases h

/-- The policies that are built from declarations by merging. -/
inductive Built : Policy → Prop where
  /-- The policy of a group. -/
  | group (spec : GroupSpec) (registry : Registry) (logging : Bool) :
    Built (group spec registry logging)
  /-- The policy of one target policy under a bare name. -/
  | single {name : String} (spec : TargetSpec) (registry : Registry) (logging : Bool) :
    Expression.IsBareName name.toList → Built (single name spec registry logging)
  /-- Two policies that were built, merged. -/
  | merge {left right : Policy} (connective : Connective) : Built left → Built right →
    Built (left.merge connective right)
  /-- A policy that was built, with reports switched on or off. -/
  | withLogging {policy : Policy} (logging : Bool) : Built policy →
    Built (policy.withLogging logging)

/-- The expression of a policy that was built agrees with its text. -/
theorem Built.textAgrees {policy : Policy} (h : policy.Built) : policy.expression.TextAgrees := by
  induction h with
  | group spec => exact Expression.textAgrees_parse spec.expression
  | single _ _ _ hname => exact Expression.textAgrees_referTo hname
  | merge connective _ _ hleft hright => exact hleft.concat hright connective
  | withLogging _ _ ih => exact ih

/-- The digits of numbers to the base of sixteen belong to bare names. -/
theorem isBare_of_mem_toDigits {number : Nat} {c : Char} (h : c ∈ Nat.toDigits 16 number) :
    Expression.isBare c = true := by
  have hdigit : ∀ digit < 16, Expression.isBare (Nat.digitChar digit) = true := by decide +kernel
  induction number using Nat.strongRecOn with
  | ind number ih =>
    rw [Nat.toDigits_eq_if (by decide)] at h
    split at h
    case isTrue hlt =>
      rw [List.mem_singleton.mp h]
      exact hdigit number hlt
    case isFalse hle =>
      rcases List.mem_append.mp h with h | h
      · exact ih (number / 16) (by omega) h
      · rw [List.mem_singleton.mp h]
        exact hdigit (number % 16) (Nat.mod_lt _ (by decide))

/-- Generated names are bare. -/
theorem isBareName_generatedName (serial : Nat) :
    Expression.IsBareName (generatedName serial).toList := by
  rw [generatedName, String.toList_ofList]
  refine ⟨List.cons_ne_nil _ _, List.forall_mem_cons.mpr ⟨by decide +kernel, fun c hc => ?_⟩⟩
  rcases List.mem_append.mp hc with hc | hc
  · rw [List.eq_of_mem_replicate hc]
    decide +kernel
  · exact isBare_of_mem_toDigits hc

end Policy

end AccessControl
