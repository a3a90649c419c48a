import AccessControl.Proofs.Expression.Support
import AccessControl.Proofs.Policy.Decision

/-!
# Target policies that are not referred to

A policy checks a request by what its expression refers to. Target policies under other names can be
added, taken away or changed without any request being answered otherwise, whatever their rules say
and even if they fail.
-/

namespace AccessControl.Policy

/-- A policy grants the same requests with other target policies if those stay that its expression
refers to. -/
theorem check_withTargets {policy : Policy} {targets : NameMap TargetPolicy}
    (h : ∀ name ∈ policy.expression.references, targets.get? name = policy.targets.get? name)
    (attributes : Attributes) :
    ({ policy with targets := targets } : Policy).check attributes = policy.check attributes := by
  have hagree : ∀ name ∈ policy.expression.references,
      (({ policy with targets := targets } : Policy).results attributes).get? name =
        (policy.results attributes).get? name := by
    intro name hname
    rw [results, results, NameMap.get?_mapValues, NameMap.get?_mapValues, h name hname]
  rw [check_eq_evaluate, check_eq_evaluate, Expression.evaluate_congr
    (fun name hname => congrArg (·.getD false) (hagree name hname))]

/-- The names that an expression refers to are all that its value depends on: it is the same over
results that agree on them, where a missing result counts as false. So a policy grants the same
requests with whatever target policies under other names. Expressions that can be read refer, when
they are joined, to the names that one of them refers to. -/
theorem references_decide :
    (∀ (expression : Expression) (first second : NameMap Bool),
        (∀ name ∈ expression.references,
          (first.get? name).getD false = (second.get? name).getD false) →
        expression.evaluate first = expression.evaluate second) ∧
      (∀ (policy : Policy) (targets : NameMap TargetPolicy),
        (∀ name ∈ policy.expression.references, targets.get? name = policy.targets.get? name) →
        ∀ attributes, ({ policy with targets := targets } : Policy).check attributes =
          policy.check attributes) ∧
      ∀ (left right : Expression) (connective : Connective), left.Built → right.Built →
        left.malformed = false → right.malformed = false →
        ∀ name, name ∈ (left.concat connective right).references ↔
          name ∈ left.references ∨ name ∈ right.references :=
  ⟨fun _ _ _ h => Expression.evaluate_congr h, fun _ _ h => check_withTargets h,
    fun _ _ connective hleft _ hreadLeft hreadRight name =>
      Expression.mem_references_concat_iff hleft hreadLeft hreadRight connective name⟩

/-- Two halves that complete each other's group, over results of which one lacks a false one and has
one under another name, a policy that gets a target policy that fails, and two clauses that become
one. -/
theorem references_decide_halves :
    let expression := (Expression.parse "(data.a").concat .or (.parse "data['b'] && data.c)")
    let first : NameMap Bool := .ofList [("a", false), ("b", true), ("d", true)]
    let second : NameMap Bool := .ofList [("b", true), ("c", false)]
    let grants : TargetPolicy := ⟨[], .all, .permit, true⟩
    let fails : TargetPolicy := ⟨[.compile "garbage" .empty], .any, .deny, true⟩
    let policy : Policy := ⟨expression, .ofList [("a", grants)], true⟩
    let targets := policy.targets.insert "d" fails
    let joined := expression.concat .and (.referTo "e")
    (∀ name ∈ expression.references,
        (first.get? name).getD false = (second.get? name).getD false) ∧
      expression.evaluate first = expression.evaluate second ∧
      expression.evaluate first = .ok false ∧
      (∀ name ∈ policy.expression.references, targets.get? name = policy.targets.get? name) ∧
      ({ policy with targets := targets } : Policy).check {} = policy.check {} ∧
      policy.check {} = true ∧ expression.Built ∧ (Expression.referTo "e").Built ∧
      expression.malformed = false ∧ (Expression.referTo "e").malformed = false ∧
      "b" ∈ joined.references ∧ "e" ∈ joined.references ∧ "d" ∉ joined.references := by
  intro expression first second grants fails policy targets joined
  obtain ⟨hvalue, hcheck, hjoined⟩ := references_decide
  have hagree : ∀ name ∈ expression.references,
      (first.get? name).getD false = (second.get? name).getD false := by
    decide +kernel
  have htargets : ∀ name ∈ policy.expression.references,
      targets.get? name = policy.targets.get? name := by
    intro name hname
    have hforeign : "d" ∉ policy.expression.references := by decide +kernel
    have hne : name ≠ "d" := ne_of_mem_of_not_mem hname hforeign
    exact (NameMap.get?_insert policy.targets "d" name fails).trans (if_neg hne)
  have hbuilt : expression.Built := .concat .or (.parse _) (.parse _)
  have hother : (Expression.referTo "e").Built := .referTo "e"
  have hread : expression.malformed = false := by decide +kernel
  have hmem := hjoined expression (.referTo "e") .and hbuilt hother hread rfl
  have hleft : "b" ∈ expression.references := by decide +kernel
  have hright : "e" ∈ (Expression.referTo "e").references := by decide +kernel
  have hneither : ¬("d" ∈ expression.references ∨ "d" ∈ (Expression.referTo "e").references) := by
    decide +kernel
  exact ⟨hagree, hvalue expression first second hagree, by decide +kernel, htargets,
    hcheck policy targets htargets {}, by decide +kernel, hbuilt, hother, hread, rfl,
    (hmem "b").mpr (Or.inl hleft), (hmem "e").mpr (Or.inr hright),
    fun hd => hneither ((hmem "d").mp hd)⟩

end AccessControl.Policy
