import AccessControl.Policy
import AccessControl.Proofs.Rule.Bags

/-!
# Requests that a policy cannot tell apart

A policy decides alike on requests that have the same content of the bags that its rules mention.
Not only the answer is the same: every target policy has the same outcome, with the error of the
same rule where one fails, the same events are reported, and the same calls are made.
-/

namespace AccessControl

/-- The bags that the rules of a target policy mention. -/
def TargetPolicy.bags (target : TargetPolicy) : List Bag := target.rules.flatMap Rule.bags

/-- The bags that the rules of the target policies mention. -/
def Policy.bags (policy : Policy) : List Bag := policy.targets.values.flatMap TargetPolicy.bags

variable {first second : Attributes}

namespace TargetPolicy

/-- Rules have the same combination for requests that agree on the bags that they mention. -/
theorem combineRules_eq_of_agreeOn {rules : List Rule}
    (h : Attributes.AgreeOn (rules.flatMap Rule.bags) first second) (algorithm : Algorithm)
    (sofar : Bool) :
    combineRules algorithm first sofar rules = combineRules algorithm second sofar rules := by
  induction rules generalizing sofar with
  | nil => rfl
  | cons rule rest ih =>
    rw [List.flatMap_cons] at h
    have hrest : ∀ value, combineRules algorithm first (algorithm.combine sofar value) rest =
        combineRules algorithm second (algorithm.combine sofar value) rest :=
      fun value => ih h.of_append.2 _
    simp only [combineRules, Rule.evaluate_eq_of_agreeOn h.of_append.1, hrest]

/-- A target policy has the same outcome for requests that agree on the bags that its rules
mention. -/
theorem outcome_eq_of_agreeOn {target : TargetPolicy}
    (h : Attributes.AgreeOn target.bags first second) :
    target.outcome first = target.outcome second := by
  rw [outcome, outcome, combineRules_eq_of_agreeOn h]

/-- A target policy has the same result, with the same reports and calls, for requests that agree on
the bags that its rules mention. -/
theorem evaluate_eq_of_agreeOn {target : TargetPolicy}
    (h : Attributes.AgreeOn target.bags first second) :
    target.evaluate first = target.evaluate second := by
  simp only [evaluate, outcome_eq_of_agreeOn h]

end TargetPolicy

namespace Policy

/-- Requests that agree on the bags of a policy agree on those of each target policy. -/
theorem agreeOn_of_mem_values {policy : Policy} (h : Attributes.AgreeOn policy.bags first second)
    {target : TargetPolicy} (hmem : target ∈ policy.targets.values) :
    Attributes.AgreeOn target.bags first second :=
  fun bag hbag => h bag (List.mem_flatMap.mpr ⟨target, hmem, hbag⟩)

/-- For requests with the same content of the bags that the rules of a policy mention, the decision
is the same, with the same reports and calls, and every target policy has the same outcome: the same
result, or the same error. -/
theorem decide_eq_of_agreeOn {policy : Policy} (h : Attributes.AgreeOn policy.bags first second) :
    policy.decide first = policy.decide second ∧
      ∀ name target, policy.targets.get? name = some target →
        target.outcome first = target.outcome second := by
  constructor
  · have hruns : policy.targets.mapValues (fun target => target.evaluate first) =
        policy.targets.mapValues (fun target => target.evaluate second) :=
      NameMap.mapValues_congr (fun target hmem =>
        TargetPolicy.evaluate_eq_of_agreeOn (agreeOn_of_mem_values h hmem))
    rw [decide, decide, hruns]
  · exact fun name target htarget => TargetPolicy.outcome_eq_of_agreeOn
      (agreeOn_of_mem_values h (NameMap.mem_values_of_get? htarget))

/-- A bag in a position counts as mentioned and a field with the name of a bag does not, so that the
user makes no difference. -/
theorem decide_eq_of_agreeOn_field :
    let target : TargetPolicy :=
      .compile ⟨["resource.user[env.place + 1] == 'x'"], .all, .permit⟩ NameMap.empty true
    let policy : Policy := ⟨.parse "data.a", NameMap.empty.insert "a" target, true⟩
    let first : Attributes :=
      { user := .string "someone"
        environment := .object [("place", Json.ofNat 0)]
        resource := .object [("user", .array [.null, .string "x"])] }
    let second := { first with user := .null }
    policy.bags = [.resource, .environment] ∧ first ≠ second ∧
      Attributes.AgreeOn policy.bags first second ∧ policy.check first = true ∧
      policy.decide first = policy.decide second ∧
      target.outcome first = target.outcome second := by
  intro target policy first second
  have hbags : policy.bags = [.resource, .environment] := by decide +kernel
  have hagree : Attributes.AgreeOn policy.bags first second := by
    rw [hbags]
    decide +kernel
  obtain ⟨hdecide, houtcome⟩ := decide_eq_of_agreeOn hagree
  exact ⟨hbags, by decide +kernel, hagree, by decide +kernel, hdecide,
    houtcome "a" target (by rfl)⟩

end Policy

end AccessControl
