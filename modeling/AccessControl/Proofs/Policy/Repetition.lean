import AccessControl.Proofs.Policy.Outcome

/-!
# Order and repetition of rules

Which rule of a target policy fails first depends on their order, but not whether any of them fails.
Where none does, the decision follows from whether all of the rules hold or whether one of them
does. So the rules of a target policy can be put in another order and repeated without any effect on
its decisions, failing rules included. Only the error that is reported may be another one.
-/

namespace AccessControl

/-- Whether a rule has the truth value true for a request. -/
def Rule.Holds (rule : Rule) (attributes : Attributes) : Prop :=
  (rule.evaluate attributes).outcome = .ok true

variable {attributes : Attributes}

namespace Algorithm

/-- Whether an algorithm is satisfied with rules: all of them hold, or one of them does. -/
def Satisfied (attributes : Attributes) (rules : List Rule) : Algorithm → Prop
  | .all => ∀ rule ∈ rules, rule.Holds attributes
  | .any => ∃ rule ∈ rules, rule.Holds attributes

end Algorithm

namespace TargetPolicy

variable {rules : List Rule} {values : List Bool}

/-- The truth values of a list of rules are those of its members. -/
theorem HaveValues.mem_iff (h : HaveValues attributes rules values) (value : Bool) :
    value ∈ values ↔ ∃ rule ∈ rules, (rule.evaluate attributes).outcome = .ok value := by
  have hmem : Except.ok value ∈ rules.map (fun rule => (rule.evaluate attributes).outcome) ↔
      value ∈ values := by
    rw [h]
    exact List.mem_map_of_injective (fun _ _ => Except.ok.inj)
  rw [← hmem, List.mem_map]

/-- Where all rules have truth values, these are combined to true if the algorithm is satisfied. -/
theorem HaveValues.verdict_iff (h : HaveValues attributes rules values) (algorithm : Algorithm) :
    algorithm.verdict values = true ↔ algorithm.Satisfied attributes rules := by
  cases algorithm with
  | any =>
    rw [Algorithm.verdict, List.any_eq_true]
    simp only [id, exists_eq_right, h.mem_iff true]
    rfl
  | all =>
    rw [Algorithm.verdict, List.all_eq_true]
    constructor
    · intro hall rule hrule
      cases hvalue : (rule.evaluate attributes).outcome with
      | error cause => exact absurd ⟨cause, hvalue⟩ (not_fails_of_values h rule hrule)
      | ok value =>
        have htrue : value = true := hall value ((h.mem_iff value).mpr ⟨rule, hrule, hvalue⟩)
        rw [Rule.Holds, hvalue, htrue]
    · intro hall value hmem
      obtain ⟨rule, hrule, hvalue⟩ := (h.mem_iff value).mp hmem
      exact Except.ok.inj (hvalue.symm.trans (hall rule hrule))

/-- A target policy has a decision just where none of its rules fails. The decision is what its
effect makes of true if the algorithm is satisfied with the rules, and otherwise the opposite. -/
theorem outcome_eq_ok_iff {target : TargetPolicy} {decision : Bool} :
    (target.outcome attributes).outcome = .ok decision ↔
      (∀ rule ∈ target.rules, ¬rule.Fails attributes) ∧
        (target.algorithm.Satisfied attributes target.rules ↔
          decision = target.effect.apply true) := by
  rcases exists_values_or_firstFailure attributes target.rules with ⟨values, hvalues⟩ | hfailure
  · have happly : ∀ value, target.effect.apply value = decision ↔
        (value = true ↔ decision = target.effect.apply true) := by
      cases target.effect <;> cases decision <;> decide
    rw [outcome_of_values hvalues, Except.ok.injEq, happly, hvalues.verdict_iff]
    exact (and_iff_right (not_fails_of_values hvalues)).symm
  · obtain ⟨rule, hrule, hfails⟩ := exists_firstFailure_iff.mp hfailure
    obtain ⟨cause, hcause⟩ := hfailure
    rw [outcome_of_firstFailure hcause]
    exact iff_of_false (fun h => by cases h) (fun h => h.1 rule hrule hfails)

/-- A target policy grants just where its outcome is that it does. -/
theorem value_evaluate_eq_true_iff {target : TargetPolicy} :
    (target.evaluate attributes).value = true ↔ (target.outcome attributes).outcome = .ok true := by
  rw [evaluate]
  cases (target.outcome attributes).outcome with
  | error cause => exact iff_of_false Bool.false_ne_true (fun h => by cases h)
  | ok decision => exact Except.ok.injEq decision true ▸ Iff.rfl

/-- Target policies with the same rules, algorithm and effect have the same decisions, where they
have any. -/
theorem outcome_eq_ok_congr {first second : TargetPolicy}
    (hrules : ∀ rule, rule ∈ first.rules ↔ rule ∈ second.rules)
    (halgorithm : first.algorithm = second.algorithm) (heffect : first.effect = second.effect)
    (decision : Bool) :
    (first.outcome attributes).outcome = .ok decision ↔
      (second.outcome attributes).outcome = .ok decision := by
  have hsatisfied : second.algorithm.Satisfied attributes first.rules ↔
      second.algorithm.Satisfied attributes second.rules := by
    cases second.algorithm <;> simp only [Algorithm.Satisfied, hrules]
  rw [outcome_eq_ok_iff, outcome_eq_ok_iff, halgorithm, heffect, hsatisfied]
  simp only [hrules]

/-- Two lists in which the same rule texts occur, in whatever order and however often, make target
policies with the same decisions, by every algorithm, with every effect, over every registry and for
every request: the one grants where the other grants, and the one has an outcome without an error
where the other has the same. -/
theorem decision_of_same_sources {sources others : List String}
    (h : ∀ source, source ∈ sources ↔ source ∈ others) (algorithm : Algorithm) (effect : Effect)
    (registry : Registry) (logging logging' : Bool) (attributes : Attributes) :
    ((compile ⟨sources, algorithm, effect⟩ registry logging).evaluate attributes).value =
        ((compile ⟨others, algorithm, effect⟩ registry logging').evaluate attributes).value ∧
      ∀ decision,
        ((compile ⟨sources, algorithm, effect⟩ registry logging).outcome attributes).outcome =
            .ok decision ↔
          ((compile ⟨others, algorithm, effect⟩ registry logging').outcome attributes).outcome =
            .ok decision := by
  have hrules : ∀ rule,
      rule ∈ (compile ⟨sources, algorithm, effect⟩ registry logging).rules ↔
        rule ∈ (compile ⟨others, algorithm, effect⟩ registry logging').rules := by
    intro rule
    simp only [compile, List.mem_map, h]
  refine ⟨Bool.eq_iff_iff.mpr ?_, outcome_eq_ok_congr hrules rfl rfl⟩
  rw [value_evaluate_eq_true_iff, value_evaluate_eq_true_iff]
  exact outcome_eq_ok_congr hrules rfl rfl true

/-- The rules in another order, one of them three times: another rule is the first that fails, and
access is denied under the effect that turns around what the rules say. -/
theorem decision_of_same_sources_reordered :
    let sources := ["user.age > 18", "garbage", "user.name == 'x'"]
    let others := ["user.name == 'x'", "user.age > 18", "user.age > 18", "garbage",
      "user.age > 18"]
    let attributes : Attributes := { user := .object [("age", Json.ofNat 17)] }
    (∀ source, source ∈ sources ↔ source ∈ others) ∧
      ((compile ⟨sources, .all, .deny⟩ .empty true).outcome attributes).outcome =
        .error (.uncompiled "garbage" .missingOperator) ∧
      ((compile ⟨others, .all, .deny⟩ .empty true).outcome attributes).outcome =
        .error (.faulted "user.name == 'x'" (.missingField "name")) ∧
      ((compile ⟨sources, .all, .deny⟩ .empty true).evaluate attributes).value = false ∧
      ((compile ⟨others, .all, .deny⟩ .empty true).evaluate attributes).value = false := by
  intro sources others attributes
  have hsame : ∀ source, source ∈ sources ↔ source ∈ others := by
    intro source
    simp only [sources, others, List.mem_cons, List.not_mem_nil, or_false]
    grind
  have hvalue : ((compile ⟨sources, .all, .deny⟩ .empty true).evaluate attributes).value =
      false := by decide +kernel
  exact ⟨hsame, by decide +kernel, by decide +kernel, hvalue,
    (decision_of_same_sources hsame .all .deny .empty true true attributes).1.symm.trans hvalue⟩

end TargetPolicy

end AccessControl
