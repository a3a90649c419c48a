import AccessControl.Config
import AccessControl.Proofs.Policy.Decision

/-!
# Compilation of policies

Compiling a declaration compiles the texts of its rules, one by one, over one registry. Whether a
text becomes a rule is up to the text alone, and so a policy is free of defects, or is not, whatever
the registry holds. A policy without defects is never reported for one: its rules fail at most on a
request, and its expression has a truth value over the results of its own target policies.
-/

namespace AccessControl

/-- The rules of a policy, target policy by target policy. -/
def Policy.rules (policy : Policy) : List Rule :=
  policy.targets.values.flatMap TargetPolicy.rules

/-- The texts of the rules of a declaration, target policy by target policy. -/
def PolicySpec.sources : PolicySpec → List String
  | .group spec => spec.targets.values.flatMap TargetSpec.rules
  | .single spec => spec.rules

/-- The texts of the rules of a configuration, policy by policy. -/
def Config.sources (config : Config) : List String :=
  config.policies.values.flatMap PolicySpec.sources

/-- The rules of a policy are the texts of its declaration, compiled over the registry. -/
theorem Policy.rules_ofSpec (name : String) (spec : PolicySpec) (registry : Registry)
    (logging : Bool) :
    (ofSpec name spec registry logging).rules =
      spec.sources.map (fun source => Rule.compile source registry) := by
  cases spec with
  | single spec => exact List.append_nil _
  | group spec =>
    rw [PolicySpec.sources, List.map_flatMap, rules, ofSpec, group, NameMap.values_mapValues,
      List.flatMap_map]
    rfl

/-- The rules of a configuration are its texts, compiled over the registry with the values of the
configuration in it. -/
theorem Config.rules_compile (config : Config) (start : Registry) :
    (config.compile start).values.flatMap Policy.rules =
      config.sources.map (fun source => Rule.compile source (config.registry start)) := by
  rw [sources, List.map_flatMap, compile, NameMap.mapEntries, NameMap.values, NameMap.values,
    List.map_map, List.flatMap_map, List.flatMap_map]
  simp only [Function.comp_apply, Policy.rules_ofSpec]

/-- A text becomes a rule just where it states a comparison, over any registry. -/
theorem Rule.isCompiled_compile {source : String} {registry : Registry} :
    (compile source registry).isCompiled = true ↔
      ∃ comparison, Comparison.parse source = .ok comparison := by
  rw [compile, isCompiled, syntaxError?]
  cases Comparison.parse source with
  | error cause => simp
  | ok comparison => simp

/-- A compiled rule does not fail for its text. -/
theorem Rule.outcome_ne_uncompiled {rule : Rule} (h : rule.isCompiled = true)
    (attributes : Attributes) (source : String) (cause : SyntaxError) :
    (rule.evaluate attributes).outcome ≠ .error (.uncompiled source cause) := by
  rw [isCompiled, syntaxError?] at h
  rw [evaluate]
  cases hcompiled : rule.compiled with
  | error other =>
    rw [hcompiled] at h
    cases h
  | ok bound =>
    obtain ⟨comparison, scope⟩ := bound
    simp only [Traced.mapError]
    cases (comparison.evaluate scope attributes).outcome with
    | error fault => exact fun heq => RuleError.noConfusion (Except.error.inj heq)
    | ok value =>
      intro heq
      cases heq

namespace TargetPolicy

/-- Compiled rules have no error for a text of theirs, whatever the value so far. -/
theorem combineRules_ne_uncompiled {attributes : Attributes} {rules : List Rule}
    (h : ∀ rule ∈ rules, rule.isCompiled = true) (algorithm : Algorithm) (sofar : Bool)
    (source : String) (cause : SyntaxError) :
    (combineRules algorithm attributes sofar rules).outcome ≠
      .error (.uncompiled source cause) := by
  induction rules generalizing sofar with
  | nil =>
    intro heq
    cases heq
  | cons rule rest ih =>
    obtain ⟨hrule, hrest⟩ := List.forall_mem_cons.mp h
    rw [combineRules, Traced.outcome_andThen]
    cases houtcome : (rule.evaluate attributes).outcome with
    | error other =>
      intro heq
      cases heq
      exact rule.outcome_ne_uncompiled hrule attributes source cause houtcome
    | ok value => exact ih hrest _

/-- A target policy of compiled rules has no error for a text of theirs. -/
theorem outcome_ne_uncompiled {target : TargetPolicy}
    (h : ∀ rule ∈ target.rules, rule.isCompiled = true) (attributes : Attributes)
    (source : String) (cause : SyntaxError) :
    (target.outcome attributes).outcome ≠ .error (.uncompiled source cause) := by
  rw [outcome, Traced.outcome_andThen]
  cases houtcome : (combineRules target.algorithm attributes target.algorithm.start
      target.rules).outcome with
  | error other =>
    intro heq
    cases heq
    exact combineRules_ne_uncompiled h _ _ source cause houtcome
  | ok combined =>
    intro heq
    cases heq

/-- What a target policy reports is the error of its outcome. -/
theorem mem_events_evaluate {target : TargetPolicy} {attributes : Attributes} {event : Event}
    (h : event ∈ (target.evaluate attributes).events) :
    ∃ cause, event = .failedRule cause ∧ (target.outcome attributes).outcome = .error cause := by
  rw [evaluate] at h
  cases houtcome : (target.outcome attributes).outcome with
  | ok decision =>
    simp only [houtcome, List.not_mem_nil] at h
  | error cause =>
    simp only [houtcome] at h
    split at h
    · exact ⟨cause, List.mem_singleton.mp h, rfl⟩
    · cases h

end TargetPolicy

namespace Policy

/-- A policy without defects: its rules are compiled, its expression can be read, and the names that
the expression refers to are those of target policies. -/
structure Sound (policy : Policy) : Prop where
  /-- All rules are compiled. -/
  rules : ∀ rule ∈ policy.rules, rule.isCompiled = true
  /-- The expression can be read. -/
  expression : policy.expression.malformed = false
  /-- The references are to target policies. -/
  references : ∀ name ∈ policy.expression.references, policy.targets.contains name = true

namespace Sound

variable {policy : Policy}

/-- No target policy fails for the text of a rule. -/
theorem outcome_ne_uncompiled (h : policy.Sound) {target : TargetPolicy}
    (htarget : target ∈ policy.targets.values) (attributes : Attributes) (source : String)
    (cause : SyntaxError) :
    (target.outcome attributes).outcome ≠ .error (.uncompiled source cause) :=
  target.outcome_ne_uncompiled
    (fun rule hrule => h.rules rule (List.mem_flatMap.mpr ⟨target, htarget, hrule⟩))
    attributes source cause

/-- The expression refers to nothing unknown. -/
theorem unknownReferences_eq_nil (h : policy.Sound) : policy.unknownReferences = [] := by
  rw [unknownReferences, List.filter_eq_nil_iff]
  intro name hname
  rw [h.references name hname]
  decide

/-- Nothing is reported about the expression. -/
theorem expressionEvents_eq_nil (h : policy.Sound) : policy.expressionEvents = [] := by
  have herror : policy.expression.error? = none := by
    rw [← Option.isNone_iff_eq_none, ← Option.not_isSome, ← Expression.malformed, h.expression]
    rfl
  simp only [expressionEvents, h.unknownReferences_eq_nil, herror, List.map_nil,
    Option.toList_none, List.append_nil, ite_self]

/-- Whatever is reported with a decision is that a rule faulted on the request. -/
theorem events_decide (h : policy.Sound) {attributes : Attributes} {event : Event}
    (hevent : event ∈ (policy.decide attributes).events) :
    ∃ source fault, event = .failedRule (.faulted source fault) := by
  rw [decide, h.expressionEvents_eq_nil] at hevent
  simp only [NameMap.values_mapValues, List.append_nil, List.mem_flatMap, List.mem_map] at hevent
  obtain ⟨_, ⟨target, htarget, rfl⟩, hmem⟩ := hevent
  obtain ⟨cause, rfl, houtcome⟩ := target.mem_events_evaluate hmem
  cases cause with
  | faulted source fault => exact ⟨source, fault, rfl⟩
  | uncompiled source cause =>
    exact absurd houtcome (h.outcome_ne_uncompiled htarget attributes source cause)

/-- The decision is the truth value of the expression over the results of the target policies. -/
theorem exists_decision (h : policy.Sound) (attributes : Attributes) :
    ∃ tree, policy.expression.tree = .ok tree ∧
      (policy.decide attributes).value =
        let results := policy.results attributes
        let allowed := tree.holds results
        ⟨allowed, results,
          s!"Expression '{policy.expression.text}' evaluated to {truthWord allowed} " ++
            s!"({results.values.countP id} of {results.size} target policies true)"⟩ := by
  obtain ⟨tree, htree⟩ := Expression.malformed_eq_false_iff.mp h.expression
  refine ⟨tree, htree, ?_⟩
  rw [decide_value, conclude, Expression.evaluate, htree]
  rfl

end Sound

end Policy

end AccessControl
