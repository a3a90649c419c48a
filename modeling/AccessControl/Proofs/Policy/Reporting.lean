import AccessControl.Proofs.Policy.Outcome

/-!
# What is reported with a decision

Policies are assembled from groups and single target policies by merging, and reports of problems
are switched on or off at every step. A target policy keeps the switch that it was compiled with,
and a merged policy has that of its first part. With a decision the failing target policies that
report are listed in ascending order of their names, each with the error of its first failing rule,
and behind them, if the policy reports, the names without a target policy and what is wrong with the
expression. The decision itself is the same for every setting of the switches.
-/

namespace AccessControl

/-- How grave an event is, and the first of the texts that it carries: of a failing rule its text,
of an unknown target policy its name, of an expression that cannot be read its text. -/
def Event.headline (event : Event) : Level × String :=
  (event.level, ((event.fields.map Prod.snd).head?).getD "")

namespace TargetPolicy

/-- The error that is reported for a request, if the target policy fails and reports. -/
def reported? (target : TargetPolicy) (attributes : Attributes) : Option RuleError :=
  if target.logging then
    match (target.outcome attributes).outcome with
    | .error cause => some cause
    | .ok _ => none
  else none

/-- What is reported is the error of the first rule that fails, by a target policy that reports. -/
theorem reported?_eq_some_iff {target : TargetPolicy} {attributes : Attributes}
    {cause : RuleError} :
    target.reported? attributes = some cause ↔
      target.logging = true ∧ FirstFailure attributes target.rules cause := by
  rw [← outcome_eq_error_iff, reported?]
  cases target.logging with
  | false => simp
  | true => cases (target.outcome attributes).outcome <;> simp

/-- The events of a target policy are its report. -/
theorem events_evaluate (target : TargetPolicy) (attributes : Attributes) :
    (target.evaluate attributes).events =
      (target.reported? attributes).toList.map Event.failedRule := by
  rw [evaluate, reported?]
  cases (target.outcome attributes).outcome with
  | ok decision => cases target.logging <;> rfl
  | error cause => cases target.logging <;> rfl

/-- What a target policy is compiled from. -/
structure Declaration where
  /-- The rules with their algorithm and effect. -/
  spec : TargetSpec
  /-- The registry that the rules are compiled over. -/
  registry : Registry
  /-- Whether a failing rule is reported. -/
  logging : Bool

namespace Declaration

/-- The target policy. -/
def target (declaration : Declaration) : TargetPolicy :=
  .compile declaration.spec declaration.registry declaration.logging

/-- The declaration with its reports switched off. -/
def silenced (declaration : Declaration) : Declaration := { declaration with logging := false }

/-- Without its reports a target policy decides as it does with them. -/
theorem value_evaluate_silenced (declaration : Declaration) (attributes : Attributes) :
    (declaration.silenced.target.evaluate attributes).value =
      (declaration.target.evaluate attributes).value := by
  have houtcome : declaration.silenced.target.outcome attributes =
      declaration.target.outcome attributes := rfl
  rw [evaluate, evaluate, houtcome]
  cases (declaration.target.outcome attributes).outcome <;> rfl

end Declaration

end TargetPolicy

/-- How a policy is put together. -/
inductive Assembly where
  /-- A group is compiled. -/
  | group (spec : GroupSpec) (registry : Registry) (logging : Bool)
  /-- A single target policy is compiled under a name. -/
  | single (name : String) (spec : TargetSpec) (registry : Registry) (logging : Bool)
  /-- Two policies are merged. -/
  | merge (left : Assembly) (connective : Connective) (right : Assembly)
  /-- Reports about the expression are switched on or off. -/
  | withLogging (assembly : Assembly) (logging : Bool)

namespace Assembly

/-- The policy. -/
def policy : Assembly → Policy
  | .group spec registry logging => .group spec registry logging
  | .single name spec registry logging => .single name spec registry logging
  | .merge left connective right => left.policy.merge connective right.policy
  | .withLogging assembly logging => assembly.policy.withLogging logging

/-- Whether problems with the expression are reported: up to the first part, unless it is set. -/
def reporting : Assembly → Bool
  | .group _ _ logging => logging
  | .single _ _ _ logging => logging
  | .merge left _ _ => left.reporting
  | .withLogging _ logging => logging

/-- The declared target policies by name, in the order of the parts. -/
def declarations : Assembly → List (String × TargetPolicy.Declaration)
  | .group spec registry logging =>
    spec.targets.entries.map (fun entry => (entry.1, ⟨entry.2, registry, logging⟩))
  | .single name spec registry logging => [(name, ⟨spec, registry, logging⟩)]
  | .merge left _ right => left.declarations ++ right.declarations
  | .withLogging assembly _ => assembly.declarations

/-- What a name is declared as: the last declaration counts. -/
def declared? (assembly : Assembly) (name : String) : Option TargetPolicy.Declaration :=
  NameMap.find name assembly.declarations.reverse

/-- Whether the expression refers to a name. -/
def Refers (assembly : Assembly) (name : String) : Prop :=
  ∃ tree, assembly.policy.expression.tree = .ok tree ∧ name ∈ tree.names

/-- The assembly with all reports switched off. -/
def silenced : Assembly → Assembly
  | .group spec registry _ => .group spec registry false
  | .single name spec registry _ => .single name spec registry false
  | .merge left connective right => .merge left.silenced connective right.silenced
  | .withLogging assembly _ => assembly.silenced

/-- Whether problems with the expression are reported is up to the first part. -/
theorem logging_policy (assembly : Assembly) : assembly.policy.logging = assembly.reporting := by
  induction assembly with
  | group => rfl
  | single => rfl
  | merge left connective right ihleft _ => exact ihleft
  | withLogging => rfl

/-- A name has the target policy of its last declaration. -/
theorem get?_targets_policy (assembly : Assembly) (name : String) :
    assembly.policy.targets.get? name =
      (assembly.declared? name).map TargetPolicy.Declaration.target := by
  induction assembly with
  | group spec registry logging =>
    have htargets : (group spec registry logging).policy.targets =
        spec.targets.mapValues (fun target => .compile target registry logging) := rfl
    rw [htargets, NameMap.get?_mapValues, declared?, declarations, ← List.map_reverse,
      NameMap.find_map (fun target => (⟨target, registry, logging⟩ : TargetPolicy.Declaration)),
      NameMap.find_reverse spec.targets.ascending, Option.map_map]
    rfl
  | single declaredName spec registry logging =>
    have htargets : (single declaredName spec registry logging).policy.targets =
        NameMap.empty.insert declaredName (.compile spec registry logging) := rfl
    rw [htargets, NameMap.get?_insert, declared?, declarations, List.reverse_singleton,
      NameMap.find]
    split <;> rfl
  | merge left connective right ihleft ihright =>
    have htargets : (merge left connective right).policy.targets =
        left.policy.targets.union right.policy.targets := rfl
    rw [htargets, NameMap.get?_union, ihleft, ihright, declared?, declared?, declared?,
      declarations, List.reverse_append, NameMap.find_append, Option.map_or]
  | withLogging assembly logging ih => exact ih

/-- Switching reports off leaves the expression. -/
theorem expression_silenced (assembly : Assembly) :
    assembly.silenced.policy.expression = assembly.policy.expression := by
  induction assembly with
  | group => rfl
  | single => rfl
  | merge left connective right ihleft ihright =>
    exact congrArg₂ (fun first second => first.concat connective second) ihleft ihright
  | withLogging assembly logging ih => exact ih

/-- Switching reports off does so in every declaration. -/
theorem declarations_silenced (assembly : Assembly) :
    assembly.silenced.declarations =
      assembly.declarations.map (fun entry => (entry.1, entry.2.silenced)) := by
  induction assembly with
  | group spec registry logging =>
    rw [silenced, declarations, declarations, List.map_map]
    rfl
  | single => rfl
  | merge left connective right ihleft ihright =>
    rw [silenced, declarations, declarations, ihleft, ihright, List.map_append]
  | withLogging assembly logging ih => exact ih

/-- Switching reports off leaves the results of the target policies. -/
theorem results_silenced (assembly : Assembly) (attributes : Attributes) :
    assembly.silenced.policy.results attributes = assembly.policy.results attributes := by
  refine NameMap.ext_get? fun name => ?_
  have hdeclared : assembly.silenced.declared? name =
      (assembly.declared? name).map TargetPolicy.Declaration.silenced := by
    rw [declared?, declarations_silenced, ← List.map_reverse, NameMap.find_map]
    rfl
  rw [Policy.results, Policy.results, NameMap.get?_mapValues, NameMap.get?_mapValues,
    get?_targets_policy, get?_targets_policy, hdeclared]
  simp only [Option.map_map, Function.comp_def,
    TargetPolicy.Declaration.value_evaluate_silenced]

/-- Switching reports off leaves the decision. -/
theorem value_decide_silenced (assembly : Assembly) (attributes : Attributes) :
    (assembly.silenced.policy.decide attributes).value =
      (assembly.policy.decide attributes).value := by
  rw [Policy.decide_value, Policy.decide_value, results_silenced, Policy.conclude, Policy.conclude,
    expression_silenced]

/-- The references of the expression are those that it refers to. -/
theorem mem_references_iff {assembly : Assembly} {name : String} :
    name ∈ assembly.policy.expression.references ↔ assembly.Refers name := by
  cases htree : assembly.policy.expression.tree with
  | error cause => simp [Expression.references, Refers, htree]
  | ok tree =>
    rw [Expression.mem_references_iff htree, Refers]
    simp only [htree, Except.ok.injEq, exists_eq_left']

/-- What goes wrong with an assembled policy for a request: failing target policies by name, each
with an error, and names. -/
structure Accounts (assembly : Assembly) (attributes : Attributes)
    (failures : List (String × RuleError)) (unknown : List String) : Prop where
  /-- The failing target policies are in ascending order, no name twice. -/
  failures_ascending : failures.Pairwise (fun first second => first.1 < second.1)
  /-- They are those that report, and their errors are those of their first failing rules. -/
  mem_failures : ∀ name cause, (name, cause) ∈ failures ↔
    ∃ declaration, assembly.declared? name = some declaration ∧ declaration.logging = true ∧
      TargetPolicy.FirstFailure attributes declaration.target.rules cause
  /-- The names are in ascending order, none twice. -/
  unknown_ascending : unknown.Pairwise (· < ·)
  /-- They are those that the expression refers to and that are not declared. -/
  mem_unknown : ∀ name, name ∈ unknown ↔
    assembly.Refers name ∧ assembly.declared? name = none

/-- The failing target policies of an assembled policy that report, by name. -/
def failures (assembly : Assembly) (attributes : Attributes) : List (String × RuleError) :=
  assembly.policy.targets.entries.filterMap (fun entry =>
    (entry.2.reported? attributes).map (fun cause => (entry.1, cause)))

/-- The names are those of the failing target policies that report, and the others are those that
are referred to and not declared. -/
theorem accounts (assembly : Assembly) (attributes : Attributes) :
    assembly.Accounts attributes (assembly.failures attributes)
      assembly.policy.unknownReferences where
  failures_ascending := by
    refine List.pairwise_filterMap.mpr (assembly.policy.targets.ascending.imp ?_)
    intro first second hlt failure hfailure other hother
    obtain ⟨cause, -, rfl⟩ := Option.map_eq_some_iff.mp hfailure
    obtain ⟨cause', -, rfl⟩ := Option.map_eq_some_iff.mp hother
    exact hlt
  mem_failures := by
    intro name cause
    constructor
    · intro hmem
      obtain ⟨⟨other, target⟩, hentry, hreported⟩ := List.mem_filterMap.mp hmem
      obtain ⟨cause', hcause, heq⟩ := Option.map_eq_some_iff.mp hreported
      cases heq
      rw [← NameMap.get?_eq_some_iff, get?_targets_policy] at hentry
      obtain ⟨declaration, hdeclared, rfl⟩ := Option.map_eq_some_iff.mp hentry
      exact ⟨declaration, hdeclared, TargetPolicy.reported?_eq_some_iff.mp hcause⟩
    · rintro ⟨declaration, hdeclared, hreported⟩
      refine List.mem_filterMap.mpr ⟨(name, declaration.target), ?_, ?_⟩
      · rw [← NameMap.get?_eq_some_iff, get?_targets_policy, hdeclared, Option.map_some]
      · exact Option.map_eq_some_iff.mpr
          ⟨cause, TargetPolicy.reported?_eq_some_iff.mpr hreported, rfl⟩
  unknown_ascending := by
    refine List.Pairwise.filter _ ?_
    rw [Expression.references]
    cases assembly.policy.expression.tree with
    | error cause => exact List.Pairwise.nil
    | ok tree => exact NameMap.pairwise_names _
  mem_unknown := by
    intro name
    have hdeclared : (!assembly.policy.targets.contains name) = true ↔
        assembly.declared? name = none := by
      rw [NameMap.contains, get?_targets_policy, Option.isSome_map, Bool.not_eq_true',
        Option.isSome_eq_false_iff, Option.isNone_iff_eq_none]
    rw [Policy.unknownReferences, List.mem_filter, hdeclared, mem_references_iff]

/-- The events of an assembled policy: the errors of the failing target policies that report, and,
if the policy reports, the unknown names and why the expression cannot be read. -/
theorem events_decide (assembly : Assembly) (attributes : Attributes) :
    (assembly.policy.decide attributes).events =
      (assembly.failures attributes).map (fun failure => .failedRule failure.2) ++
        if assembly.reporting then
          assembly.policy.unknownReferences.map
              (fun name => .unknownTarget name assembly.policy.expression.text) ++
            assembly.policy.expression.error?.toList.map
              (fun cause => .malformedExpression assembly.policy.expression.text cause)
        else [] := by
  have hfailures : (assembly.failures attributes).map (fun failure => Event.failedRule failure.2) =
      assembly.policy.targets.values.flatMap
        (fun target => (target.evaluate attributes).events) := by
    rw [failures, List.map_filterMap, List.filterMap_eq_flatMap_toList, NameMap.values,
      List.flatMap_map]
    refine List.flatMap_congr fun entry _ => ?_
    rw [TargetPolicy.events_evaluate, Option.map_map]
    cases entry.2.reported? attributes <;> rfl
  rw [hfailures, Policy.decide, NameMap.values_mapValues, List.flatMap_map]
  dsimp only
  rw [Policy.expressionEvents, logging_policy]

/-- What is reported with a decision, for every assembled policy and request: for each target policy
that fails and was compiled to report, in ascending order of the names, one error with the text of
its first failing rule; then, if the policy reports, which is up to its first part unless it is set,
for each name that the expression refers to and that is not declared, in ascending order, one
warning; and then, if the expression cannot be read, one error. The decision is the one that is made
with all reports switched off. -/
theorem decide_reports (assembly : Assembly) (attributes : Attributes) :
    (∃ failures unknown, assembly.Accounts attributes failures unknown ∧
      (assembly.policy.decide attributes).events =
        (failures.map (fun failure => .failedRule failure.2) ++
          if assembly.reporting then
            unknown.map (fun name => .unknownTarget name assembly.policy.expression.text) ++
              assembly.policy.expression.error?.toList.map
                (fun cause => .malformedExpression assembly.policy.expression.text cause)
          else []) ∧
      (assembly.policy.decide attributes).events.map Event.headline =
        (failures.map (fun failure => (.error, failure.2.rule)) ++
          if assembly.reporting then
            unknown.map (fun name => (.warning, name)) ++
              if assembly.policy.expression.malformed then
                [(.error, assembly.policy.expression.text)]
              else []
          else [])) ∧
      (assembly.policy.decide attributes).value =
        (assembly.silenced.policy.decide attributes).value := by
  refine ⟨⟨_, _, assembly.accounts attributes, assembly.events_decide attributes, ?_⟩,
    (assembly.value_decide_silenced attributes).symm⟩
  have hmalformed : (assembly.policy.expression.error?.toList.map
      (fun cause => Event.malformedExpression assembly.policy.expression.text cause)).map
        Event.headline =
      if assembly.policy.expression.malformed then [(.error, assembly.policy.expression.text)]
      else [] := by
    rw [Expression.malformed]
    cases assembly.policy.expression.error? <;> rfl
  rw [assembly.events_decide attributes, List.map_append, List.map_map]
  refine congrArg₂ (· ++ ·) rfl ?_
  cases assembly.reporting with
  | false => rfl
  | true =>
    rw [if_pos rfl, if_pos rfl, List.map_append, List.map_map, hmalformed]
    rfl

end Assembly

end AccessControl
