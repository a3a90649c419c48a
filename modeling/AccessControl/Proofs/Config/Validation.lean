import AccessControl.Proofs.Policy.Compilation

/-!
# Validation of configurations

A configuration is checked against an empty registry, and its policies are compiled over whatever
registry the host has. The check passes just where the injected names will do and all compiled
policies are without defects, so that no request brings a defect to light that the check has let
pass.
-/

namespace AccessControl

/-- A target policy passes just where all its texts state comparisons. -/
theorem PolicyFault.ofTarget?_eq_none_iff {spec : TargetSpec} :
    ofTarget? spec = none ↔
      ∀ source ∈ spec.rules, ∃ comparison, Comparison.parse source = .ok comparison := by
  rw [ofTarget?, List.findSome?_eq_none_iff]
  refine forall₂_congr fun source _ => ?_
  rw [Option.map_eq_none_iff, ← Option.isNone_iff_eq_none, ← Rule.isCompiled,
    Rule.isCompiled_compile]

/-- The expression of a group passes just where it can be read and refers to target policies of the
group. -/
theorem PolicyFault.ofExpression?_eq_none_iff {spec : GroupSpec} :
    ofExpression? spec = none ↔ (Expression.parse spec.expression).malformed = false ∧
      ∀ name ∈ (Expression.parse spec.expression).references,
        spec.targets.contains name = true := by
  simp only [ofExpression?, Expression.malformed]
  cases (Expression.parse spec.expression).error? with
  | some cause => simp
  | none => simp [List.find?_eq_none]

namespace ConfigFault

/-- A policy passes just where it is without defects once it is compiled, over any registry. -/
theorem ofPolicy?_eq_none_iff {path name : String} {spec : PolicySpec} {registry : Registry}
    {logging : Bool} :
    ofPolicy? path spec = none ↔ (Policy.ofSpec name spec registry logging).Sound := by
  have hrules : (∀ rule ∈ (Policy.ofSpec name spec registry logging).rules,
      rule.isCompiled = true) ↔
      ∀ source ∈ spec.sources, ∃ comparison, Comparison.parse source = .ok comparison := by
    rw [Policy.rules_ofSpec, List.forall_mem_map]
    exact forall₂_congr fun source _ => Rule.isCompiled_compile
  cases spec with
  | single spec =>
    rw [ofPolicy?, Option.map_eq_none_iff, PolicyFault.ofTarget?_eq_none_iff]
    refine ⟨fun h => ⟨hrules.mpr h, rfl, ?_⟩, fun h => hrules.mp h.rules⟩
    intro reference hreference
    have hname : reference = name := List.mem_singleton.mp hreference
    rw [hname, Policy.ofSpec, Policy.single, NameMap.contains, NameMap.get?_insert, if_pos rfl]
    rfl
  | group spec =>
    have htargets : (∀ entry ∈ spec.targets.entries, (PolicyFault.ofTarget? entry.2).map
        (ConfigFault.policy (path ++ "." ++ entry.1)) = none) ↔
        ∀ rule ∈ (Policy.ofSpec name (.group spec) registry logging).rules,
          rule.isCompiled = true := by
      rw [hrules, PolicySpec.sources, List.forall_mem_flatMap, NameMap.values, List.forall_mem_map]
      refine forall₂_congr fun entry _ => ?_
      rw [Option.map_eq_none_iff, PolicyFault.ofTarget?_eq_none_iff]
    rw [ofPolicy?, Option.or_eq_none_iff, Option.map_eq_none_iff,
      PolicyFault.ofExpression?_eq_none_iff, List.findSome?_eq_none_iff]
    refine (and_congr_right fun _ => htargets).trans ?_
    have hcontains : ∀ reference,
        (Policy.ofSpec name (.group spec) registry logging).targets.contains reference =
          spec.targets.contains reference :=
      fun reference => NameMap.contains_mapValues _ spec.targets reference
    constructor
    · rintro ⟨⟨hexpression, hreferences⟩, hall⟩
      exact ⟨hall, hexpression, fun reference hmem =>
        (hcontains reference).trans (hreferences reference hmem)⟩
    · intro h
      exact ⟨⟨h.expression, fun reference hmem =>
        (hcontains reference).symm.trans (h.references reference hmem)⟩, h.rules⟩

end ConfigFault

namespace Config

/-- The declared policies pass just where the compiled ones are without defects, over any
registry. -/
theorem ofPolicy?_entries_iff {config : Config} {start : Registry} :
    config.policies.entries.findSome? (fun (name, spec) => ConfigFault.ofPolicy? name spec) = none ↔
      ∀ policy ∈ (config.compile start).values, policy.Sound := by
  rw [List.findSome?_eq_none_iff, compile, NameMap.mapEntries, NameMap.values, List.forall_mem_map,
    List.forall_mem_map]
  exact forall₂_congr fun entry _ => ConfigFault.ofPolicy?_eq_none_iff

/-- A configuration passes its check just where its injected names will do and its policies are
without defects, whatever registry they are compiled over. No decision of a policy of a
configuration that passes is for a defect: no target policy fails for the text of a rule, nothing is
reported but faults of rules on the request, and the decision is the truth value of the expression
over the results of the target policies. -/
theorem fault?_eq_none_iff_sound (config : Config) :
    (config.fault? = none ↔
      (∀ name ∈ config.injected.names, NameFault.of? name = none) ∧
        ∀ start, ∀ policy ∈ (config.compile start).values, policy.Sound) ∧
    (config.fault? = none →
      ∀ start name policy, (config.compile start).get? name = some policy → ∀ attributes,
        (∀ target ∈ policy.targets.values, ∀ source cause,
          (target.outcome attributes).outcome ≠ .error (.uncompiled source cause)) ∧
        policy.unknownReferences = [] ∧
        (∀ event ∈ (policy.decide attributes).events,
          ∃ source fault, event = .failedRule (.faulted source fault)) ∧
        ∃ tree, policy.expression.tree = .ok tree ∧
          (policy.decide attributes).value =
            let results := policy.results attributes
            let allowed := tree.holds results
            ⟨allowed, results,
              s!"Expression '{policy.expression.text}' evaluated to {Policy.truthWord allowed} " ++
                s!"({results.values.countP id} of {results.size} target policies true)"⟩) := by
  have hnames : config.injected.names.findSome?
      (fun name => (NameFault.of? name).map (ConfigFault.injectedName name)) = none ↔
      ∀ name ∈ config.injected.names, NameFault.of? name = none := by
    rw [List.findSome?_eq_none_iff]
    exact forall₂_congr fun name _ => Option.map_eq_none_iff
  have hsound : config.fault? = none ↔
      (∀ name ∈ config.injected.names, NameFault.of? name = none) ∧
        ∀ start, ∀ policy ∈ (config.compile start).values, policy.Sound := by
    rw [fault?, Option.or_eq_none_iff, hnames]
    refine and_congr_right fun _ => ⟨fun h start => ofPolicy?_entries_iff.mp h, fun h => ?_⟩
    exact ofPolicy?_entries_iff.mpr (h .empty)
  refine ⟨hsound, fun hfault start name policy hpolicy attributes => ?_⟩
  have h : policy.Sound := (hsound.mp hfault).2 start policy (NameMap.mem_values_of_get? hpolicy)
  exact ⟨fun target htarget => h.outcome_ne_uncompiled htarget attributes,
    h.unknownReferences_eq_nil, fun event hevent => h.events_decide hevent,
    h.exists_decision attributes⟩

/-- A configuration with a group whose rule faults where the hour is not known, over a registry in
which the injected name stood for something else. -/
theorem fault?_eq_none_iff_sound_door :
    let spec : GroupSpec := ⟨"data.open || data['late']",
      (NameMap.empty.insert "late" ⟨["env.hour >= limit"], .all, .permit⟩).insert "open"
        ⟨["resource == 'hall'"], .any, .permit⟩⟩
    let config : Config :=
      { injected := NameMap.empty.insert "limit" (.ofNat 22)
        policies := NameMap.empty.insert "door" (.group spec) }
    let start : Registry := Registry.register .empty "limit" (.string "none")
    let policy : Policy := .group spec (config.registry start) true
    config.fault? = none ∧ policy.Sound ∧
      (config.compile start).get? "door" = some policy ∧
      (policy.decide {}).events =
        [.failedRule (.faulted "env.hour >= limit" (.notAnObject "hour" .null))] ∧
      ∀ event ∈ (policy.decide {}).events, ∃ source fault,
        event = .failedRule (.faulted source fault) := by
  intro spec config start policy
  have hfault : config.fault? = none := by decide +kernel
  have hpolicy : (config.compile start).get? "door" = some policy := rfl
  have hsound : policy.Sound :=
    ((fault?_eq_none_iff_sound config).1.mp hfault).2 start policy
      (NameMap.mem_values_of_get? hpolicy)
  exact ⟨hfault, hsound, hpolicy, by decide +kernel,
    ((fault?_eq_none_iff_sound config).2 hfault start "door" policy hpolicy {}).2.2.1⟩

end Config

end AccessControl
