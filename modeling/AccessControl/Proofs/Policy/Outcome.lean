import AccessControl.Proofs.Policy.Failure

/-!
# Outcomes of target policies

The rules of a target policy are evaluated in order, each of them once, up to the first that fails,
however the truth values so far are combined. So the calls of host functions are those of these
rules, one rule behind the other. The outcome is the error of the first rule that fails. Where none
fails it is the effect on the conjunction or the disjunction of all truth values.
-/

namespace AccessControl

/-- The error of a rule that fails carries the text of the rule. -/
theorem Rule.rule_eq_source {rule : Rule} {attributes : Attributes} {cause : RuleError}
    (h : (rule.evaluate attributes).outcome = .error cause) : cause.rule = rule.source := by
  rw [evaluate] at h
  cases hcompiled : rule.compiled with
  | error other =>
    simp only [hcompiled, Traced.ofExcept] at h
    cases h
    rfl
  | ok bound =>
    simp only [hcompiled, Traced.mapError] at h
    cases houtcome : (bound.1.evaluate bound.2 attributes).outcome with
    | error fault =>
      rw [houtcome] at h
      cases h
      rfl
    | ok value =>
      rw [houtcome] at h
      cases h

/-- Whether a rule has a truth value for a request. -/
def Rule.passes (attributes : Attributes) (rule : Rule) : Bool :=
  (rule.evaluate attributes).outcome.isOk

/-- A rule has a truth value just where it does not fail. -/
theorem Rule.passes_iff {rule : Rule} {attributes : Attributes} :
    rule.passes attributes = true ↔ ¬rule.Fails attributes := by
  rw [passes, Fails]
  cases (rule.evaluate attributes).outcome with
  | error cause => simp [Except.isOk, Except.toBool]
  | ok value => simp [Except.isOk, Except.toBool]

namespace Algorithm

/-- The truth value of a list of truth values: their conjunction or their disjunction. -/
def verdict : Algorithm → List Bool → Bool
  | .all, values => values.all id
  | .any, values => values.any id

/-- To combine truth values one by one is to combine their conjunction or disjunction. -/
theorem foldl_combine (algorithm : Algorithm) (values : List Bool) (sofar : Bool) :
    values.foldl algorithm.combine sofar = algorithm.combine sofar (algorithm.verdict values) := by
  induction values generalizing sofar with
  | nil =>
    cases algorithm with
    | all => exact (Bool.and_true sofar).symm
    | any => exact (Bool.or_false sofar).symm
  | cons value rest ih =>
    rw [List.foldl_cons, ih]
    cases algorithm with
    | all => exact Bool.and_assoc sofar value (rest.all id)
    | any => exact Bool.or_assoc sofar value (rest.any id)

/-- The value of no rules counts for nothing in a combination. -/
theorem combine_start (algorithm : Algorithm) (value : Bool) :
    algorithm.combine algorithm.start value = value := by
  cases algorithm with
  | all => exact Bool.true_and value
  | any => exact Bool.false_or value

end Algorithm

namespace TargetPolicy

/-- Whether an error is that of the first rule of a list that fails. It carries the text of that
rule. -/
def FirstFailure (attributes : Attributes) (rules : List Rule) (cause : RuleError) : Prop :=
  ∃ front rule back, rules = front ++ rule :: back ∧
    (∀ passed ∈ front, ¬passed.Fails attributes) ∧
    (rule.evaluate attributes).outcome = .error cause ∧ cause.rule = rule.source

/-- The rules of a list that are evaluated: those before the first that fails, and that one. -/
def attempted (attributes : Attributes) (rules : List Rule) : List Rule :=
  rules.takeWhile (Rule.passes attributes) ++ (rules.dropWhile (Rule.passes attributes)).take 1

/-- The calls of rules that are evaluated one behind the other. -/
def callsOf (attributes : Attributes) (rules : List Rule) : List Call :=
  rules.flatMap (fun rule => (rule.evaluate attributes).calls)

/-- The calls of the first rule come first. -/
theorem callsOf_cons (attributes : Attributes) (rule : Rule) (rest : List Rule) :
    callsOf attributes (rule :: rest) =
      (rule.evaluate attributes).calls ++ callsOf attributes rest :=
  List.flatMap_cons

/-- Whether the rules of a list have these truth values, one by one. -/
def HaveValues (attributes : Attributes) (rules : List Rule) (values : List Bool) : Prop :=
  rules.map (fun rule => (rule.evaluate attributes).outcome) = values.map .ok

variable {attributes : Attributes} {rules front back : List Rule} {rule : Rule}
  {values : List Bool} {cause : RuleError}

/-- A rule with a truth value is followed by the others, on top of the combined value. -/
theorem combineRules_cons_of_ok {value : Bool}
    (h : (rule.evaluate attributes).outcome = .ok value) (algorithm : Algorithm) (sofar : Bool)
    (rest : List Rule) :
    combineRules algorithm attributes sofar (rule :: rest) =
      ⟨(rule.evaluate attributes).calls ++
          (combineRules algorithm attributes (algorithm.combine sofar value) rest).calls,
        (combineRules algorithm attributes (algorithm.combine sofar value) rest).outcome⟩ := by
  rw [combineRules, Traced.andThen, h]

/-- A rule that fails is followed by nothing. -/
theorem combineRules_cons_of_error (h : (rule.evaluate attributes).outcome = .error cause)
    (algorithm : Algorithm) (sofar : Bool) (rest : List Rule) :
    combineRules algorithm attributes sofar (rule :: rest) =
      ⟨(rule.evaluate attributes).calls, .error cause⟩ := by
  rw [combineRules, Traced.andThen, h]

/-- Either all rules of a list have truth values, or some rule is the first that fails. -/
theorem exists_values_or_firstFailure (attributes : Attributes) (rules : List Rule) :
    (∃ values, HaveValues attributes rules values) ∨
      ∃ cause, FirstFailure attributes rules cause := by
  induction rules with
  | nil => exact Or.inl ⟨[], rfl⟩
  | cons rule rest ih =>
    cases houtcome : (rule.evaluate attributes).outcome with
    | error cause =>
      exact Or.inr ⟨cause, [], rule, rest, rfl, List.forall_mem_nil _, houtcome,
        rule.rule_eq_source houtcome⟩
    | ok value =>
      rcases ih with ⟨values, hvalues⟩ | ⟨cause, front, failing, back, rfl, hfront, hcause⟩
      · exact Or.inl ⟨value :: values, List.cons_eq_cons.mpr ⟨houtcome, hvalues⟩⟩
      · have hpasses : ¬rule.Fails attributes := by
          rintro ⟨other, hother⟩
          rw [houtcome] at hother
          cases hother
        exact Or.inr ⟨cause, rule :: front, failing, back, rfl,
          List.forall_mem_cons.mpr ⟨hpasses, hfront⟩, hcause⟩

/-- A rule of a list in which all have truth values does not fail. -/
theorem not_fails_of_values (h : HaveValues attributes rules values) :
    ∀ rule ∈ rules, ¬rule.Fails attributes := by
  rintro rule hrule ⟨cause, hcause⟩
  have hmem : Except.error cause ∈ rules.map (fun rule => (rule.evaluate attributes).outcome) :=
    List.mem_map.mpr ⟨rule, hrule, hcause⟩
  rw [h] at hmem
  obtain ⟨value, -, hvalue⟩ := List.mem_map.mp hmem
  cases hvalue

/-- Rules that all have truth values are all evaluated, and the values are combined in order on top
of the value so far. -/
theorem combineRules_of_values (h : HaveValues attributes rules values) (algorithm : Algorithm)
    (sofar : Bool) :
    combineRules algorithm attributes sofar rules =
      ⟨callsOf attributes rules, .ok (values.foldl algorithm.combine sofar)⟩ := by
  induction rules generalizing values sofar with
  | nil =>
    have hvalues : values = [] := List.map_eq_nil_iff.mp h.symm
    rw [hvalues]
    rfl
  | cons rule rest ih =>
    cases values with
    | nil => cases h
    | cons value others =>
      obtain ⟨hrule, hrest⟩ := List.cons.inj h
      have houtcome : (rule.evaluate attributes).outcome = .ok value := hrule
      rw [combineRules_cons_of_ok houtcome, ih hrest, callsOf_cons, List.foldl_cons]

/-- The first rule that fails ends the evaluation, whatever the value so far. -/
theorem combineRules_of_failure (hfront : ∀ passed ∈ front, ¬passed.Fails attributes)
    (hcause : (rule.evaluate attributes).outcome = .error cause) (algorithm : Algorithm)
    (sofar : Bool) :
    combineRules algorithm attributes sofar (front ++ rule :: back) =
      ⟨callsOf attributes (front ++ [rule]), .error cause⟩ := by
  induction front generalizing sofar with
  | nil =>
    rw [List.nil_append, List.nil_append, combineRules_cons_of_error hcause, callsOf_cons]
    exact congrArg (Traced.mk · _) (List.append_nil _).symm
  | cons first rest ih =>
    obtain ⟨hfirst, hrest⟩ := List.forall_mem_cons.mp hfront
    cases houtcome : (first.evaluate attributes).outcome with
    | error other => exact absurd ⟨other, houtcome⟩ hfirst
    | ok value =>
      rw [List.cons_append, List.cons_append, combineRules_cons_of_ok houtcome, ih hrest,
        callsOf_cons]

/-- Some rule of a list is the first that fails just where some rule fails. -/
theorem exists_firstFailure_iff :
    (∃ cause, FirstFailure attributes rules cause) ↔ ∃ rule ∈ rules, rule.Fails attributes := by
  constructor
  · rintro ⟨cause, front, rule, back, rfl, -, hcause, -⟩
    exact ⟨rule, List.mem_append_right front List.mem_cons_self, cause, hcause⟩
  · rintro ⟨rule, hrule, hfails⟩
    rcases exists_values_or_firstFailure attributes rules with ⟨values, hvalues⟩ | hfirst
    · exact absurd hfails (not_fails_of_values hvalues rule hrule)
    · exact hfirst

/-- All of the rules that have truth values are evaluated. -/
theorem attempted_of_values (h : HaveValues attributes rules values) :
    attempted attributes rules = rules := by
  have hpasses : ∀ rule ∈ rules, rule.passes attributes = true :=
    fun rule hrule => Rule.passes_iff.mpr (not_fails_of_values h rule hrule)
  rw [attempted, ← List.append_nil rules, List.takeWhile_append_of_pos hpasses,
    List.dropWhile_append_of_pos hpasses, List.takeWhile_nil, List.dropWhile_nil, List.take_nil,
    List.append_nil]

/-- Nothing behind the first rule that fails is evaluated. -/
theorem attempted_of_failure (hfront : ∀ passed ∈ front, ¬passed.Fails attributes)
    (hcause : (rule.evaluate attributes).outcome = .error cause) :
    attempted attributes (front ++ rule :: back) = front ++ [rule] := by
  have hpasses : ∀ passed ∈ front, passed.passes attributes = true :=
    fun passed hmem => Rule.passes_iff.mpr (hfront passed hmem)
  have hfails : ¬rule.passes attributes = true := fun h => Rule.passes_iff.mp h ⟨cause, hcause⟩
  rw [attempted, List.takeWhile_append_of_pos hpasses, List.dropWhile_append_of_pos hpasses,
    List.takeWhile_cons_of_neg hfails, List.dropWhile_cons_of_neg hfails, List.append_nil,
    List.take_succ_cons, List.take_zero]

/-- Where all rules have truth values, the outcome is the effect on their conjunction or
disjunction, and all rules have been evaluated. -/
theorem outcome_of_values {target : TargetPolicy}
    (h : HaveValues attributes target.rules values) :
    target.outcome attributes =
      ⟨callsOf attributes (attempted attributes target.rules),
        .ok (target.effect.apply (target.algorithm.verdict values))⟩ := by
  have hcombined := combineRules_of_values h target.algorithm target.algorithm.start
  rw [target.algorithm.foldl_combine, target.algorithm.combine_start] at hcombined
  rw [outcome, hcombined, Traced.andThen, attempted_of_values h]
  exact congrArg (Traced.mk · _) (List.append_nil _)

/-- The error of the first rule that fails is the outcome, and nothing is evaluated behind it. -/
theorem outcome_of_firstFailure {target : TargetPolicy}
    (h : FirstFailure attributes target.rules cause) :
    target.outcome attributes =
      ⟨callsOf attributes (attempted attributes target.rules), .error cause⟩ := by
  obtain ⟨front, rule, back, hrules, hfront, hcause, -⟩ := h
  rw [outcome, hrules, combineRules_of_failure hfront hcause, Traced.andThen,
    attempted_of_failure hfront hcause]

/-- The outcome is an error just where that is the error of the first rule that fails. -/
theorem outcome_eq_error_iff {target : TargetPolicy} :
    (target.outcome attributes).outcome = .error cause ↔
      FirstFailure attributes target.rules cause := by
  constructor
  · intro h
    rcases exists_values_or_firstFailure attributes target.rules with
      ⟨values, hvalues⟩ | ⟨other, hother⟩
    · rw [outcome_of_values hvalues] at h
      cases h
    · rw [outcome_of_firstFailure hother] at h
      cases h
      exact hother
  · intro h
    rw [outcome_of_firstFailure h]

/-- The outcome of a target policy, for every list of rules, algorithm, effect and request. The
rules are evaluated in order, each once, up to and including the first that fails, so that the calls
are theirs, one rule behind the other. The outcome is an error just where some rule fails, and then
it is that of the first such rule and carries its text. Otherwise it is the effect, applied once, on
the conjunction or the disjunction of the truth values of all rules. -/
theorem outcome_reference (target : TargetPolicy) (attributes : Attributes) :
    (target.outcome attributes).calls =
        callsOf attributes (attempted attributes target.rules) ∧
      (∀ cause, (target.outcome attributes).outcome = .error cause ↔
        FirstFailure attributes target.rules cause) ∧
      ((∃ cause, (target.outcome attributes).outcome = .error cause) ↔
        ∃ rule ∈ target.rules, rule.Fails attributes) ∧
      ∀ decision, (target.outcome attributes).outcome = .ok decision ↔
        ∃ values, HaveValues attributes target.rules values ∧
          decision = target.effect.apply (target.algorithm.verdict values) := by
  refine ⟨?_, fun cause => outcome_eq_error_iff, ?_, fun decision => ?_⟩
  · rcases exists_values_or_firstFailure attributes target.rules with
      ⟨values, hvalues⟩ | ⟨cause, hcause⟩
    · rw [outcome_of_values hvalues]
    · rw [outcome_of_firstFailure hcause]
  · simp only [outcome_eq_error_iff, exists_firstFailure_iff]
  · constructor
    · intro h
      rcases exists_values_or_firstFailure attributes target.rules with
        ⟨values, hvalues⟩ | ⟨cause, hcause⟩
      · rw [outcome_of_values hvalues] at h
        exact ⟨values, hvalues, (Except.ok.inj h).symm⟩
      · rw [outcome_of_firstFailure hcause] at h
        cases h
    · rintro ⟨values, hvalues, rfl⟩
      rw [outcome_of_values hvalues]

end TargetPolicy

end AccessControl
