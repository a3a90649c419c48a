import AccessControl.Proofs.Expression.Balance
import AccessControl.Proofs.Policy.Decision

/-!
# Failures only deny

A rule that fails makes its target policy false, under every algorithm and with every effect, and
the truth value of an expression grows with the results of the target policies, since it has no
negation. So a policy that lost target policies, or whose target policies got failing rules, grants
nothing that it did not grant before. An expression that cannot be read denies, and a merge does not
mend it by an expression that can.
-/

namespace AccessControl

/-- Whether every name that is true in a map of results is true in another one. -/
def NameMap.TrueWithin (small large : NameMap Bool) : Prop :=
  ∀ name, (small.get? name).getD false = true → (large.get? name).getD false = true

namespace Atom

variable {small large : NameMap Bool}

mutual

/-- An atom that holds goes on to hold where more results do. -/
theorem holds_mono (h : small.TrueWithin large) : (atom : Atom) →
    holds small atom = true → holds large atom = true
  | .reference name, hholds => h name hholds
  | .group clauses, hholds => anyHolds_mono h clauses hholds

/-- A clause that holds goes on to hold where more results do. -/
theorem allHold_mono (h : small.TrueWithin large) : (clause : List Atom) →
    allHold small clause = true → allHold large clause = true
  | [], _ => rfl
  | atom :: rest, hholds => by
    simp only [allHold, Bool.and_eq_true] at hholds ⊢
    exact ⟨holds_mono h atom hholds.1, allHold_mono h rest hholds.2⟩

/-- A list of clauses that holds goes on to hold where more results do. -/
theorem anyHolds_mono (h : small.TrueWithin large) : (clauses : List (List Atom)) →
    anyHolds small clauses = true → anyHolds large clauses = true
  | [], hholds => hholds
  | clause :: rest, hholds => by
    simp only [anyHolds, Bool.or_eq_true] at hholds ⊢
    rcases hholds with hholds | hholds
    · exact Or.inl (allHold_mono h clause hholds)
    · exact Or.inr (anyHolds_mono h rest hholds)

end

end Atom

/-- Whether a rule has no truth value for a request. -/
def Rule.Fails (rule : Rule) (attributes : Attributes) : Prop :=
  ∃ cause, (rule.evaluate attributes).outcome = .error cause

namespace TargetPolicy

/-- Whether some rule of a target policy fails for a request. -/
def Broken (target : TargetPolicy) (attributes : Attributes) : Prop :=
  ∃ rule ∈ target.rules, rule.Fails attributes

/-- Rules of which one fails have no combined truth value, whatever the value so far. -/
theorem combineRules_fails {attributes : Attributes} {rules : List Rule}
    (h : ∃ rule ∈ rules, rule.Fails attributes) (algorithm : Algorithm) (sofar : Bool) :
    ∃ cause, (combineRules algorithm attributes sofar rules).outcome = .error cause := by
  induction rules generalizing sofar with
  | nil => exact absurd h.choose_spec.1 List.not_mem_nil
  | cons rule rest ih =>
    rw [combineRules, Traced.outcome_andThen]
    cases houtcome : (rule.evaluate attributes).outcome with
    | error cause => exact ⟨cause, rfl⟩
    | ok value =>
      obtain ⟨failing, hmem, cause, hfails⟩ := h
      rcases List.mem_cons.mp hmem with rfl | hrest
      · rw [houtcome] at hfails
        cases hfails
      · exact ih ⟨failing, hrest, cause, hfails⟩ _

/-- A target policy with a failing rule denies, whatever its algorithm and its effect. -/
theorem evaluate_of_broken {target : TargetPolicy} {attributes : Attributes}
    (h : target.Broken attributes) : (target.evaluate attributes).value = false := by
  obtain ⟨cause, hcause⟩ := combineRules_fails h target.algorithm target.algorithm.start
  have houtcome : (target.outcome attributes).outcome = .error cause := by
    rw [outcome, Traced.outcome_andThen, hcause]
    rfl
  rw [evaluate]
  simp only [houtcome]

end TargetPolicy

namespace Policy

/-- What failures leave of a policy for a request: the expression stays, and every target policy
stays, is gone, or has a rule that fails. -/
structure Degraded (attributes : Attributes) (policy degraded : Policy) : Prop where
  /-- The expression stays. -/
  expression : degraded.expression = policy.expression
  /-- A target policy stays, is gone or is broken. -/
  targets : ∀ name, degraded.targets.get? name = policy.targets.get? name ∨
    degraded.targets.get? name = none ∨
    ∃ target, degraded.targets.get? name = some target ∧ target.Broken attributes

/-- The results of a degraded policy that are true are true of the policy. -/
theorem Degraded.trueWithin {attributes : Attributes} {policy degraded : Policy}
    (h : Degraded attributes policy degraded) :
    (degraded.results attributes).TrueWithin (policy.results attributes) := by
  intro name htrue
  rw [results, NameMap.get?_mapValues] at htrue ⊢
  rcases h.targets name with hsame | hgone | ⟨target, hbroken, hfails⟩
  · rwa [hsame] at htrue
  · rw [hgone] at htrue
    cases htrue
  · rw [hbroken, Option.map_some, Option.getD_some,
      TargetPolicy.evaluate_of_broken hfails] at htrue
    cases htrue

/-- Whatever a policy grants after failures, it granted before. -/
theorem check_of_degraded {attributes : Attributes} {policy degraded : Policy}
    (h : Degraded attributes policy degraded) (hcheck : degraded.check attributes = true) :
    policy.check attributes = true := by
  cases htree : policy.expression.tree with
  | error cause =>
    have hmalformed : degraded.expression.malformed = true := by
      rw [h.expression, Expression.malformed, Expression.error?, htree]
      rfl
    rw [check_of_malformed hmalformed] at hcheck
    cases hcheck
  | ok tree =>
    rw [check_of_tree (h.expression ▸ htree)] at hcheck
    rw [check_of_tree htree]
    exact Atom.anyHolds_mono h.trueWithin tree hcheck

/-- A policy of two target policies without rules, one of which gets a rule that is none, under the
effect that turns around what the rules say. -/
theorem check_of_degraded_garbage :
    let policy : Policy :=
      ⟨.parse "data.a || data.b",
        (NameMap.empty.insert "a" ⟨[], .all, .permit, true⟩).insert "b" ⟨[], .all, .permit, true⟩,
        true⟩
    let broken : TargetPolicy := ⟨[.compile "garbage" NameMap.empty], .any, .deny, true⟩
    let degraded : Policy := { policy with targets := policy.targets.insert "b" broken }
    Degraded {} policy degraded ∧ degraded.check {} = true ∧ policy.check {} = true := by
  intro policy broken degraded
  have hcause : ((Rule.compile "garbage" NameMap.empty).evaluate {}).outcome =
      .error (.uncompiled "garbage" .missingOperator) := by
    decide +kernel
  have hfails : broken.Broken {} := ⟨_, List.mem_singleton.mpr rfl, _, hcause⟩
  have hdegraded : Degraded {} policy degraded := by
    refine ⟨rfl, fun name => ?_⟩
    rw [NameMap.get?_insert]
    split
    · exact Or.inr (Or.inr ⟨broken, rfl, hfails⟩)
    · exact Or.inl rfl
  have hcheck : degraded.check {} = true := by decide +kernel
  exact ⟨hdegraded, hcheck, check_of_degraded hdegraded hcheck⟩

/-- Of two expressions of which just one can be read, no joining can be read, and merging policies
of which just one has an expression that can be read gives a policy that denies every request. -/
theorem malformed_half_denies :
    (∀ (left right : String) (connective : Connective),
      (Expression.parse left).malformed ≠ (Expression.parse right).malformed →
        ((Expression.parse left).concat connective (Expression.parse right)).malformed = true) ∧
      ∀ (left right : Policy) (connective : Connective), left.Built → right.Built →
        left.expression.malformed ≠ right.expression.malformed →
          ∀ attributes, (left.merge connective right).check attributes = false := by
  constructor
  · intro left right connective h
    exact Expression.malformed_concat (Expression.textAgrees_parse left)
      (Expression.textAgrees_parse right) connective h
  · intro left right connective hleft hright h attributes
    exact check_of_malformed
      (Expression.malformed_concat hleft.textAgrees hright.textAgrees connective h) attributes

/-- An open quote on the left, which swallows the connective and the reference on the right. -/
theorem malformed_half_denies_open_quote :
    let left := group ⟨"data['a", NameMap.empty⟩ NameMap.empty true
    let right := single (generatedName 1) {} NameMap.empty true
    (Expression.parse "data['a").malformed ≠ (Expression.parse "data.b").malformed ∧
      ((Expression.parse "data['a").concat .or (Expression.parse "data.b")).malformed = true ∧
      left.Built ∧ right.Built ∧ left.expression.malformed ≠ right.expression.malformed ∧
      (left.merge .or right).check {} = false := by
  intro left right
  have htexts : (Expression.parse "data['a").malformed ≠ (Expression.parse "data.b").malformed := by
    decide +kernel
  have hleft : left.Built := .group _ _ _
  have hright : right.Built := .single _ _ _ (isBareName_generatedName 1)
  have hexpressions : left.expression.malformed ≠ right.expression.malformed := by
    decide +kernel
  exact ⟨htexts, malformed_half_denies.1 _ _ .or htexts, hleft, hright, hexpressions,
    malformed_half_denies.2 left right .or hleft hright hexpressions {}⟩

end Policy

end AccessControl
