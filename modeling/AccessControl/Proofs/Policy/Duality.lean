import AccessControl.Proofs.Rule.Complement
import AccessControl.Target
import Mathlib.Data.List.Forall2

/-!
# Duality of target policies

To deny where any rule of a list holds is to permit where all of the complementary rules hold, and
to deny where all hold is to permit where any of the complementary rules holds. This includes rules
that fail: complementary rules fail together, and a failure denies before any effect is applied.
-/

namespace AccessControl

namespace Algorithm

/-- The other algorithm. -/
def dual : Algorithm → Algorithm
  | .all => .any
  | .any => .all

/-- The dual starts from the opposite value. -/
theorem start_dual (algorithm : Algorithm) : algorithm.dual.start = !algorithm.start := by
  cases algorithm <;> rfl

/-- The dual combines opposite values to the opposite value. -/
theorem combine_dual (algorithm : Algorithm) (sofar next : Bool) :
    algorithm.dual.combine (!sofar) (!next) = !algorithm.combine sofar next := by
  cases algorithm with
  | all => exact (Bool.not_and sofar next).symm
  | any => exact (Bool.not_or sofar next).symm

end Algorithm

namespace TargetPolicy

/-- The combined truth value of rules on top of a value so far, unless one of them fails. -/
def combined? (algorithm : Algorithm) (attributes : Attributes) (sofar : Bool)
    (rules : List Rule) : Option Bool :=
  (combineRules algorithm attributes sofar rules).outcome.toOption

/-- The first rule has to have a value, on top of which the others go on. -/
theorem combined?_cons (algorithm : Algorithm) (attributes : Attributes) (sofar : Bool)
    (rule : Rule) (rest : List Rule) :
    combined? algorithm attributes sofar (rule :: rest) =
      (rule.truth? attributes).bind (fun value =>
        combined? algorithm attributes (algorithm.combine sofar value) rest) := by
  rw [combined?, combineRules, Traced.outcome_andThen, Rule.truth?]
  cases (rule.evaluate attributes).outcome <;> rfl

/-- The decision of a target policy is the effect on the combined value of its rules, and denial
where there is none. -/
theorem value_evaluate (target : TargetPolicy) (attributes : Attributes) :
    (target.evaluate attributes).value =
      ((combined? target.algorithm attributes target.algorithm.start target.rules).map
        target.effect.apply).getD false := by
  have houtcome : (target.outcome attributes).outcome.toOption =
      (combined? target.algorithm attributes target.algorithm.start target.rules).map
        target.effect.apply := by
    rw [outcome, Traced.outcome_andThen, combined?]
    cases (combineRules target.algorithm attributes target.algorithm.start target.rules).outcome <;>
      rfl
  rw [← houtcome, evaluate]
  cases (target.outcome attributes).outcome <;> rfl

variable {sources others : List String} {registry : Registry} {attributes : Attributes}

/-- Complementary rules are combined by the dual algorithm to the opposite value, and fail where the
rules fail. -/
theorem combined?_complements (h : List.Forall₂ Rule.Complements sources others)
    (algorithm : Algorithm) (sofar : Bool) :
    combined? algorithm.dual attributes (!sofar)
        (others.map (fun source => .compile source registry)) =
      (combined? algorithm attributes sofar
        (sources.map (fun source => .compile source registry))).map (!·) := by
  induction h generalizing sofar with
  | nil => rfl
  | @cons source other sources others hfirst _ ih =>
    rw [List.map_cons, List.map_cons, combined?_cons, combined?_cons,
      hfirst.truth? registry attributes]
    cases (Rule.compile source registry).truth? attributes with
    | none => rfl
    | some value =>
      rw [Option.map_some, Option.bind_some, Option.bind_some, algorithm.combine_dual]
      exact ih (algorithm.combine sofar value)

/-- To deny by an algorithm is to permit by its dual with the complementary rules. -/
theorem deny_eq_permit_dual (h : List.Forall₂ Rule.Complements sources others)
    (algorithm : Algorithm) (logging logging' : Bool) :
    ((compile ⟨sources, algorithm, .deny⟩ registry logging).evaluate attributes).value =
      ((compile ⟨others, algorithm.dual, .permit⟩ registry logging').evaluate
        attributes).value := by
  let denying := compile ⟨sources, algorithm, .deny⟩ registry logging
  let permitting := compile ⟨others, algorithm.dual, .permit⟩ registry logging'
  have hcombined : combined? algorithm.dual attributes algorithm.dual.start permitting.rules =
      (combined? algorithm attributes algorithm.start denying.rules).map (!·) :=
    algorithm.start_dual ▸ combined?_complements h algorithm algorithm.start
  calc (denying.evaluate attributes).value
      = ((combined? algorithm attributes algorithm.start denying.rules).map (!·)).getD false :=
        denying.value_evaluate attributes
    _ = ((combined? algorithm.dual attributes algorithm.dual.start permitting.rules).map
          id).getD false := by rw [hcombined, Option.map_id_fun, id]
    _ = (permitting.evaluate attributes).value := (permitting.value_evaluate attributes).symm

/-- Every list of texts has complementary ones. -/
theorem exists_forall₂_complements (sources : List String) :
    ∃ others, List.Forall₂ Rule.Complements sources others := by
  induction sources with
  | nil => exact ⟨[], .nil⟩
  | cons source sources ih =>
    obtain ⟨other, hother⟩ := Rule.exists_complements source
    obtain ⟨others, hothers⟩ := ih
    exact ⟨other :: others, .cons hother hothers⟩

/-- In every list of texts the comparison operators of the rules can be replaced by complementary
ones. However that is done: to deny where any of the rules holds is to permit where all of the
complementary rules hold, and to deny where all hold is to permit where any of these holds, over
every registry and for every request, failing rules included. -/
theorem deny_eq_permit_of_complements (sources : List String) :
    (∃ others, List.Forall₂ Rule.Complements sources others) ∧
      ∀ others, List.Forall₂ Rule.Complements sources others →
        ∀ (registry : Registry) (logging logging' : Bool) (attributes : Attributes),
          ((compile ⟨sources, .any, .deny⟩ registry logging).evaluate attributes).value =
              ((compile ⟨others, .all, .permit⟩ registry logging').evaluate attributes).value ∧
            ((compile ⟨sources, .all, .deny⟩ registry logging).evaluate attributes).value =
              ((compile ⟨others, .any, .permit⟩ registry logging').evaluate attributes).value :=
  ⟨exists_forall₂_complements sources, fun _ h _ logging logging' _ =>
    ⟨deny_eq_permit_dual h .any logging logging', deny_eq_permit_dual h .all logging logging'⟩⟩

/-- At the age of seventeen neither of two rules holds, one of them with the short sign of equality:
that denying policy grants, and so does the permitting one with the complementary rules. -/
theorem deny_eq_permit_of_complements_age :
    let sources := ["user.age >= 18", "user.age = 18"]
    let others := ["user.age < 18", "user.age != 18"]
    let attributes : Attributes := { user := .object [("age", Json.ofNat 17)] }
    List.Forall₂ Rule.Complements sources others ∧
      ((compile ⟨sources, .any, .deny⟩ .empty true).evaluate attributes).value = true ∧
      ((compile ⟨others, .all, .permit⟩ .empty true).evaluate attributes).value = true := by
  intro sources others attributes
  have hleft : Lexeme.IsSide "user.age " :=
    ⟨[⟨.name "user", 0⟩, ⟨.dot, 4⟩, ⟨.name "age", 5⟩], by decide +kernel, by simp⟩
  have hright : Lexeme.IsSide " 18" :=
    ⟨[⟨.literal (Json.ofNat 18), 1⟩], by decide +kernel, by simp⟩
  have hage : Comparison.parse ("user.age " ++ ">=" ++ " 18") =
      .ok ⟨.field (.bag .user) "age", .atLeast, .literal (Json.ofNat 18)⟩ := by
    have hscan : Lexeme.scan ("user.age " ++ ">=" ++ " 18") =
        .ok [⟨.name "user", 0⟩, ⟨.dot, 4⟩, ⟨.name "age", 5⟩, ⟨.relation .atLeast, 9⟩,
          ⟨.literal (Json.ofNat 18), 12⟩] := by decide +kernel
    rw [Comparison.parse_of_scan hscan]
    rfl
  have hequal : Comparison.parse ("user.age " ++ "=" ++ " 18") =
      .ok ⟨.field (.bag .user) "age", .equal, .literal (Json.ofNat 18)⟩ := by
    have hscan : Lexeme.scan ("user.age " ++ "=" ++ " 18") =
        .ok [⟨.name "user", 0⟩, ⟨.dot, 4⟩, ⟨.name "age", 5⟩, ⟨.relation .equal, 9⟩,
          ⟨.literal (Json.ofNat 18), 11⟩] := by decide +kernel
    rw [Comparison.parse_of_scan hscan]
    rfl
  have hcomplements : List.Forall₂ Rule.Complements sources others :=
    .cons (.replaced hleft hright hage (by decide) (List.mem_singleton.mpr rfl))
      (.cons (.replaced hleft hright hequal (by decide) (List.mem_singleton.mpr rfl)) .nil)
  have hvalue : ((compile ⟨sources, .any, .deny⟩ .empty true).evaluate attributes).value =
      true := by decide +kernel
  exact ⟨hcomplements, hvalue, ((deny_eq_permit_of_complements sources).2 others hcomplements .empty
    true true attributes).1.symm.trans hvalue⟩

end TargetPolicy

end AccessControl
