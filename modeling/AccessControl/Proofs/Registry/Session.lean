import AccessControl.Proofs.Policy.Compilation
import AccessControl.Proofs.Rule.Binding

/-!
# Sessions

A host changes a registry, compiles rules over it and evaluates what it has compiled, in any order.
A session does so with the rules themselves, which carry nothing but the entries of the names that
they need. A ledger does it with the texts of the rules, each with the whole registry as it stood
when the text was compiled. Both give the same answers along every run: needed entries are bound
without exception, and they stay as they were bound.
-/

namespace AccessControl

/-- What a host does. -/
inductive Step where
  /-- A value is registered. -/
  | register (name : String) (value : Json)
  /-- A function is registered. -/
  | registerFunction (function : HostFunction)
  /-- An entry is removed. -/
  | unregister (name : String)
  /-- All entries are removed. -/
  | clear
  /-- A rule is compiled. -/
  | compileRule (source : String)
  /-- A target policy is compiled. -/
  | compileTarget (spec : TargetSpec) (logging : Bool)
  /-- A policy is compiled, a single target policy under the given name. -/
  | compilePolicy (name : String) (spec : PolicySpec) (logging : Bool)
  /-- The values of a configuration are registered and its policies compiled. -/
  | compileConfig (config : Config)
  /-- A rule is evaluated for a request: the one with the number, in the order of compilation. -/
  | evaluate (number : Nat) (attributes : Attributes)

namespace Step

/-- The registry after a step. -/
def registry (start : Registry) : Step → Registry
  | .register name value => start.register name value
  | .registerFunction function => start.registerFunction function
  | .unregister name => start.unregister name
  | .clear => .empty
  | .compileConfig config => config.registry start
  | .compileRule _ | .compileTarget _ _ | .compilePolicy _ _ _ | .evaluate _ _ => start

/-- The texts of the rules that a step compiles. -/
def sources : Step → List String
  | .compileRule source => [source]
  | .compileTarget spec _ => spec.rules
  | .compilePolicy _ spec _ => spec.sources
  | .compileConfig config => config.sources
  | .register _ _ | .registerFunction _ | .unregister _ | .clear | .evaluate _ _ => []

/-- The rules that a step compiles over a registry. -/
def rules (start : Registry) : Step → List Rule
  | .compileRule source => [.compile source start]
  | .compileTarget spec logging => (TargetPolicy.compile spec start logging).rules
  | .compilePolicy name spec logging => (Policy.ofSpec name spec start logging).rules
  | .compileConfig config => (config.compile start).values.flatMap Policy.rules
  | .register _ _ | .registerFunction _ | .unregister _ | .clear | .evaluate _ _ => []

/-- The rules of a step are its texts, compiled over the registry after the step. -/
theorem rules_eq (start : Registry) (step : Step) :
    step.rules start =
      step.sources.map (fun source => Rule.compile source (step.registry start)) := by
  cases step with
  | compilePolicy name spec logging => exact Policy.rules_ofSpec name spec start logging
  | compileConfig config => exact config.rules_compile start
  | _ => rfl

end Step

/-- A registry and the rules compiled so far. -/
structure Session where
  /-- The registry. -/
  registry : Registry
  /-- The rules, in the order of compilation. -/
  rules : List Rule

namespace Session

/-- The session after a step. -/
def step (session : Session) (step : Step) : Session :=
  ⟨step.registry session.registry, session.rules ++ step.rules session.registry⟩

/-- The session after a run of steps. -/
def run (session : Session) (steps : List Step) : Session := steps.foldl Session.step session

/-- What a step answers: the evaluation of a rule, if it is one and the rule is there. -/
def answer (session : Session) : Step → Option (Traced RuleError Bool)
  | .evaluate number attributes => session.rules[number]?.map (fun rule => rule.evaluate attributes)
  | _ => none

/-- The answers of a run, step by step. -/
def answers (session : Session) : List Step → List (Option (Traced RuleError Bool))
  | [] => []
  | step :: rest => session.answer step :: answers (session.step step) rest

/-- A step leaves the rules that are there. -/
theorem getElem?_step {session : Session} {number : Nat} {rule : Rule}
    (h : session.rules[number]? = some rule) (step : Step) :
    (session.step step).rules[number]? = some rule := by
  obtain ⟨hlt, -⟩ := List.getElem?_eq_some_iff.mp h
  rw [Session.step, List.getElem?_append_left hlt, h]

/-- A run leaves the rules that are there. -/
theorem getElem?_run {session : Session} {number : Nat} {rule : Rule}
    (h : session.rules[number]? = some rule) (steps : List Step) :
    (session.run steps).rules[number]? = some rule := by
  induction steps generalizing session with
  | nil => exact h
  | cons step rest ih => exact ih (getElem?_step h step)

end Session

/-- A registry and the texts of the rules compiled so far. -/
structure Ledger where
  /-- The registry. -/
  registry : Registry
  /-- The texts in the order of compilation, each with the whole registry that it was compiled
  over. -/
  bindings : List (String × Registry)

namespace Ledger

/-- The ledger after a step. -/
def step (ledger : Ledger) (step : Step) : Ledger :=
  ⟨step.registry ledger.registry,
    ledger.bindings ++ step.sources.map (fun source => (source, step.registry ledger.registry))⟩

/-- What a step answers: the meaning of a text over its registry, if the step is an evaluation and
the text is there. -/
def answer (ledger : Ledger) : Step → Option (Traced RuleError Bool)
  | .evaluate number attributes =>
    ledger.bindings[number]?.map (fun (source, registry) => Rule.meaning source registry attributes)
  | _ => none

/-- The answers of a run, step by step. -/
def answers (ledger : Ledger) : List Step → List (Option (Traced RuleError Bool))
  | [] => []
  | step :: rest => ledger.answer step :: answers (ledger.step step) rest

end Ledger

namespace Session

/-- A session that stands where a ledger stands: the registries are the same, and the rules are the
texts compiled over the registries beside them. -/
structure Follows (session : Session) (ledger : Ledger) : Prop where
  /-- The registries are the same. -/
  registry : session.registry = ledger.registry
  /-- The rules are the compiled texts. -/
  rules : session.rules =
    ledger.bindings.map (fun (source, registry) => Rule.compile source registry)

/-- A step takes a session to where it takes the ledger. -/
theorem Follows.step {session : Session} {ledger : Ledger} (h : session.Follows ledger)
    (step : Step) : (session.step step).Follows (ledger.step step) where
  registry := by rw [Session.step, Ledger.step, h.registry]
  rules := by
    rw [Session.step, Ledger.step, h.registry, h.rules, step.rules_eq, List.map_append,
      List.map_map]
    rfl

/-- A session answers as its ledger does. -/
theorem Follows.answer_eq {session : Session} {ledger : Ledger} (h : session.Follows ledger)
    (step : Step) : session.answer step = ledger.answer step := by
  cases step with
  | evaluate number attributes =>
    rw [answer, Ledger.answer, h.rules, List.getElem?_map, Option.map_map]
    congr 1
    funext ⟨source, registry⟩
    exact Rule.evaluate_compile source registry attributes
  | _ => rfl

/-- A session answers as its ledger does along every run. -/
theorem Follows.answers_eq {session : Session} {ledger : Ledger} (h : session.Follows ledger)
    (steps : List Step) : session.answers steps = ledger.answers steps := by
  induction steps generalizing session ledger with
  | nil => rfl
  | cons step rest ih => rw [answers, Ledger.answers, h.answer_eq, ih (h.step step)]

/-- Whatever is registered, removed, compiled and evaluated, in any order: every evaluation of a
compiled rule is that of its text over the whole registry as it stood when the rule was compiled.
The entries that a rule binds are as good as any registry with the same entries under the names that
its comparison needs and that are no bag's. No step changes a rule that was compiled before. -/
theorem answers_eq_ledger :
    (∀ (registry : Registry) (steps : List Step),
      (Session.mk registry []).answers steps = (Ledger.mk registry []).answers steps) ∧
    (∀ (source : String) (comparison : Comparison), Comparison.parse source = .ok comparison →
      ∀ first second : Registry,
        (∀ name ∈ comparison.names, Bag.ofWord? name = none →
          first.get? name = second.get? name) →
        ∀ attributes, comparison.evaluate (first.snapshot comparison.names) attributes =
          comparison.evaluate second attributes) ∧
    ∀ (session : Session) (number : Nat) (rule : Rule), session.rules[number]? = some rule →
      ∀ steps, (session.run steps).rules[number]? = some rule := by
  refine ⟨fun registry steps => Follows.answers_eq ⟨rfl, rfl⟩ steps, ?_,
    fun session number rule h => getElem?_run h⟩
  intro source comparison hparse first second h attributes
  rw [comparison.evaluate_snapshot]
  have hnone := Comparison.ofWord?_eq_none_of_parse hparse
  exact Comparison.evaluate_congr (fun name hname => h name hname (hnone name hname)) attributes

/-- A rule that names a value, compiled while the name stands for one and evaluated after the name
came to stand for another value and the registry was cleared; an entry under the name of a bag is
there all the while. -/
theorem answers_eq_ledger_cleared :
    let steps : List Step := [.register "limit" (.ofNat 1), .compileRule "limit == 1",
      .register "limit" (.ofNat 2), .evaluate 0 {}, .clear, .evaluate 0 {}]
    let comparison : Comparison := ⟨.name "limit", .equal, .literal (.ofNat 1)⟩
    let first : Registry := Registry.register .empty "limit" (.ofNat 1)
    let second : Registry := first.register "user" (.ofNat 2)
    (Session.mk .empty []).answers steps = (Ledger.mk .empty []).answers steps ∧
      ((Session.mk .empty []).answers steps).map (Option.map Traced.outcome) =
        [none, none, none, some (.ok true), none, some (.ok true)] ∧
      Comparison.parse "limit == 1" = .ok comparison ∧
      (comparison.evaluate (first.snapshot comparison.names) {}).outcome =
        (comparison.evaluate second {}).outcome ∧
      ((Session.mk first [.compile "limit == 1" first]).run steps).rules[0]? =
        some (.compile "limit == 1" first) := by
  intro steps comparison first second
  have hscan : Lexeme.scan "limit == 1" =
      .ok [⟨.name "limit", 0⟩, ⟨.relation .equal, 6⟩, ⟨.literal (.ofNat 1), 9⟩] := by
    decide +kernel
  have hparse : Comparison.parse "limit == 1" = .ok comparison := by
    rw [Comparison.parse_of_scan hscan]
    rfl
  have hagree : ∀ name ∈ comparison.names, Bag.ofWord? name = none →
      first.get? name = second.get? name := by
    intro name hname _
    rw [List.mem_singleton.mp (show name ∈ ["limit"] from hname)]
    rfl
  refine ⟨answers_eq_ledger.1 .empty steps, by decide +kernel, hparse, ?_,
    answers_eq_ledger.2.2 ⟨first, [.compile "limit == 1" first]⟩ 0 _ rfl steps⟩
  rw [answers_eq_ledger.2.1 "limit == 1" comparison hparse first second hagree {}]

end Session

end AccessControl
