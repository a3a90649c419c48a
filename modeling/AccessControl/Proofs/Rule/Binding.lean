import AccessControl.Proofs.Rule.Acceptance
import AccessControl.Proofs.Rule.Leaves
import AccessControl.Rule

/-!
# Binding of injected names

A rule keeps the injected entries of the names that its comparison needs. Evaluation looks up no
other name: two scopes that agree on those names give the same value, the same fault and the same
calls. So a rule is evaluated as its comparison over the whole registry from which the entries were
taken. The names of attribute bags are never among the needed names of a comparison that was read
from a text, and entries under them do not matter.
-/

namespace AccessControl

/-- Whether two registries have the same entries under the listed names. -/
def Registry.AgreeOn (names : List String) (first second : Registry) : Prop :=
  ∀ name ∈ names, first.get? name = second.get? name

namespace Operand

variable {first second : Registry}

mutual

/-- An operand has the same evaluation over scopes that agree on the names that it needs. -/
theorem evaluate_congr (attributes : Attributes) : (operand : Operand) →
    Registry.AgreeOn operand.names first second →
      operand.evaluate first attributes = operand.evaluate second attributes
  | .literal _, _ => rfl
  | .bag _, _ => rfl
  | .name word, h => by
    rw [evaluate, evaluate, h word (List.mem_singleton.mpr rfl)]
  | .field base key, h => by
    rw [evaluate, evaluate, evaluate_congr attributes base h]
  | .index base position, h => by
    rw [names] at h
    rw [evaluate, evaluate,
      evaluate_congr attributes base (fun name hname => h name (List.mem_append_left _ hname)),
      evaluate_congr attributes position (fun name hname => h name (List.mem_append_right _ hname))]
  | .call function operands, h => by
    rw [names] at h
    rw [evaluate, evaluate, h function List.mem_cons_self,
      evaluateAll_congr attributes operands
        (fun name hname => h name (List.mem_cons_of_mem _ hname))]
  | .negative inner, h => by
    rw [evaluate, evaluate, evaluate_congr attributes inner h]
  | .arithmetic left operator right, h => by
    rw [names] at h
    rw [evaluate, evaluate,
      evaluate_congr attributes left (fun name hname => h name (List.mem_append_left _ hname)),
      evaluate_congr attributes right (fun name hname => h name (List.mem_append_right _ hname))]

/-- Operands have the same evaluation over scopes that agree on the names that they need. -/
theorem evaluateAll_congr (attributes : Attributes) : (operands : List Operand) →
    Registry.AgreeOn (namesOfAll operands) first second →
      evaluateAll first attributes operands = evaluateAll second attributes operands
  | [], _ => rfl
  | operand :: rest, h => by
    rw [namesOfAll] at h
    rw [evaluateAll, evaluateAll,
      evaluate_congr attributes operand (fun name hname => h name (List.mem_append_left _ hname)),
      evaluateAll_congr attributes rest
        (fun name hname => h name (List.mem_append_right _ hname))]

end

end Operand

namespace Comparison

/-- A comparison has the same evaluation over scopes that agree on the names that it needs. -/
theorem evaluate_congr {comparison : Comparison} {first second : Registry}
    (h : Registry.AgreeOn comparison.names first second) (attributes : Attributes) :
    comparison.evaluate first attributes = comparison.evaluate second attributes := by
  rw [names] at h
  rw [evaluate, evaluate,
    Operand.evaluate_congr attributes comparison.left
      (fun name hname => h name (List.mem_append_left _ hname)),
    Operand.evaluate_congr attributes comparison.right
      (fun name hname => h name (List.mem_append_right _ hname))]

/-- A snapshot agrees with its registry on the names that it was taken for. -/
theorem agreeOn_snapshot (registry : Registry) (names : List String) :
    Registry.AgreeOn names (registry.snapshot names) registry := by
  intro name hname
  rw [Registry.snapshot, NameMap.get?_restrict, if_pos (List.contains_iff_mem.mpr hname)]

/-- The snapshot for the names of a comparison is as good as the whole registry. -/
theorem evaluate_snapshot (comparison : Comparison) (registry : Registry)
    (attributes : Attributes) :
    comparison.evaluate (registry.snapshot comparison.names) attributes =
      comparison.evaluate registry attributes :=
  evaluate_congr (agreeOn_snapshot registry comparison.names) attributes

/-- No name of a bag is needed by a comparison that was read from a text. -/
theorem ofWord?_eq_none_of_parse {text : String} {comparison : Comparison}
    (h : parse text = .ok comparison) :
    ∀ name ∈ comparison.names, Bag.ofWord? name = none := by
  cases hscan : Lexeme.scan text with
  | error cause =>
    rw [parse, hscan] at h
    cases h
  | ok lexemes =>
    rw [parse_of_scan hscan] at h
    obtain ⟨m, -, n, -, left, right, -, -, -, hleft, hright⟩ := ofLexemes_sound h
    have hany : ∀ tokens : List Token, ∀ token ∈ tokens, (fun _ => True) token :=
      fun _ _ _ => trivial
    exact List.forall_mem_append.mpr
      ⟨(hleft.madeOf (hany left)).ofWord?_eq_none, (hright.madeOf (hany right)).ofWord?_eq_none⟩

end Comparison

namespace Rule

/-- What a text means as a rule over a whole registry: the truth value of its comparison with every
entry of the registry in scope. -/
def meaning (source : String) (registry : Registry) (attributes : Attributes) :
    Traced RuleError Bool :=
  match Comparison.parse source with
  | .error cause => .ofExcept (.error (.uncompiled source cause))
  | .ok comparison => (comparison.evaluate registry attributes).mapError (RuleError.faulted source)

/-- A compiled rule has the meaning of its text over the registry that it was compiled over. -/
theorem evaluate_compile (source : String) (registry : Registry) (attributes : Attributes) :
    (compile source registry).evaluate attributes = meaning source registry attributes := by
  rw [compile, meaning]
  cases Comparison.parse source with
  | error cause => rfl
  | ok comparison =>
    simp only [evaluate, comparison.evaluate_snapshot registry attributes]

end Rule

end AccessControl
