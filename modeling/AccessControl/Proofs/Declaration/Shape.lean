import AccessControl.Config
import AccessControl.Declaration
import AccessControl.Proofs.Policy.Decision

/-!
# Groups and single target policies

An object that has the fields of a group, an expression and target policies, is read as a group just
where both fields are well-formed down to the last target policy. A group with a mistake in it is
not refused: members that are no field do not count in a single target policy, and so the object is
read as one. Where it has no rules of its own, the policy that it becomes gives every request the
same answer.
-/

namespace AccessControl

variable {ν α : Type}

/-- A text is read from a text alone. -/
theorem Value.isSome_string?_iff {value : Value ν} :
    value.string?.isSome ↔ ∃ text, value = .string text := by
  cases value <;> simp [string?]

/-- All items of a list are read just where each of them is. -/
theorem isSome_mapM_iff {β : Type} {read : α → Option β} {items : List α} :
    (items.mapM read).isSome ↔ ∀ item ∈ items, (read item).isSome := by
  induction items with
  | nil => simp
  | cons item rest ih =>
    rw [List.forall_mem_cons, ← ih, List.mapM_cons]
    cases read item with
    | none => simp
    | some value => cases rest.mapM read <;> simp

/-- A map is read from an object of which each member is read. -/
theorem Value.isSome_map?_iff {read : Value ν → Option α} {value : Value ν} :
    (value.map? read).isSome ↔
      ∃ members, value = .object members ∧ ∀ member ∈ members, (read member.2).isSome := by
  cases value with
  | object members =>
    rw [map?, Option.isSome_map, isSome_mapM_iff]
    simp only [Option.isSome_map, object.injEq, exists_eq_left']
  | _ => simp [map?]

/-- A list is read from an array of which each item is read. -/
theorem Value.isSome_list?_iff {read : Value ν → Option α} {value : Value ν} :
    (value.list? read).isSome ↔
      ∃ items, value = .array items ∧ ∀ item ∈ items, (read item).isSome := by
  cases value with
  | array items =>
    rw [list?, isSome_mapM_iff]
    simp only [array.injEq, exists_eq_left']
  | _ => simp [list?]

/-- A field with a default is read unless it is declared and not well-formed. -/
theorem Value.isSome_fieldOr_iff {members : List (String × Value ν)} {name : String} {default : α}
    {read : Value ν → Option α} :
    (fieldOr members name default read).isSome ↔
      ∀ value, NameMap.find name members = some value → (read value).isSome := by
  rw [fieldOr]
  cases NameMap.find name members <;> simp

namespace TargetSpec

/-- Whether the fields of a record are well-formed as those of a target policy, as far as they are
declared. -/
@[mk_iff]
structure IsTarget (members : List (String × Value ν)) : Prop where
  /-- The rules are a list of texts. -/
  rules : ∀ value, NameMap.find "target" members = some value →
    ∃ items, value = .array items ∧ ∀ item ∈ items, ∃ text, item = .string text
  /-- The algorithm is one. -/
  algorithm : ∀ value, NameMap.find "algorithm" members = some value →
    (Algorithm.ofValue? value).isSome
  /-- The effect is one. -/
  effect : ∀ value, NameMap.find "effect" members = some value → (Effect.ofValue? value).isSome

/-- The fields of a record are well-formed just where each of them can be read. -/
theorem isTarget_iff_isSome {members : List (String × Value ν)} :
    IsTarget members ↔
      (Value.fieldOr members "target" [] (fun rules => rules.list? Value.string?)).isSome ∧
        (Value.fieldOr members "algorithm" .all Algorithm.ofValue?).isSome ∧
        (Value.fieldOr members "effect" .deny Effect.ofValue?).isSome := by
  rw [isTarget_iff, Value.isSome_fieldOr_iff, Value.isSome_fieldOr_iff, Value.isSome_fieldOr_iff]
  simp only [Value.isSome_list?_iff, Value.isSome_string?_iff]

/-- Just the records with well-formed fields declare a target policy. -/
theorem isSome_ofValue?_iff {value : Value ν} :
    (ofValue? value).isSome ↔
      ∃ members, value.record? ["target", "algorithm", "effect"] = some members ∧
        IsTarget members := by
  rw [ofValue?]
  cases value.record? ["target", "algorithm", "effect"] with
  | none => simp
  | some members =>
    simp only [Option.bind_eq_bind, Option.bind_some, Option.some.injEq, exists_eq_left',
      isTarget_iff_isSome]
    cases Value.fieldOr members "target" [] (fun rules => rules.list? Value.string?) <;>
      cases Value.fieldOr members "algorithm" .all Algorithm.ofValue? <;>
      cases Value.fieldOr members "effect" .deny Effect.ofValue? <;> simp

/-- A target policy that does not declare its rules has none. -/
theorem rules_eq_nil_of_ofValue? {members : List (String × Value ν)} {spec : TargetSpec}
    (hspec : ofValue? (.object members) = some spec)
    (htarget : NameMap.find "target" members = none) : spec.rules = [] := by
  simp only [ofValue?, Value.record?, Value.fieldOr, htarget, Option.bind_eq_bind,
    Option.bind_some, Option.bind_eq_some_iff] at hspec
  obtain ⟨algorithm, -, effect, -, hspec⟩ := hspec
  rw [← Option.some.inj hspec]

end TargetSpec

namespace GroupSpec

variable {members : List (String × Value ν)} {expression policies : Value ν}

/-- Whether two values are well-formed as the fields of a group: a text, and an object of which each
member declares a target policy. -/
def IsGroup (expression policies : Value ν) : Prop :=
  (∃ text, expression = .string text) ∧
    ∃ members, policies = .object members ∧ ∀ member ∈ members, ∃ fields,
      member.2.record? ["target", "algorithm", "effect"] = some fields ∧ TargetSpec.IsTarget fields

/-- An object with the fields of a group declares a group just where they are well-formed. -/
theorem isSome_ofValue?_iff (hexpression : NameMap.find "expression" members = some expression)
    (hpolicies : NameMap.find "policies" members = some policies) :
    (ofValue? (.object members)).isSome ↔ IsGroup expression policies := by
  have hfields : ofValue? (.object members) =
      expression.string?.bind (fun text =>
        (policies.map? TargetSpec.ofValue?).map (fun targets => ⟨text, targets⟩)) := by
    simp only [ofValue?, Value.record?, Value.field?, hexpression, hpolicies,
      Option.bind_eq_bind, Option.bind_some, Option.map_eq_bind]
    rfl
  simp only [IsGroup, ← Value.isSome_string?_iff, ← TargetSpec.isSome_ofValue?_iff]
  rw [hfields, ← Value.isSome_map?_iff]
  cases expression.string? <;> simp

end GroupSpec

/-- A single target policy without rules gives every request the same answer. -/
theorem Policy.check_single_of_rules_eq_nil {spec : TargetSpec} (h : spec.rules = [])
    (name : String) (registry : Registry) (logging : Bool) (attributes : Attributes) :
    (single name spec registry logging).check attributes =
      spec.effect.apply spec.algorithm.start := by
  have htree : (single name spec registry logging).expression.tree = .ok [[.reference name]] := rfl
  rw [check_of_tree htree, Disjunction.holds, Atom.anyHolds, Atom.anyHolds, Atom.allHold,
    Atom.allHold, Atom.holds, Bool.and_true, Bool.or_false, results, NameMap.get?_mapValues, single,
    NameMap.get?_insert, if_pos rfl, TargetPolicy.compile, h]
  rfl

namespace PolicySpec

variable {members : List (String × Value ν)} {expression policies : Value ν}

/-- An object with the fields of a group is read as a group just where they are well-formed, and
otherwise as the single target policy that it declares, if it declares one. If it has no rules of
its own, then that policy passes the check of configurations and gives every request the same
answer: that of its effect and algorithm for no rules. -/
theorem ofValue?_of_fields (hexpression : NameMap.find "expression" members = some expression)
    (hpolicies : NameMap.find "policies" members = some policies) :
    ((∃ spec, ofValue? (.object members) = some (.group spec)) ↔
        GroupSpec.IsGroup expression policies) ∧
      (∀ spec, ofValue? (.object members) = some (.single spec) ↔
        ¬GroupSpec.IsGroup expression policies ∧
          TargetSpec.ofValue? (.object members) = some spec) ∧
      ∀ spec, ofValue? (.object members) = some (.single spec) →
        NameMap.find "target" members = none →
          (∀ name, ConfigFault.ofPolicy? name (.single spec) = none) ∧
            ∀ name registry logging attributes,
              (Policy.ofSpec name (.single spec) registry logging).check attributes =
                spec.effect.apply spec.algorithm.start := by
  have hgroup := GroupSpec.isSome_ofValue?_iff hexpression hpolicies
  have hsingle : ∀ spec, ofValue? (.object members) = some (.single spec) ↔
      ¬GroupSpec.IsGroup expression policies ∧
        TargetSpec.ofValue? (.object members) = some spec := by
    intro spec
    rw [← hgroup, ofValue?]
    cases GroupSpec.ofValue? (.object members) <;> simp
  refine ⟨?_, hsingle, ?_⟩
  · rw [← hgroup, ofValue?]
    cases GroupSpec.ofValue? (.object members) <;> simp
  · intro spec hspec htarget
    have hrules := TargetSpec.rules_eq_nil_of_ofValue? ((hsingle spec).mp hspec).2 htarget
    refine ⟨fun name => ?_, Policy.check_single_of_rules_eq_nil hrules⟩
    simp only [ConfigFault.ofPolicy?, PolicyFault.ofTarget?, hrules, List.findSome?_nil,
      Option.map_none]

/-- The target policies of `misspelled`. -/
def misspelledTargets : Json :=
  .object [("adult", .object [("effect", .string "permitt"),
    ("target", .array [.string "user.age >= 18"])])]

/-- The members of an object that is meant as a group and misspells an effect. -/
def misspelled : List (String × Json) :=
  [("effect", .string "permit"), ("expression", .string "data.adult"),
    ("policies", misspelledTargets)]

/-- The policy that is read from the misspelled group grants every request. -/
theorem ofValue?_of_fields_misspelled :
    NameMap.find "expression" misspelled = some (.string "data.adult") ∧
      NameMap.find "policies" misspelled = some misspelledTargets ∧
      ∀ name registry logging attributes,
        (Policy.ofSpec name (.single ⟨[], .all, .permit⟩) registry logging).check attributes =
          true := by
  have hexpression : NameMap.find "expression" misspelled = some (.string "data.adult") := rfl
  have hpolicies : NameMap.find "policies" misspelled = some misspelledTargets := rfl
  have hread : ofValue? (.object misspelled) = some (.single ⟨[], .all, .permit⟩) := rfl
  have hchecks := (ofValue?_of_fields hexpression hpolicies).2.2 _ hread rfl
  exact ⟨hexpression, hpolicies, hchecks.2⟩

/-- Not every object with the fields of a group is read as a group or refused. -/
theorem not_group_of_fields :
    ¬∀ (members : List (String × Json)) (expression policies : Json),
      NameMap.find "expression" members = some expression →
        NameMap.find "policies" members = some policies →
          ∀ spec, ofValue? (.object members) ≠ some (.single spec) := by
  intro h
  exact h misspelled (.string "data.adult") misspelledTargets rfl rfl ⟨[], .all, .permit⟩ rfl

end PolicySpec

end AccessControl
