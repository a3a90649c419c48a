import AccessControl.Config.Declaration

/-!
# Written forms

Whatever is declared has a written form, and reading the written form gives back what was written:
maps with all their entries, lists in their order, keywords, and injected values with their kinds of
numbers. The written form of a single target policy has none of the members that a group needs, and
so neither shape of a policy is taken for the other one.
-/

namespace AccessControl

namespace Value

variable {ν α : Type} {read : Value ν → Option α} {write : α → Value ν}

/-- A list is read back where its items are. -/
theorem list?_ofList (h : ∀ item, read (write item) = some item) (items : List α) :
    (ofList write items).list? read = some items := by
  induction items with
  | nil => rfl
  | cons item rest ih =>
    have hrest : (rest.map write).mapM read = some rest := ih
    rw [ofList, list?, List.map_cons, List.mapM_cons, h, hrest]
    rfl

/-- A map is read back where its values are. -/
theorem map?_ofNameMap (h : ∀ value, read (write value) = some value) (map : NameMap α) :
    (ofNameMap write map).map? read = some map := by
  have hentries : ∀ entries : List (String × α),
      (entries.map (fun entry => (entry.1, write entry.2))).mapM
          (fun member => (read member.2).map (fun value => (member.1, value))) =
        some entries := by
    intro entries
    induction entries with
    | nil => rfl
    | cons entry rest ih =>
      rw [List.map_cons, List.mapM_cons, h, ih]
      rfl
  have hmembers : ofNameMap write map =
      .object (map.entries.map (fun entry => (entry.1, write entry.2))) := rfl
  rw [hmembers, map?, hentries, Option.map_some, map.ofList_entries]

end Value

namespace Json

mutual

/-- A value whose numbers are replaced by themselves stays as it is. -/
theorem replaceNumbers?_number : (value : Json) →
    value.replaceNumbers? (fun n => some (.number n)) = some value
  | .null | .bool _ | .number _ | .string _ => rfl
  | .array items => by rw [Value.replaceNumbers?, replaceInItems?_number items, Option.map_some]
  | .object members => by
    rw [Value.replaceNumbers?, replaceInMembers?_number members, Option.map_some]

/-- Items whose numbers are replaced by themselves stay as they are. -/
theorem replaceInItems?_number : (items : List Json) →
    Value.replaceInItems? (fun n => some (.number n)) items = some items
  | [] => rfl
  | item :: rest => by
    rw [Value.replaceInItems?, replaceNumbers?_number item, replaceInItems?_number rest]
    rfl

/-- Members whose numbers are replaced by themselves stay as they are. -/
theorem replaceInMembers?_number : (members : List (String × Json)) →
    Value.replaceInMembers? (fun n => some (.number n)) members = some members
  | [] => rfl
  | (name, value) :: rest => by
    rw [Value.replaceInMembers?, replaceNumbers?_number value, replaceInMembers?_number rest]
    rfl

end

end Json

section

variable {ν : Type}

/-- The word for an algorithm is read as the algorithm. -/
theorem Algorithm.ofValue?_toValue (algorithm : Algorithm) :
    ofValue? (algorithm.toValue : Value ν) = some algorithm := by
  cases algorithm <;> rfl

/-- The word for an effect is read as the effect. -/
theorem Effect.ofValue?_toValue (effect : Effect) :
    ofValue? (effect.toValue : Value ν) = some effect := by
  cases effect <;> rfl

/-- An object with the three fields of a target policy in their written forms is read as the target
policy, whatever else is in it. -/
theorem TargetSpec.ofValue?_of_written {members : List (String × Value ν)} {spec : TargetSpec}
    (hrules : NameMap.find "target" members = some (.ofList .string spec.rules))
    (halgorithm : NameMap.find "algorithm" members = some spec.algorithm.toValue)
    (heffect : NameMap.find "effect" members = some spec.effect.toValue) :
    ofValue? (.object members) = some spec := by
  have htext : ∀ text : String, (Value.string text : Value ν).string? = some text := fun _ => rfl
  have hlist : (Value.ofList .string spec.rules : Value ν).list? Value.string? =
      some spec.rules := Value.list?_ofList htext spec.rules
  simp only [ofValue?, Value.record?, Value.fieldOr, hrules, halgorithm, heffect, hlist,
    Algorithm.ofValue?_toValue, Effect.ofValue?_toValue, Option.bind_eq_bind, Option.bind_some]

/-- The written form of a target policy is read as the target policy. -/
theorem TargetSpec.ofValue?_toValue (spec : TargetSpec) :
    ofValue? (spec.toValue : Value ν) = some spec :=
  ofValue?_of_written rfl rfl rfl

/-- The written form of a group is read as the group. -/
theorem GroupSpec.ofValue?_toValue (spec : GroupSpec) :
    ofValue? (spec.toValue : Value ν) = some spec := by
  have hfields : ofValue? (spec.toValue : Value ν) =
      ((Value.ofNameMap TargetSpec.toValue spec.targets : Value ν).map? TargetSpec.ofValue?).bind
        (fun targets => some ⟨spec.expression, targets⟩) := rfl
  rw [hfields, Value.map?_ofNameMap TargetSpec.ofValue?_toValue, Option.bind_some]

/-- The written form of a single target policy is not read as a group. -/
theorem GroupSpec.ofValue?_toValue_target (spec : TargetSpec) :
    ofValue? (spec.toValue : Value ν) = none := rfl

/-- The written form of a policy is read as the policy. -/
theorem PolicySpec.ofValue?_toValue (spec : PolicySpec) :
    ofValue? (spec.toValue : Value ν) = some spec := by
  cases spec with
  | group spec => rw [toValue, ofValue?, GroupSpec.ofValue?_toValue]
  | single spec =>
    rw [toValue, ofValue?, GroupSpec.ofValue?_toValue_target, TargetSpec.ofValue?_toValue,
      Option.map_some]

/-- The written form of settings is read as the settings. -/
theorem Settings.ofValue?_toValue (settings : Settings) :
    ofValue? Value.bool? (settings.toValue : Value ν) = some settings := rfl

end

/-- The written form of a request is read as the request. -/
theorem Attributes.ofValue?_toValue (attributes : Attributes) :
    ofValue? attributes.toValue = some attributes := rfl

/-- A policy that a plain value declares is declared in a configuration of plain values. -/
theorem Config.policy?_number (value : Json) :
    policy? (fun n => some (.number n)) value = PolicySpec.ofValue? value := by
  rw [policy?, Json.replaceNumbers?_number]
  rfl

/-- The injected values of a configuration are read back from their written form. -/
theorem Config.injected_ofMap (injected : NameMap Json) :
    (Value.ofMap injected).map? (Value.replaceNumbers? (fun n => some (.number n))) =
      some injected := by
  have hmap : Value.ofMap injected = Value.ofNameMap id injected := by
    rw [Value.ofNameMap, NameMap.mapValues_id]
  rw [hmap]
  exact Value.map?_ofNameMap Json.replaceNumbers?_number injected

/-- The written form of a configuration is read as the configuration. -/
theorem Config.ofJson?_toValue (config : Config) : ofJson? config.toValue = some config := by
  have hfields : ofJson? config.toValue =
      ((Value.ofMap config.injected).map?
        (Value.replaceNumbers? (fun n => some (.number n)))).bind (fun injected =>
          ((Value.ofNameMap PolicySpec.toValue config.policies).map?
            (policy? (fun n => some (.number n)))).bind (fun policies =>
              some ⟨config.evaluation, injected, policies⟩)) := rfl
  have hpolicy : ∀ spec : PolicySpec,
      policy? (fun n => some (.number n)) (spec.toValue : Json) = some spec := by
    intro spec
    rw [policy?_number, PolicySpec.ofValue?_toValue]
  rw [hfields, injected_ofMap, Option.bind_some, Value.map?_ofNameMap hpolicy, Option.bind_some]

/-- Whatever can be declared is read back from its written form as it was: target policies, groups,
policies of either shape, settings, requests, and configurations with all their policies and
injected values, whose numbers keep their kinds. A single target policy is never read back as a
group, nor a group as a single target policy. -/
theorem written_forms_read_back (ν : Type) :
    (∀ spec : TargetSpec, TargetSpec.ofValue? (spec.toValue : Value ν) = some spec) ∧
      (∀ spec : GroupSpec, GroupSpec.ofValue? (spec.toValue : Value ν) = some spec) ∧
      (∀ spec : PolicySpec, PolicySpec.ofValue? (spec.toValue : Value ν) = some spec ∧
        (PolicySpec.ofValue? (spec.toValue : Value ν)).map PolicySpec.isSingle =
          some spec.isSingle) ∧
      (∀ settings : Settings,
        Settings.ofValue? Value.bool? (settings.toValue : Value ν) = some settings) ∧
      (∀ attributes : Attributes, Attributes.ofValue? attributes.toValue = some attributes) ∧
      ∀ config : Config, Config.ofJson? config.toValue = some config := by
  refine ⟨TargetSpec.ofValue?_toValue, GroupSpec.ofValue?_toValue, fun spec => ?_,
    Settings.ofValue?_toValue, Attributes.ofValue?_toValue, Config.ofJson?_toValue⟩
  rw [PolicySpec.ofValue?_toValue]
  exact ⟨rfl, rfl⟩

end AccessControl
