import AccessControl.Config.Load
import AccessControl.Proofs.Config.Overlay
import AccessControl.Proofs.Declaration.Shape
import AccessControl.Proofs.Declaration.Writing

/-!
# Policies that layers override

A layer that declares a target policy completely, with rules, algorithm and effect, has its say on
these three fields, whatever the layers below it hold. But layers are laid over each other member by
member, and the shape of a policy is read off the whole: what the layers below hold for the two
fields of a group stays, and where both are well-formed the policy is a group. Where they are not,
it is the single target policy of the override.
-/

namespace AccessControl

open Setting

/-- Entries whose values are all read keep their names, and what is found among them is read from
what was found. -/
theorem NameMap.find_of_mapM {α β : Type} {read : α → Option β} {members : List (String × α)}
    {entries : List (String × β)}
    (h : members.mapM (fun member => (read member.2).map (fun value => (member.1, value))) =
      some entries) :
    entries.map (·.1) = members.map (·.1) ∧
      ∀ name, find name entries = (find name members).bind read := by
  induction members generalizing entries with
  | nil =>
    obtain rfl : [] = entries := Option.some.inj h
    exact ⟨rfl, fun _ => rfl⟩
  | cons member rest ih =>
    obtain ⟨other, inner⟩ := member
    rw [List.mapM_cons] at h
    obtain ⟨entry, hentry, hrest⟩ := Option.bind_eq_some_iff.mp h
    obtain ⟨value, hvalue, rfl⟩ := Option.map_eq_some_iff.mp hentry
    obtain ⟨others, hothers, heq⟩ := Option.bind_eq_some_iff.mp hrest
    obtain rfl : (other, value) :: others = entries := Option.some.inj heq
    obtain ⟨hnames, hfind⟩ := ih hothers
    refine ⟨?_, fun name => ?_⟩
    · rw [List.map_cons, List.map_cons, hnames]
    · rw [find, find]
      split
      · exact hvalue.symm
      · exact hfind name

/-- A map has the members that were read, under their names. -/
theorem Value.get?_of_map? {ν α : Type} {read : Value ν → Option α}
    {members : List (String × Value ν)} {map : NameMap α} (hascending : NameMap.Ascending members)
    (h : (Value.object members).map? read = some map) (name : String) :
    map.get? name = (NameMap.find name members).bind read := by
  obtain ⟨entries, hentries, rfl⟩ := Option.map_eq_some_iff.mp h
  obtain ⟨hnames, hfind⟩ := NameMap.find_of_mapM hentries
  have hordered : NameMap.Ascending entries := by
    refine List.pairwise_map.mp ?_
    rw [hnames]
    exact List.pairwise_map.mpr hascending
  rw [NameMap.get?_ofList_of_ascending hordered, hfind]

namespace Setting

/-- What a configuration never looks at is not among its policies. -/
theorem find_trimmedMember {name : String} (h : name ≠ "evaluation")
    (members : List (String × Setting)) :
    NameMap.find name (members.map trimmedMember) = NameMap.find name members := by
  induction members with
  | nil => rfl
  | cons member rest ih =>
    obtain ⟨other, value⟩ := member
    rw [List.map_cons, NameMap.find]
    by_cases hother : name = other
    · have hsame : trimmedMember (other, value) = (other, value) := by
        rw [trimmedMember]
        intro items heq
        exact h (hother.trans (congrArg Prod.fst heq))
      rw [hsame, NameMap.find, if_pos hother, if_pos hother]
    · have hnames : (trimmedMember (other, value)).1 = other := by
        rw [trimmedMember.eq_def]
        split
        · rename_i heq
          exact (congrArg Prod.fst heq).symm
        · rfl
      rw [NameMap.find, hnames, if_neg hother, if_neg hother, ih]

/-- What is reached by one name is found under the name. -/
theorem find_of_reached {name : String} {members : List (String × Setting)} {value : Setting}
    (h : reached [name] (.object members) = value) (hvalue : value ≠ .null) :
    NameMap.find name members = some value := by
  subst h
  obtain ⟨_, inner, hobject, hfind, hinner⟩ := exists_of_reached_ne_null hvalue
  cases hobject
  rw [hfind, ← hinner, reached]

end Setting

/-- A policy of a configuration is read from what its name reaches in the settings. -/
theorem Config.get?_policies_of_ofSetting? {setting : Setting} {config : Config} {name : String}
    (h : ofSetting? setting = some config) (hordered : setting.Ordered)
    (hname : reached ["policies", name] setting ≠ .null) :
    config.policies.get? name = PolicySpec.ofValue? (reached ["policies", name] setting) := by
  obtain ⟨members, policies, rfl, hpolicies, hbelow⟩ := exists_of_reached_ne_null hname
  rw [← hbelow] at hname ⊢
  obtain ⟨specs, value, rfl, hvalue, hinner⟩ := exists_of_reached_ne_null hname
  have hascending : NameMap.Ascending specs := by
    have hreached := hordered ["policies"]
    rwa [reached, Setting.members, hpolicies] at hreached
  have hmap : (Value.object specs).map? (policy? SourceNumber.toJson?) = some config.policies := by
    have htrimmed : NameMap.find "policies" (members.map trimmedMember) = some (.object specs) := by
      rw [find_trimmedMember (by decide), hpolicies]
    simp only [ofSetting?, trimmed, ofValue?, Value.record?, Value.fieldOr, htrimmed,
      Option.bind_eq_bind, Option.bind_some, Option.bind_eq_some_iff] at h
    obtain ⟨evaluation, -, injected, -, policies, hmap, heq⟩ := h
    rw [hmap, ← Option.some.inj heq]
  have hsome : (policy? SourceNumber.toJson? value).isSome := by
    have hget : (NameMap.mk specs hascending).get? name = some value := hvalue
    have hmem : (name, value) ∈ specs := NameMap.get?_eq_some_iff.mp hget
    obtain ⟨_, hobject, hread⟩ := Value.isSome_map?_iff.mp (Option.isSome_of_eq_some hmap)
    cases hobject
    exact hread (name, value) hmem
  have hpolicy : policy? SourceNumber.toJson? value = PolicySpec.ofValue? value := by
    rw [policy?] at hsome ⊢
    split at hsome
    case isTrue hnumbers => rw [if_pos hnumbers]
    case isFalse => cases hsome
  rw [Value.get?_of_map? hascending hmap, hvalue, Option.bind_some, hpolicy, ← hinner, reached]

/-- A policy is a group just where its two fields are reached and well-formed. -/
theorem GroupSpec.ofValue?_eq_reached (members : List (String × Setting)) :
    ofValue? (.object members) =
      (reached ["expression"] (.object members)).string?.bind (fun text =>
        ((reached ["policies"] (.object members)).map? TargetSpec.ofValue?).map
          (fun targets => ⟨text, targets⟩)) := by
  have hfield : ∀ {α : Type} (name : String) (read : Setting → Option α), read .null = none →
      Value.field? members name read = read (reached [name] (.object members)) := by
    intro α name read hnull
    rw [Value.field?, reached, reached, Setting.members]
    cases NameMap.find name members with
    | none => rw [Option.getD_none, hnull]
    | some value => rw [Option.getD_some]
  have hexpression := hfield "expression" Value.string? rfl
  have hpolicies := hfield "policies" (fun targets => targets.map? TargetSpec.ofValue?) rfl
  simp only [ofValue?, Value.record?, hexpression, hpolicies, Option.bind_eq_bind,
    Option.bind_some, Option.map_eq_bind]
  rfl

/-- A setting in which the three fields of a target policy are reached in their written forms is an
object, and is read as the target policy. -/
theorem TargetSpec.ofValue?_of_reached {setting : Setting} {spec : TargetSpec}
    (hrules : reached ["target"] setting = .ofList .string spec.rules)
    (halgorithm : reached ["algorithm"] setting = spec.algorithm.toValue)
    (heffect : reached ["effect"] setting = spec.effect.toValue) :
    ∃ members, setting = .object members ∧ ofValue? setting = some spec := by
  have hlist : (Value.ofList .string spec.rules : Setting) ≠ .null := nofun
  have hword : (spec.algorithm.toValue : Setting) ≠ .null := nofun
  have hkeyword : (spec.effect.toValue : Setting) ≠ .null := nofun
  have hsomething : reached ["target"] setting ≠ .null := by rwa [hrules]
  obtain ⟨members, -, rfl, -, -⟩ := exists_of_reached_ne_null hsomething
  have hread := ofValue?_of_written (find_of_reached hrules hlist)
    (find_of_reached halgorithm hword) (find_of_reached heffect hkeyword)
  exact ⟨members, rfl, hread⟩

namespace Layer

/-- The group that layers leave for a policy, if the fields of one are well-formed. -/
def group? (layers : List Layer) (name : String) : Option GroupSpec :=
  (reached ["policies", name, "expression"] (stack layers)).string?.bind (fun text =>
    ((reached ["policies", name, "policies"] (stack layers)).map? TargetSpec.ofValue?).map
      (fun targets => ⟨text, targets⟩))

/-- A layer that declares a target policy completely under a name that the layers above it do not
mention. -/
structure Overrides (layer : Layer) (above : List Layer) (name : String) (spec : TargetSpec) :
    Prop where
  /-- The layer sets the rules. -/
  rules : layer.Sets ["policies", name, "target"] (.ofList .string spec.rules)
  /-- The layer sets the algorithm. -/
  algorithm : layer.Sets ["policies", name, "algorithm"] spec.algorithm.toValue
  /-- The layer sets the effect. -/
  effect : layer.Sets ["policies", name, "effect"] spec.effect.toValue
  /-- The layers above leave the policy. -/
  last : ∀ other ∈ above, other.mentions ["policies", name] = false

variable {below above : List Layer} {layer : Layer} {name : String} {spec : TargetSpec}

/-- A field of a policy that no layer above mentions is as the layer below them leaves it. -/
theorem reached_stack_field (h : ∀ other ∈ above, other.mentions ["policies", name] = false)
    (field : String) :
    reached ["policies", name, field] (stack (below ++ layer :: above)) =
      reached ["policies", name, field] (layer.applyTo (stack below)) := by
  have happend := reached_append ["policies", name] [field]
  calc reached ["policies", name, field] (stack (below ++ layer :: above))
      = reached [field] (reached ["policies", name] (stack (below ++ layer :: above))) :=
        happend _
    _ = reached [field] (reached ["policies", name] (layer.applyTo (stack below))) := by
        rw [reached_stack h]
    _ = reached ["policies", name, field] (layer.applyTo (stack below)) := (happend _).symm

/-- An overridden policy is read from the layers as the group that they leave, and otherwise as the
target policy of the override. -/
theorem Overrides.ofValue?_reached (h : layer.Overrides above name spec) (below : List Layer) :
    PolicySpec.ofValue? (reached ["policies", name] (stack (below ++ layer :: above))) =
      some (((group? (below ++ layer :: above) name).map .group).getD (.single spec)) := by
  have hrules := h.rules.reached_applyTo rfl (stack below)
  have halgorithm := h.algorithm.reached_applyTo rfl (stack below)
  have heffect := h.effect.reached_applyTo rfl (stack below)
  have hfield : ∀ field, reached ["policies", name, field] (stack (below ++ layer :: above)) =
      reached [field] (reached ["policies", name] (stack (below ++ layer :: above))) :=
    fun field => reached_append ["policies", name] [field] _
  rw [← reached_stack_field h.last, hfield] at hrules halgorithm heffect
  rw [group?, hfield, hfield]
  generalize reached ["policies", name] (stack (below ++ layer :: above)) = policy at *
  obtain ⟨members, rfl, htarget⟩ := TargetSpec.ofValue?_of_reached hrules halgorithm heffect
  rw [← GroupSpec.ofValue?_eq_reached, PolicySpec.ofValue?, htarget]
  cases GroupSpec.ofValue? (.object members) <;> rfl

/-- A layer that does not mention the fields of a group leaves those of the layers below it. -/
theorem Overrides.group?_eq (h : layer.Overrides above name spec)
    (hexpression : layer.mentions ["policies", name, "expression"] = false)
    (hpolicies : layer.mentions ["policies", name, "policies"] = false) :
    group? (below ++ layer :: above) name = group? below name := by
  have hleft : ∀ field, layer.mentions ["policies", name, field] = false →
      reached ["policies", name, field] (stack (below ++ layer :: above)) =
        reached ["policies", name, field] (stack below) := by
    intro field hfield
    rw [reached_stack_field h.last, reached_applyTo hfield]
  rw [group?, group?, hleft "expression" hexpression, hleft "policies" hpolicies]

end Layer

namespace Config

/-- A configuration that is loaded is the one that the layers of its sources declare. -/
theorem ofSetting?_of_load {sources : Sources} {layers : List Layer} {config : Config}
    (hlayers : sources.layers? = some layers) (h : load sources = .ok config) :
    ofSetting? (Layer.stack layers) = some config := by
  rw [load, hlayers] at h
  simp only at h
  split at h
  case h_1 => cases h
  case h_2 loaded hloaded =>
    split at h
    case h_1 => cases h
    case h_2 => rw [hloaded, Except.ok.inj h]

/-- Where a layer declares a target policy completely and the layers above it do not mention the
policy, the loaded policy is the target policy of the override, unless the fields of a group are
well-formed in what all layers leave. Then it is that group. The override is not needed for the
group: where the layer does not mention its fields, the layers below have left them. -/
theorem get?_policies_of_overrides {sources : Sources} {below above : List Layer} {layer : Layer}
    {name : String} {spec : TargetSpec} {config : Config}
    (hlayers : sources.layers? = some (below ++ layer :: above))
    (hoverrides : layer.Overrides above name spec) (hload : load sources = .ok config) :
    (Layer.group? (below ++ layer :: above) name = none →
        config.policies.get? name = some (.single spec)) ∧
      (∀ group, Layer.group? (below ++ layer :: above) name = some group →
        config.policies.get? name = some (.group group)) ∧
      (layer.mentions ["policies", name, "expression"] = false →
        layer.mentions ["policies", name, "policies"] = false →
          Layer.group? (below ++ layer :: above) name = Layer.group? below name) := by
  have hread := hoverrides.ofValue?_reached below
  have hsomething : reached ["policies", name] (Layer.stack (below ++ layer :: above)) ≠ .null := by
    intro hnull
    rw [hnull] at hread
    cases hread
  have hpolicy : config.policies.get? name =
      some (((Layer.group? (below ++ layer :: above) name).map .group).getD (.single spec)) := by
    rw [← hread]
    exact get?_policies_of_ofSetting? (ofSetting?_of_load hlayers hload)
      (Layer.ordered_stack _) hsomething
  refine ⟨fun hnone => ?_, fun group hgroup => ?_, hoverrides.group?_eq⟩
  · rw [hpolicy, hnone]
    rfl
  · rw [hpolicy, hgroup]
    rfl

/-- The target policy of an override. -/
def adults : TargetSpec := ⟨["user.age >= 18"], .any, .permit⟩

/-- The layer of a file that overrides a policy with a complete target policy. -/
def adultsLayer : Layer := [("policies", .object [("access", adults.toValue)])]

/-- Sources of which the project's file has some text, and the file of local overrides declares the
policy. -/
def overriddenSources (project : String) : Sources where
  project := some project
  overrides := some
    "policies.access = \x7b target = ['user.age >= 18'], algorithm = 'any', effect = 'permit' \x7d"

/-- A layer with the complete target policy overrides the policy. -/
theorem overrides_adultsLayer : adultsLayer.Overrides [[]] "access" adults := by
  have hnames : ∀ path, adultsLayer.ByNames path := by
    rintro path entry hentry -
    obtain rfl := List.mem_singleton.mp hentry
    have hsteps : stepsOf "policies" = [.member "policies"] := by decide +kernel
    rintro step hstep
    rw [hsteps] at hstep
    exact ⟨"policies", List.mem_singleton.mp hstep⟩
  refine ⟨⟨hnames _, ?_⟩, ⟨hnames _, ?_⟩, ⟨hnames _, ?_⟩, ?_⟩
  · decide +kernel
  · decide +kernel
  · decide +kernel
  · rintro other hother
    obtain rfl := List.mem_singleton.mp hother
    rfl

/-- The text of a project's file that has one of the two fields of a group. -/
def halfText : String := "policies.access.expression = 'data.adults'"

/-- The layer of the file. -/
def halfLayer : Layer :=
  [("policies", .object [("access", .object [("expression", .string "data.adults")])])]

/-- A layer that leaves one of the two fields of a group does not turn an override into a group. -/
theorem get?_policies_of_overrides_half :
    (overriddenSources halfText).layers? =
        some ([Sources.builtIn, [], halfLayer] ++ adultsLayer :: [[]]) ∧
      adultsLayer.Overrides [[]] "access" adults ∧
      load (overriddenSources halfText) = .ok { policies := .ofList [("access", .single adults)] } ∧
      (NameMap.ofList [("access", PolicySpec.single adults)]).get? "access" =
        some (.single adults) := by
  have hlayers : (overriddenSources halfText).layers? =
      some ([Sources.builtIn, [], halfLayer] ++ adultsLayer :: [[]]) := by decide +kernel
  have hload : load (overriddenSources halfText) =
      .ok { policies := .ofList [("access", .single adults)] } := by
    rw [load, hlayers]
    decide +kernel
  have hpolicy := get?_policies_of_overrides hlayers overrides_adultsLayer hload
  exact ⟨hlayers, overrides_adultsLayer, hload, hpolicy.1 (by decide +kernel)⟩

/-- The text of a project's file that declares a group. -/
def groupedText : String :=
  "policies.access.expression = 'data.staff'\npolicies.access.policies.staff.target = []"

/-- The layer of the file. -/
def groupedLayer : Layer :=
  [("policies", .object [("access", .object [("expression", .string "data.staff"),
    ("policies", .object [("staff", .object [("target", .array [])])])])])]

/-- The group of the file. -/
def staff : GroupSpec := ⟨"data.staff", .ofList [("staff", ⟨[], .all, .deny⟩)]⟩

/-- Not every complete override decides what is loaded: over a group it is the group. -/
theorem not_single_of_overrides :
    ¬∀ (sources : Sources) (below above : List Layer) (layer : Layer) (name : String)
        (spec : TargetSpec) (config : Config),
      sources.layers? = some (below ++ layer :: above) → layer.Overrides above name spec →
        load sources = .ok config → config.policies.get? name = some (.single spec) := by
  intro h
  have hlayers : (overriddenSources groupedText).layers? =
      some ([Sources.builtIn, [], groupedLayer] ++ adultsLayer :: [[]]) := by decide +kernel
  have hload : load (overriddenSources groupedText) =
      .ok { policies := .ofList [("access", .group staff)] } := by
    rw [load, hlayers]
    decide +kernel
  have hgroup : (NameMap.ofList [("access", PolicySpec.group staff)]).get? "access" =
      some (.group staff) := by decide +kernel
  have hsingle := h _ _ _ _ _ _ _ hlayers overrides_adultsLayer hload
  exact absurd (hgroup.symm.trans hsingle) nofun

end Config

end AccessControl
