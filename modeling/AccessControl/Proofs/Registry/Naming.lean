import AccessControl.Proofs.Registry.Session
import AccessControl.Proofs.Rule.Rereading

/-!
# Names for injected entries

A name passes the check for injected names just where some rule mentions it, as the name of a value
or of a function. Both sides ask for the characters of names and refuse the names of bags and the
words of literals: the check by looking at the name, and rules because such a word is read as
something else. A value that is registered under the name is what the bare name stands for in every
rule that is compiled as long as the entry stays.
-/

namespace AccessControl

/-- The empty word is no name. -/
theorem Token.not_isName_of_nil {word : String} (h : word.toList = []) : ¬IsName word := by
  rintro ⟨⟨first, others, hspelling, -, -⟩, -⟩
  exact List.cons_ne_nil _ _ (hspelling.symm.trans h)

/-- The check passes the names of rules that are not those of bags. -/
theorem NameFault.of?_eq_none_iff {name : String} :
    of? name = none ↔ Token.IsName name ∧ Bag.ofWord? name = none := by
  cases hspelling : name.toList with
  | nil => simp [of?, hspelling, Token.not_isName_of_nil hspelling]
  | cons first others =>
    rw [Token.isName_iff hspelling, of?, hspelling]
    dsimp only
    generalize Text.isNameStart first = start
    generalize others.all Text.isNamePart = parts
    generalize (name == "true" || name == "false" || name == "null") = literal
    cases start <;> cases parts <;> cases literal <;> cases Bag.ofWord? name <;> simp

namespace Operand

/-- Whether an operand is a part of another one, or this itself. -/
inductive Within (part : Operand) : Operand → Prop where
  /-- The operand itself. -/
  | self : Within part part
  /-- A part of what a field is taken of. -/
  | field {base : Operand} {key : String} : Within part base → Within part (.field base key)
  /-- A part of what an element is taken of. -/
  | base {base position : Operand} : Within part base → Within part (.index base position)
  /-- A part of the position of an element. -/
  | position {base position : Operand} : Within part position → Within part (.index base position)
  /-- A part of an argument. -/
  | argument {function : String} {operands : List Operand} {operand : Operand} :
    operand ∈ operands → Within part operand → Within part (.call function operands)
  /-- A part of what is negated. -/
  | negative {inner : Operand} : Within part inner → Within part (.negative inner)
  /-- A part of the left operand of an arithmetic operation. -/
  | left {left right : Operand} {operator : Operator} : Within part left →
    Within part (.arithmetic left operator right)
  /-- A part of the right operand of an arithmetic operation. -/
  | right {left right : Operand} {operator : Operator} : Within part right →
    Within part (.arithmetic left operator right)

variable {p : Token → Prop}

/-- What all operands of a list are made of, each is made of. -/
theorem AllMadeOf.of_mem {operands : List Operand} (h : AllMadeOf p operands) {operand : Operand}
    (hmem : operand ∈ operands) : MadeOf p operand := by
  induction operands with
  | nil => exact absurd hmem List.not_mem_nil
  | cons first rest ih =>
    rcases List.mem_cons.mp hmem with rfl | hrest
    · exact h.1
    · exact ih h.2 hrest

/-- What an operand is made of, its parts are made of. -/
theorem Within.madeOf {part operand : Operand} (h : Within part operand) (hall : MadeOf p operand) :
    MadeOf p part := by
  induction h with
  | self => exact hall
  | field _ ih => exact ih hall.1
  | base _ ih => exact ih hall.1
  | position _ ih => exact ih hall.2
  | argument hmem _ ih => exact ih (AllMadeOf.of_mem hall.2 hmem)
  | negative _ ih => exact ih hall
  | left _ ih => exact ih hall.1
  | right _ ih => exact ih hall.2

/-- The names that an operand of a list needs are needed by the list. -/
theorem names_subset_namesOfAll {operands : List Operand} {operand : Operand}
    (hmem : operand ∈ operands) : operand.names ⊆ namesOfAll operands := by
  induction operands with
  | nil => exact absurd hmem List.not_mem_nil
  | cons first rest ih =>
    rcases List.mem_cons.mp hmem with rfl | hrest
    · exact List.subset_append_left _ _
    · exact List.subset_append_of_subset_right _ (ih hrest)

/-- The names that a part needs are needed by the whole. -/
theorem Within.names_subset {part operand : Operand} (h : Within part operand) :
    part.names ⊆ operand.names := by
  induction h with
  | self => exact List.Subset.refl _
  | field _ ih => exact ih
  | base _ ih => exact List.subset_append_of_subset_left _ ih
  | position _ ih => exact List.subset_append_of_subset_right _ ih
  | argument hmem _ ih => exact
    List.subset_cons_of_subset _ (List.Subset.trans ih (names_subset_namesOfAll hmem))
  | negative _ ih => exact ih
  | left _ ih => exact List.subset_append_of_subset_left _ ih
  | right _ ih => exact List.subset_append_of_subset_right _ ih

end Operand

namespace Comparison

/-- Whether an operand is part of a side of a comparison. -/
def Contains (comparison : Comparison) (part : Operand) : Prop :=
  part.Within comparison.left ∨ part.Within comparison.right

/-- Whether a comparison has a bare name or a call by the name among its parts. -/
def Mentions (comparison : Comparison) (name : String) : Prop :=
  comparison.Contains (.name name) ∨ ∃ operands, comparison.Contains (.call name operands)

/-- The names that a part needs are needed by the comparison. -/
theorem Contains.names_subset {comparison : Comparison} {part : Operand}
    (h : comparison.Contains part) : part.names ⊆ comparison.names :=
  h.elim (fun hleft => List.subset_append_of_subset_left _ hleft.names_subset)
    (fun hright => List.subset_append_of_subset_right _ hright.names_subset)

/-- The parts of a comparison that was read are made of tokens that can be written. -/
theorem Contains.madeOf {source : String} {comparison : Comparison} {part : Operand}
    (h : comparison.Contains part) (hparse : parse source = .ok comparison) :
    Operand.MadeOf Token.Legible part :=
  h.elim (fun hleft => hleft.madeOf (legible_of_parse hparse).1)
    (fun hright => hright.madeOf (legible_of_parse hparse).2)

/-- The comparison of a name with itself is a rule. -/
theorem exists_parse_of_isName {name : String} (hname : Token.IsName name)
    (hbag : Bag.ofWord? name = none) :
    ∃ source, parse source = .ok ⟨.name name, .equal, .name name⟩ := by
  have hmade : Operand.MadeOf Token.Legible (.name name) := ⟨hbag, hname⟩
  let comparison : Comparison := ⟨.name name, .equal, .name name⟩
  have hcuts : Lexeme.Cuts comparison.text comparison.tokens [] := cuts_text hmade hmade
  obtain ⟨lexemes, hscan, htokens⟩ := hcuts.scan
  have hcomparison : IsComparison _ _ comparison.tokens comparison.reread :=
    isComparison_tokens hmade hmade
  rw [← htokens] at hcomparison
  exact ⟨_, (parse_of_isComparison hscan hcomparison).trans rfl⟩

end Comparison

/-- Whether a step leaves the entry of a name alone. -/
def Step.Keeps (name : String) : Step → Prop
  | .register other _ => name ≠ other
  | .registerFunction function => name ≠ function.name
  | .unregister other => name ≠ other
  | .clear => False
  | .compileConfig config => config.injected.get? name = none
  | .compileRule _ | .compileTarget _ _ | .compilePolicy _ _ _ | .evaluate _ _ => True

/-- A step that leaves an entry alone leaves it in the registry. -/
theorem Step.Keeps.get?_registry {name : String} {step : Step} (h : step.Keeps name)
    (start : Registry) : (step.registry start).get? name = start.get? name := by
  cases step with
  | register other value => exact (NameMap.get?_insert _ _ _ _).trans (if_neg h)
  | registerFunction function => exact (NameMap.get?_insert _ _ _ _).trans (if_neg h)
  | unregister other =>
    exact (NameMap.get?_restrict _ _ _).trans (if_pos (bne_iff_ne.mpr h))
  | clear => exact absurd h id
  | compileConfig config =>
    rw [Step.registry, Config.registry, NameMap.get?_union, NameMap.get?_mapValues,
      show config.injected.get? name = none from h]
    rfl
  | _ => rfl

/-- A run of steps that leave an entry alone leaves it in the registry. -/
theorem Session.get?_registry_run {name : String} {steps : List Step}
    (h : ∀ step ∈ steps, step.Keeps name) (session : Session) :
    (session.run steps).registry.get? name = session.registry.get? name := by
  induction steps generalizing session with
  | nil => rfl
  | cons step rest ih =>
    obtain ⟨hstep, hrest⟩ := List.forall_mem_cons.mp h
    have hrun : session.run (step :: rest) = (session.step step).run rest := rfl
    rw [hrun, ih hrest]
    exact hstep.get?_registry session.registry

/-- In a rule that contains a bare name, the name stands for the value that is registered under it
when the rule is compiled. -/
theorem Rule.evaluate_bound_name {source : String} {comparison : Comparison} {name : String}
    (hparse : Comparison.parse source = .ok comparison)
    (hcontains : comparison.Contains (.name name)) {registry : Registry} {value : Json}
    (hentry : registry.get? name = some (.value value)) :
    ∃ scope, (compile source registry).compiled = .ok (comparison, scope) ∧
      ∀ attributes, (Operand.name name).evaluate scope attributes = .value value := by
  refine ⟨registry.snapshot comparison.names, by rw [compile, hparse], fun attributes => ?_⟩
  have hneeded : name ∈ comparison.names := hcontains.names_subset (List.mem_singleton.mpr rfl)
  rw [Operand.evaluate, Comparison.agreeOn_snapshot registry comparison.names name hneeded, hentry]

/-- A name passes the check for injected names just where some rule mentions it. Once a value is
registered under such a name, the bare name stands for the value in every rule that contains it and
is compiled before another step takes the entry away. -/
theorem NameFault.of?_eq_none_iff_mentioned (name : String) :
    (of? name = none ↔ ∃ source comparison, Comparison.parse source = .ok comparison ∧
      comparison.Mentions name) ∧
    (of? name = none → ∀ (session : Session) (value : Json) (steps : List Step),
      (∀ step ∈ steps, step.Keeps name) → ∀ (source : String) (comparison : Comparison),
        Comparison.parse source = .ok comparison → comparison.Contains (.name name) →
          ∃ scope, (Rule.compile source
              (session.run (.register name value :: steps)).registry).compiled =
                .ok (comparison, scope) ∧
            ∀ attributes, (Operand.name name).evaluate scope attributes = .value value) := by
  refine ⟨⟨fun h => ?_, ?_⟩, ?_⟩
  · obtain ⟨hname, hbag⟩ := of?_eq_none_iff.mp h
    obtain ⟨source, hparse⟩ := Comparison.exists_parse_of_isName hname hbag
    exact ⟨source, _, hparse, Or.inl (Or.inl .self)⟩
  · rintro ⟨source, comparison, hparse, hbare | ⟨operands, hcall⟩⟩
    · have hmade := hbare.madeOf hparse
      exact of?_eq_none_iff.mpr ⟨hmade.2, hmade.1⟩
    · have hmade := hcall.madeOf hparse
      exact of?_eq_none_iff.mpr ⟨hmade.1.2, hmade.1.1⟩
  · intro _ session value steps hkeep source comparison hparse hcontains
    refine Rule.evaluate_bound_name hparse hcontains ?_
    have hrun : session.run (.register name value :: steps) =
        (session.step (.register name value)).run steps := rfl
    rw [hrun, Session.get?_registry_run hkeep]
    exact (NameMap.get?_insert _ _ _ _).trans (if_pos rfl)

/-- A name with a dollar sign and a digit passes the check, and is the registered value in a rule
that is compiled after other entries came and went. -/
theorem NameFault.of?_eq_none_iff_mentioned_limit :
    let steps : List Step := [.register "limit" (.ofNat 2), .unregister "limit"]
    let comparison : Comparison :=
      ⟨.field (.bag .user) "age", .less, .arithmetic (.name "$limit_1") .plus (.literal (.ofNat 1))⟩
    of? "$limit_1" = none ∧ (∀ step ∈ steps, step.Keeps "$limit_1") ∧
      Comparison.parse "user.age < $limit_1+1" = .ok comparison ∧
      comparison.Contains (.name "$limit_1") ∧
      ∃ scope, (Rule.compile "user.age < $limit_1+1" ((Session.mk .empty []).run
          (.register "$limit_1" (.ofNat 17) :: steps)).registry).compiled =
            .ok (comparison, scope) ∧
        ∀ attributes, (Operand.name "$limit_1").evaluate scope attributes = .value (.ofNat 17) := by
  intro steps comparison
  have hnone : of? "$limit_1" = none := by decide +kernel
  have hkeep : ∀ step ∈ steps, step.Keeps "$limit_1" := by
    have hother : "$limit_1" ≠ "limit" := by decide
    exact List.forall_mem_cons.mpr ⟨hother, List.forall_mem_singleton.mpr hother⟩
  have hscan : Lexeme.scan "user.age < $limit_1+1" =
      .ok [⟨.name "user", 0⟩, ⟨.dot, 4⟩, ⟨.name "age", 5⟩, ⟨.relation .less, 9⟩,
        ⟨.name "$limit_1", 11⟩, ⟨.operator .plus, 19⟩, ⟨.literal (.ofNat 1), 20⟩] := by
    decide +kernel
  have hparse : Comparison.parse "user.age < $limit_1+1" = .ok comparison := by
    rw [Comparison.parse_of_scan hscan]
    rfl
  have hcontains : comparison.Contains (.name "$limit_1") := Or.inr (.left .self)
  exact ⟨hnone, hkeep, hparse, hcontains, (of?_eq_none_iff_mentioned "$limit_1").2 hnone
    ⟨.empty, []⟩ (.ofNat 17) steps hkeep _ _ hparse hcontains⟩

end AccessControl
