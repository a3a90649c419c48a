import AccessControl.Proofs.Policy.Decision

/-!
# Brackets around merges

A sequence of policies with connectives between them can be merged in many ways, pair by pair, and
all of them give one policy. Its expression is that of the joined texts, since joined expressions
agree with their texts even where a half of a merge could not be read by itself. Its target policies
are those that are declared last, and whether problems are reported is up to the first policy.
-/

namespace AccessControl

/-- A sequence of policies with connectives between them, in brackets. -/
inductive Bracketing where
  /-- A policy by itself. -/
  | leaf (policy : Policy)
  /-- Two sequences with a connective between them, each in brackets. -/
  | merge (left : Bracketing) (connective : Connective) (right : Bracketing)

namespace Bracketing

/-- The policy that the merges give, the innermost brackets first. -/
def merged : Bracketing → Policy
  | .leaf policy => policy
  | .merge left connective right => left.merged.merge connective right.merged

/-- The first policy of the sequence. -/
def first : Bracketing → Policy
  | .leaf policy => policy
  | .merge left _ _ => left.first

/-- The further policies of the sequence, each behind its connective. -/
def further : Bracketing → List (Connective × Policy)
  | .leaf _ => []
  | .merge left connective right => left.further ++ (connective, right.first) :: right.further

/-- The policies of the sequence. -/
def policies (brackets : Bracketing) : List Policy :=
  brackets.first :: brackets.further.map Prod.snd

/-- The policies of merged sequences are those of both, in order. -/
theorem policies_merge (left right : Bracketing) (connective : Connective) :
    (merge left connective right).policies = left.policies ++ right.policies := by
  rw [policies, first, further, List.map_append, List.map_cons]
  rfl

/-- The texts of further expressions, each behind its connective. -/
def furtherText : List (Connective × Policy) → String
  | [] => ""
  | step :: rest => step.1.symbol ++ step.2.expression.text ++ furtherText rest

/-- The texts of a sequence, joined by its connectives. -/
def joinedText (brackets : Bracketing) : String :=
  brackets.first.expression.text ++ furtherText brackets.further

/-- Further texts stand one behind the other. -/
theorem furtherText_append (front back : List (Connective × Policy)) :
    furtherText (front ++ back) = furtherText front ++ furtherText back := by
  induction front with
  | nil => rw [List.nil_append, furtherText, String.empty_append]
  | cons step rest ih =>
    rw [List.cons_append, furtherText, furtherText, ih]
    simp only [String.append_assoc]

/-- The text of the policy is that of the sequence. -/
theorem text_merged (brackets : Bracketing) :
    brackets.merged.expression.text = brackets.joinedText := by
  induction brackets with
  | leaf policy => rw [merged, joinedText, further, furtherText, String.append_empty, first]
  | merge left connective right ihleft ihright =>
    have htext : (merge left connective right).merged.expression.text =
        left.merged.expression.text ++ connective.symbol ++ right.merged.expression.text :=
      Expression.concat_text _ _ connective
    rw [htext, ihleft, ihright, joinedText, joinedText, joinedText, first, further,
      furtherText_append, furtherText]
    simp only [String.append_assoc]

/-- The target policy under a name is that of the last policy of the sequence that declares one. -/
theorem get?_targets_merged (brackets : Bracketing) (name : String) :
    brackets.merged.targets.get? name =
      brackets.policies.reverse.findSome? (fun policy => policy.targets.get? name) := by
  induction brackets with
  | leaf policy =>
    rw [policies, further, List.map_nil, List.reverse_singleton, List.findSome?_singleton]
    rfl
  | merge left connective right ihleft ihright =>
    have hunion : (merge left connective right).merged.targets =
        left.merged.targets.union right.merged.targets := rfl
    rw [hunion, NameMap.get?_union, ihleft, ihright, policies_merge, List.reverse_append,
      List.findSome?_append]

/-- Whether problems are reported is up to the first policy of the sequence. -/
theorem logging_merged (brackets : Bracketing) :
    brackets.merged.logging = brackets.first.logging := by
  induction brackets with
  | leaf policy => rfl
  | merge left connective right ihleft _ => exact ihleft

/-- A policy that is merged from policies that were built is one. -/
theorem built_merged {brackets : Bracketing} (h : ∀ policy ∈ brackets.policies, policy.Built) :
    brackets.merged.Built := by
  induction brackets with
  | leaf policy => exact h policy List.mem_cons_self
  | merge left connective right ihleft ihright =>
    rw [policies_merge, List.forall_mem_append] at h
    exact .merge connective (ihleft h.1) (ihright h.2)

/-- The expression of the policy is the one that the text of the sequence is read as. -/
theorem expression_merged {brackets : Bracketing} (h : ∀ policy ∈ brackets.policies, policy.Built) :
    brackets.merged.expression = .parse brackets.joinedText := by
  rw [← brackets.text_merged]
  exact Expression.textAgrees_iff.mp (built_merged h).textAgrees

/-- However a sequence of policies that were built is bracketed, the merges give one and the same
policy, and it decides alike: its expression is what the texts are read as, joined in order by their
connectives, each of its names has the target policy of the last policy that declares the name, and
whether problems are reported is up to the first policy. -/
theorem merged_eq_of_sequence {brackets : Bracketing}
    (h : ∀ policy ∈ brackets.policies, policy.Built) :
    brackets.merged.expression = .parse brackets.joinedText ∧
      (∀ name, brackets.merged.targets.get? name =
        brackets.policies.reverse.findSome? (fun policy => policy.targets.get? name)) ∧
      brackets.merged.logging = brackets.first.logging ∧
      ∀ other : Bracketing, other.first = brackets.first → other.further = brackets.further →
        other.merged = brackets.merged ∧
          ∀ attributes, other.merged.decide attributes = brackets.merged.decide attributes := by
  refine ⟨expression_merged h, brackets.get?_targets_merged, brackets.logging_merged, ?_⟩
  intro other hfirst hfurther
  have hpolicies : other.policies = brackets.policies := by
    rw [policies, policies, hfirst, hfurther]
  have hexpression : other.merged.expression = brackets.merged.expression := by
    rw [expression_merged h, expression_merged (hpolicies ▸ h), joinedText, joinedText, hfirst,
      hfurther]
  have htargets : other.merged.targets = brackets.merged.targets :=
    NameMap.ext_get? fun name => by
      rw [get?_targets_merged, get?_targets_merged, hpolicies]
  have hlogging : other.merged.logging = brackets.merged.logging := by
    rw [logging_merged, logging_merged, hfirst]
  have heq : other.merged = brackets.merged := by
    cases hother : other.merged
    cases hbrackets : brackets.merged
    rw [hother, hbrackets] at hexpression htargets hlogging
    rw [Policy.mk.injEq]
    exact ⟨hexpression, htargets, hlogging⟩
  exact ⟨heq, fun attributes => by rw [heq]⟩

/-- Two halves of a group, which complete each other, and a single target policy. In the other
brackets the second half is merged first, and cannot be read. Both halves declare one name. -/
theorem merged_eq_of_sequence_halves :
    let opening := Policy.group ⟨"(data.a", .ofList [("a", {})]⟩ .empty false
    let closing := Policy.group
      ⟨"data.b)", .ofList [("a", ⟨[], .all, .permit⟩), ("b", ⟨[], .all, .permit⟩)]⟩ .empty true
    let alone := Policy.single (Policy.generatedName 1) {} .empty true
    let brackets := merge (merge (leaf opening) .and (leaf closing)) .or (leaf alone)
    let behind := merge (leaf closing) .or (leaf alone)
    (∀ policy ∈ brackets.policies, policy.Built) ∧ behind.merged.expression.malformed = true ∧
      (merge (leaf opening) .and behind).merged = brackets.merged ∧
      brackets.merged.expression.malformed = false ∧ brackets.merged.logging = false ∧
      brackets.merged.targets.get? "a" = closing.targets.get? "a" := by
  intro opening closing alone brackets behind
  have hbuilt : ∀ policy ∈ brackets.policies, policy.Built := by
    have hpolicies : brackets.policies = [opening, closing, alone] := rfl
    rw [hpolicies]
    simp only [List.forall_mem_cons]
    exact ⟨.group _ _ _, .group _ _ _, .single _ _ _ (Policy.isBareName_generatedName 1),
      List.forall_mem_nil _⟩
  obtain ⟨hexpression, htargets, hlogging, hothers⟩ := merged_eq_of_sequence hbuilt
  have hother := hothers (merge (leaf opening) .and behind) rfl rfl
  refine ⟨hbuilt, by decide +kernel, hother.1, ?_, hlogging, htargets "a"⟩
  rw [hexpression]
  decide +kernel

end Bracketing

end AccessControl
