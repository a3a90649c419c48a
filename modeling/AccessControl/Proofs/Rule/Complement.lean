import AccessControl.Proofs.Rule.Between

/-!
# Complementary rules

Every relation has a complement, which holds just where the relation does not and fails on the same
values. A rule with the comparison operator of the complement in place of its own has the opposite
truth value. A text that is no rule is its own complement: it fails either way.
-/

namespace AccessControl

namespace Relation

/-- The relation that holds where the given one does not. -/
def complement : Relation → Relation
  | .less => .atLeast
  | .greater => .atMost
  | .atMost => .greater
  | .atLeast => .less
  | .equal => .unequal
  | .unequal => .equal

/-- The complement fails on the same values as the relation and is its opposite on all others. -/
theorem holds_complement (relation : Relation) (left right : Json) :
    relation.complement.holds left right = (relation.holds left right).map (!·) := by
  cases relation with
  | equal => rfl
  | unequal =>
    simp only [complement, holds, Except.map, Bool.not_not]
  | less | greater | atMost | atLeast =>
    simp only [complement, holds]
    cases left.order right with
    | error cause => rfl
    | ok order => cases order <;> rfl

end Relation

namespace Comparison

/-- The comparison of the same operands by the complementary relation. -/
def complement (comparison : Comparison) : Comparison :=
  ⟨comparison.left, comparison.relation.complement, comparison.right⟩

/-- The complement of a comparison evaluates its operands alike and ends with the opposite truth
value or the same fault. -/
theorem outcome_evaluate_complement (comparison : Comparison) (scope : Registry)
    (attributes : Attributes) :
    (comparison.complement.evaluate scope attributes).outcome =
      (comparison.evaluate scope attributes).outcome.map (!·) := by
  rw [evaluate, evaluate, complement]
  simp only [Traced.outcome_andThen, Relation.holds_complement]
  cases (comparison.left.evaluate scope attributes).outcome with
  | error cause => rfl
  | ok left =>
    cases (comparison.right.evaluate scope attributes).outcome with
    | error cause => rfl
    | ok right => rfl

end Comparison

namespace Rule

/-- Whether a text is another one with a complementary comparison operator in place of its own. A
text that is no rule stays as it is. -/
inductive Complements : String → String → Prop where
  /-- A text that is no rule. -/
  | unread {source : String} {cause : SyntaxError} : Comparison.parse source = .error cause →
    Complements source source
  /-- A rule with its operator between two texts without any. -/
  | replaced {left right sign other : String} {comparison : Comparison} :
    Lexeme.IsSide left → Lexeme.IsSide right →
    Comparison.parse (left ++ sign ++ right) = .ok comparison →
    sign ∈ comparison.relation.spellings → other ∈ comparison.relation.complement.spellings →
    Complements (left ++ sign ++ right) (left ++ other ++ right)

/-- In every text the operator can be replaced. -/
theorem exists_complements (source : String) : ∃ other, Complements source other := by
  cases hparse : Comparison.parse source with
  | error cause => exact ⟨source, .unread hparse⟩
  | ok comparison =>
    obtain ⟨left, right, sign, hsign, hleft, hright, rfl⟩ :=
      Comparison.exists_around_of_parse hparse
    exact ⟨_, .replaced hleft hright hparse hsign
      comparison.relation.complement.symbol_mem_spellings⟩

/-- The truth value of a rule for a request, unless it fails. -/
def truth? (rule : Rule) (attributes : Attributes) : Option Bool :=
  (rule.evaluate attributes).outcome.toOption

/-- The truth value of a rule is that of its comparison. -/
theorem truth?_of_parse {source : String} {comparison : Comparison}
    (h : Comparison.parse source = .ok comparison) (registry : Registry) (attributes : Attributes) :
    (compile source registry).truth? attributes =
      (comparison.evaluate registry attributes).outcome.toOption := by
  rw [truth?, evaluate_compile, meaning, h]
  simp only [Traced.mapError]
  cases (comparison.evaluate registry attributes).outcome <;> rfl

/-- A text that is no rule has no truth value. -/
theorem truth?_of_error {source : String} {cause : SyntaxError}
    (h : Comparison.parse source = .error cause) (registry : Registry) (attributes : Attributes) :
    (compile source registry).truth? attributes = none := by
  rw [truth?, evaluate_compile, meaning, h]
  rfl

/-- With the complementary operator, a rule has the opposite truth value, and fails where it failed
before. -/
theorem Complements.truth? {source other : String} (h : Complements source other)
    (registry : Registry) (attributes : Attributes) :
    (compile other registry).truth? attributes =
      ((compile source registry).truth? attributes).map (!·) := by
  cases h with
  | unread hparse =>
    rw [truth?_of_error hparse]
    rfl
  | @replaced left right sign other comparison hleft hright hparse hsign hother =>
    obtain ⟨-, hparse'⟩ := Comparison.parse_around hleft hright hsign hother hparse
    have htruth : (compile (left ++ other ++ right) registry).truth? attributes =
        (comparison.complement.evaluate registry attributes).outcome.toOption :=
      truth?_of_parse hparse' registry attributes
    rw [htruth, truth?_of_parse hparse, comparison.outcome_evaluate_complement]
    cases (comparison.evaluate registry attributes).outcome <;> rfl

end Rule

end AccessControl
