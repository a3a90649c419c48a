import AccessControl.Proofs.Rule.Binding
import AccessControl.Proofs.Rule.Rereading
import AccessControl.Proofs.Rule.Seams

/-!
# Rules between two operand texts

Any two texts that spell operands make a rule with any comparison operator between them, in either
order and with or without blanks at the seams, and every rule is made in this way. The rule relates
the values that the operands have over the registry that it was compiled over, and faults where
their relation does.
-/

namespace AccessControl

namespace Operand

/-- Whether a text spells an operand: none of its tokens is a comparison operator, and together they
make up the operand. -/
def IsSpelled (text : String) (operand : Operand) : Prop :=
  ∃ lexemes, Lexeme.scan text = .ok lexemes ∧
    (∀ sign, .relation sign ∉ lexemes.map Lexeme.token) ∧ ofLexemes .left lexemes = .ok operand

/-- Whether a text spells an operand that has a value, over a registry and for a request. -/
def HasValue (registry : Registry) (attributes : Attributes) (text : String) (value : Json) :
    Prop :=
  ∃ operand, IsSpelled text operand ∧ (operand.evaluate registry attributes).outcome = .ok value

/-- A text spells an operand just where its tokens, none of which is a comparison operator, make up
the operand in the grammar within the limit. So it does not matter on which side it stands. -/
theorem isSpelled_iff {text : String} {operand : Operand} :
    IsSpelled text operand ↔ ∃ lexemes, Lexeme.scan text = .ok lexemes ∧
      (∀ sign, .relation sign ∉ lexemes.map Lexeme.token) ∧
      ∃ n ≤ levels, SumTokens n (lexemes.map Lexeme.token) operand := by
  simp only [IsSpelled, ofLexemes_eq_ok_iff]

/-- The normal text of an operand spells what is read of it, if that keeps to the limit. -/
theorem isSpelled_text {operand : Operand} (h : MadeOf Token.Legible operand)
    (hlevels : operand.normalLevels ≤ levels) :
    IsSpelled (String.ofList operand.text) operand.reread := by
  obtain ⟨lexemes, hscan, htokens⟩ := (cuts_text operand h [] trivial).scan
  refine isSpelled_iff.mpr ⟨lexemes, hscan, ?_, _, hlevels, ?_⟩
  · rw [htokens]
    exact fun sign => relation_notMem_tokens sign operand
  · rw [htokens]
    exact sumTokens h

/-- The name of a bag with a point and the name of a field behind it has the value of the field. -/
theorem hasValue_field {registry : Registry} {attributes : Attributes} (bag : Bag) {key : String}
    {value : Json} (hkey : Token.IsName key) (h : (attributes.bag bag).field key = .ok value) :
    HasValue registry attributes (bag.word ++ "." ++ key) value := by
  have hlegible : MadeOf Token.Legible (.field (.bag bag) key) := ⟨trivial, hkey⟩
  have hspelled := isSpelled_text hlegible (Nat.le_of_ble_eq_true rfl)
  have htext : String.ofList (Operand.field (.bag bag) key).text = bag.word ++ "." ++ key := by
    rw [← String.toList_inj, String.toList_ofList, String.toList_append, String.toList_append,
      List.append_assoc]
    rfl
  rw [htext] at hspelled
  refine ⟨_, hspelled, ?_⟩
  change (Traced.andThen _ _).outcome = _
  rw [Traced.outcome_andThen]
  exact h

end Operand

namespace Comparison

variable {left sign right : String} {relation : Relation}

/-- Two operand texts around a comparison operator are read as the comparison of their operands. -/
theorem parse_between {first second : Operand} (hleft : Operand.IsSpelled left first)
    (hright : Operand.IsSpelled right second) (hsign : sign ∈ relation.spellings) :
    parse (left ++ sign ++ right) = .ok ⟨first, relation, second⟩ := by
  obtain ⟨before, hbefore, hnone, m, hm, hfirst⟩ := Operand.isSpelled_iff.mp hleft
  obtain ⟨behind, hbehind, hnone', n, hn, hsecond⟩ := Operand.isSpelled_iff.mp hright
  obtain ⟨lexemes, hscan, htokens⟩ := Lexeme.scan_around hbefore hnone hbehind hnone' hsign
  have hcomparison : IsComparison m n (lexemes.map Lexeme.token) ⟨first, relation, second⟩ :=
    ⟨_, _, htokens, hnone, hnone', hfirst, hsecond⟩
  rw [parse_of_isComparison hscan hcomparison, if_pos hm, if_pos hn]

/-- What is read of two sides around a comparison operator is the comparison of the operands that
the sides spell. -/
theorem isSpelled_of_parse {comparison : Comparison} (hleft : Lexeme.IsSide left)
    (hright : Lexeme.IsSide right) (hsign : sign ∈ relation.spellings)
    (h : parse (left ++ sign ++ right) = .ok comparison) :
    comparison.relation = relation ∧ Operand.IsSpelled left comparison.left ∧
      Operand.IsSpelled right comparison.right := by
  obtain ⟨before, hbefore, hnone⟩ := hleft
  obtain ⟨behind, hbehind, hnone'⟩ := hright
  obtain ⟨lexemes, hscan, htokens⟩ := Lexeme.scan_around hbefore hnone hbehind hnone' hsign
  rw [parse_of_scan hscan] at h
  obtain ⟨m, hm, n, hn, hcomparison⟩ := ofLexemes_sound h
  rw [htokens] at hcomparison
  obtain ⟨hrelation, hfirst, hsecond⟩ := hcomparison.around hnone hnone'
  exact ⟨hrelation, Operand.isSpelled_iff.mpr ⟨before, hbefore, hnone, m, hm, hfirst⟩,
    Operand.isSpelled_iff.mpr ⟨behind, hbehind, hnone', n, hn, hsecond⟩⟩

/-- Another comparison operator between the two sides of a rule makes the rule with the same
operands and the relation of that operator. -/
theorem parse_around {other : String} {relation' : Relation} {comparison : Comparison}
    (hleft : Lexeme.IsSide left) (hright : Lexeme.IsSide right)
    (hsign : sign ∈ relation.spellings) (hother : other ∈ relation'.spellings)
    (h : parse (left ++ sign ++ right) = .ok comparison) :
    comparison.relation = relation ∧
      parse (left ++ other ++ right) = .ok ⟨comparison.left, relation', comparison.right⟩ := by
  obtain ⟨hrelation, hfirst, hsecond⟩ := isSpelled_of_parse hleft hright hsign h
  exact ⟨hrelation, parse_between hfirst hsecond hother⟩

end Comparison

namespace Rule

/-- What the rule gives for a request that has a comparison operator between two operand texts: its
truth value, or why it has none. -/
def between (registry : Registry) (attributes : Attributes) (left sign right : String) :
    Except RuleError Bool :=
  ((compile (left ++ sign ++ right) registry).evaluate attributes).outcome

/-- A rule between two operand texts relates the values of these. -/
theorem between_of_values {registry : Registry} {attributes : Attributes} {left sign right : String}
    {x y : Json} {relation : Relation} (hleft : Operand.HasValue registry attributes left x)
    (hright : Operand.HasValue registry attributes right y) (hsign : sign ∈ relation.spellings) :
    between registry attributes left sign right =
      (relation.holds x y).mapError (RuleError.faulted (left ++ sign ++ right)) := by
  obtain ⟨first, hfirst, hx⟩ := hleft
  obtain ⟨second, hsecond, hy⟩ := hright
  have houtcome : (Comparison.evaluate ⟨first, relation, second⟩ registry attributes).outcome =
      relation.holds x y := by
    rw [Comparison.evaluate, Traced.outcome_andThen, hx]
    change (Traced.andThen _ _).outcome = _
    rw [Traced.outcome_andThen, hy]
    rfl
  rw [between, evaluate_compile, meaning, Comparison.parse_between hfirst hsecond hsign, ← houtcome]
  rfl

end Rule

end AccessControl
