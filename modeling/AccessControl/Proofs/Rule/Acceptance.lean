import AccessControl.Expression
import AccessControl.Proofs.Rule.Completeness

/-!
# Which texts are rules

A text that has tokens is a rule just where exactly one of the tokens is a comparison operator, the
tokens on both of its sides make up operands of the grammar, and neither side nests deeper than the
limit. Where the tokens make up a comparison, the depth is all that a text can be refused for.
-/

namespace AccessControl.Comparison

/-- Tokens that make up a comparison: those of two operands around the only comparison operator,
with the levels that both sides claim. -/
def IsComparison (m n : Nat) (tokens : List Token) (comparison : Comparison) : Prop :=
  ∃ left right, tokens = left ++ .relation comparison.relation :: right ∧
    (∀ sign, .relation sign ∉ left) ∧ (∀ sign, .relation sign ∉ right) ∧
    Operand.SumTokens m left comparison.left ∧ Operand.SumTokens n right comparison.right

/-- A token stands for no relation just where it is no comparison operator. -/
theorem relation?_eq_none_iff {lexeme : Lexeme} :
    relation? lexeme = none ↔ ∀ sign, lexeme.token ≠ .relation sign := by
  obtain ⟨token, offset⟩ := lexeme
  cases token <;> simp [relation?]

/-- Only its own comparison operator stands for a relation. -/
theorem relation?_eq_some_iff {lexeme : Lexeme} {relation : Relation} :
    relation? lexeme = some relation ↔ lexeme.token = .relation relation := by
  obtain ⟨token, offset⟩ := lexeme
  cases token <;> simp [relation?]

/-- No token of a list stands for a relation just where no comparison operator is among them. -/
theorem forall_relation?_eq_none_iff {lexemes : List Lexeme} :
    (∀ lexeme ∈ lexemes, relation? lexeme = none) ↔
      ∀ sign, .relation sign ∉ lexemes.map Lexeme.token := by
  simp only [relation?_eq_none_iff, List.mem_map, not_exists, not_and]
  exact ⟨fun h sign lexeme hmem htoken => h lexeme hmem sign htoken,
    fun h lexeme hmem sign htoken => h sign lexeme hmem htoken⟩

/-- Around the only comparison operator, both sides are read as operands. -/
theorem ofLexemes_append {left right : List Lexeme} {sign : Lexeme} {relation : Relation}
    (hleft : ∀ lexeme ∈ left, relation? lexeme = none) (hsign : relation? sign = some relation)
    (hright : ∀ lexeme ∈ right, relation? lexeme = none) :
    ofLexemes (left ++ sign :: right) = (do
      let first ← Operand.ofLexemes .left left
      let second ← Operand.ofLexemes .right right
      .ok ⟨first, relation, second⟩) := by
  have hbefore : ∀ lexeme ∈ left, (!isRelation lexeme) = true := by
    intro lexeme hmem
    rw [isRelation, hleft lexeme hmem]
    rfl
  have hat : (!isRelation sign) = false := by rw [isRelation, hsign]; rfl
  have hrelations : (left ++ sign :: right).filterMap relation? = [relation] := by
    rw [List.filterMap_append, List.filterMap_eq_nil_iff.mpr hleft, List.nil_append,
      List.filterMap_cons_some hsign, List.filterMap_eq_nil_iff.mpr hright]
  have htake : (left ++ sign :: right).takeWhile (fun lexeme => !isRelation lexeme) = left := by
    rw [List.takeWhile_append_of_pos hbefore]
    simp only [List.takeWhile_cons, hat, Bool.false_eq_true, if_false, List.append_nil]
  have hdrop : (left ++ sign :: right).dropWhile (fun lexeme => !isRelation lexeme) =
      sign :: right := by
    rw [List.dropWhile_append_of_pos hbefore]
    simp only [List.dropWhile_cons, hat, Bool.false_eq_true, if_false]
  simp only [ofLexemes, hrelations, htake, hdrop, List.drop_one, List.tail_cons]

/-- The tokens of a comparison make up the comparison, or a side of them is refused for its depth,
the left one first. -/
theorem ofLexemes_of_isComparison {m n : Nat} {lexemes : List Lexeme} {comparison : Comparison}
    (h : IsComparison m n (lexemes.map Lexeme.token) comparison) :
    ofLexemes lexemes = (do
      let left ← Operand.within .left Operand.levels m comparison.left
      let right ← Operand.within .right Operand.levels n comparison.right
      .ok ⟨left, comparison.relation, right⟩) := by
  obtain ⟨left, right, htokens, hleft, hright, hfirst, hsecond⟩ := h
  obtain ⟨front, tail, rfl, rfl, htail⟩ := List.map_eq_append_iff.mp htokens
  obtain ⟨sign, back, rfl, hsign, rfl⟩ := List.map_eq_cons_iff.mp htail
  rw [ofLexemes_append (forall_relation?_eq_none_iff.mpr hleft) (relation?_eq_some_iff.mpr hsign)
    (forall_relation?_eq_none_iff.mpr hright), Operand.ofLexemes_complete hfirst,
    Operand.ofLexemes_complete hsecond]

/-- What tokens make up is a comparison that they stand for, and both sides keep to the limit. -/
theorem ofLexemes_sound {lexemes : List Lexeme} {comparison : Comparison}
    (h : ofLexemes lexemes = .ok comparison) :
    ∃ m ≤ Operand.levels, ∃ n ≤ Operand.levels,
      IsComparison m n (lexemes.map Lexeme.token) comparison := by
  have hone : ∃ relation, lexemes.filterMap relation? = [relation] := by
    rw [ofLexemes] at h
    split at h
    case h_1 => cases h
    case h_2 relation hrelations => exact ⟨relation, hrelations⟩
    case h_3 => cases h
  obtain ⟨relation, hrelations⟩ := hone
  obtain ⟨left, sign, right, rfl, hleft, hsign, hright⟩ :=
    List.filterMap_eq_cons_iff.mp hrelations
  rw [List.filterMap_eq_nil_iff] at hright
  rw [ofLexemes_append hleft hsign hright] at h
  cases hfirst : Operand.ofLexemes .left left with
  | error cause => rw [hfirst] at h; cases h
  | ok first =>
    cases hsecond : Operand.ofLexemes .right right with
    | error cause => rw [hfirst, hsecond] at h; cases h
    | ok second =>
      rw [hfirst, hsecond] at h
      cases h
      obtain ⟨m, hm, hsum⟩ := Operand.ofLexemes_sound hfirst
      obtain ⟨n, hn, hother⟩ := Operand.ofLexemes_sound hsecond
      refine ⟨m, hm, n, hn, _, _, ?_, forall_relation?_eq_none_iff.mp hleft,
        forall_relation?_eq_none_iff.mp hright, hsum, hother⟩
      rw [List.map_append, List.map_cons, relation?_eq_some_iff.mp hsign]

/-- A text with tokens is read by these alone. -/
theorem parse_of_scan {text : String} {lexemes : List Lexeme} (h : Lexeme.scan text = .ok lexemes) :
    parse text = ofLexemes lexemes := by
  rw [parse, h]
  rfl

/-- A text with the tokens of a comparison is read as this comparison, or is refused for the depth
of a side, the left one first. -/
theorem parse_of_isComparison {m n : Nat} {text : String} {lexemes : List Lexeme}
    {comparison : Comparison} (h : Lexeme.scan text = .ok lexemes)
    (hcomparison : IsComparison m n (lexemes.map Lexeme.token) comparison) :
    parse text =
      if m ≤ Operand.levels then
        if n ≤ Operand.levels then .ok comparison else .error (.tooDeep .right Operand.levels)
      else .error (.tooDeep .left Operand.levels) := by
  rw [parse_of_scan h, ofLexemes_of_isComparison hcomparison]
  by_cases hm : m ≤ Operand.levels
  · by_cases hn : n ≤ Operand.levels
    · simp only [Operand.within, if_pos hm, if_pos hn]
      rfl
    · simp only [Operand.within, if_pos hm, if_neg hn]
      rfl
  · simp only [Operand.within, if_neg hm]
    rfl

/-- A text that has tokens is read as a comparison just where the tokens make up this comparison in
the grammar and neither side claims more levels than the limit. Tokens that make up a comparison are
refused only for a side that claims more, the left one first. -/
theorem parse_grammar {text : String} {lexemes : List Lexeme}
    (h : Lexeme.scan text = .ok lexemes) (comparison : Comparison) :
    (parse text = .ok comparison ↔ ∃ m ≤ Operand.levels, ∃ n ≤ Operand.levels,
        IsComparison m n (lexemes.map Lexeme.token) comparison) ∧
      ∀ m n, IsComparison m n (lexemes.map Lexeme.token) comparison →
        parse text =
          if m ≤ Operand.levels then
            if n ≤ Operand.levels then .ok comparison else .error (.tooDeep .right Operand.levels)
          else .error (.tooDeep .left Operand.levels) := by
  refine ⟨⟨fun hparse => ?_, ?_⟩, fun m n => parse_of_isComparison h⟩
  · rw [parse_of_scan h] at hparse
    exact ofLexemes_sound hparse
  · rintro ⟨m, hm, n, hn, hcomparison⟩
    rw [parse_of_isComparison h hcomparison, if_pos hm, if_pos hn]

/-- The tokens of a text with a negation, an accessor and a call make up the comparison in which
they bind as the grammar says. -/
theorem parse_grammar_mixed :
    Lexeme.scan "1 - -x[0] <= f(y, user.z)" =
      .ok [⟨.literal (.ofNat 1), 0⟩, ⟨.operator .minus, 2⟩, ⟨.operator .minus, 4⟩,
        ⟨.name "x", 5⟩, ⟨.openBracket, 6⟩, ⟨.literal (.ofNat 0), 7⟩, ⟨.closeBracket, 8⟩,
        ⟨.relation .atMost, 10⟩, ⟨.name "f", 13⟩, ⟨.openParen, 14⟩, ⟨.name "y", 15⟩, ⟨.comma, 16⟩,
        ⟨.name "user", 18⟩, ⟨.dot, 22⟩, ⟨.name "z", 23⟩, ⟨.closeParen, 24⟩] ∧
    ∃ m ≤ Operand.levels, ∃ n ≤ Operand.levels, IsComparison m n
      [.literal (.ofNat 1), .operator .minus, .operator .minus, .name "x", .openBracket,
        .literal (.ofNat 0), .closeBracket, .relation .atMost, .name "f", .openParen,
        .name "y", .comma, .name "user", .dot, .name "z", .closeParen]
      ⟨.arithmetic (.literal (.ofNat 1)) .minus
          (.negative (.index (.name "x") (.literal (.ofNat 0)))),
        .atMost, .call "f" [.name "y", .field (.bag .user) "z"]⟩ := by
  have hscan : Lexeme.scan "1 - -x[0] <= f(y, user.z)" =
      .ok [⟨.literal (.ofNat 1), 0⟩, ⟨.operator .minus, 2⟩, ⟨.operator .minus, 4⟩,
        ⟨.name "x", 5⟩, ⟨.openBracket, 6⟩, ⟨.literal (.ofNat 0), 7⟩, ⟨.closeBracket, 8⟩,
        ⟨.relation .atMost, 10⟩, ⟨.name "f", 13⟩, ⟨.openParen, 14⟩, ⟨.name "y", 15⟩, ⟨.comma, 16⟩,
        ⟨.name "user", 18⟩, ⟨.dot, 22⟩, ⟨.name "z", 23⟩, ⟨.closeParen, 24⟩] := by decide +kernel
  exact ⟨hscan, (parse_grammar hscan _).1.mp (by rw [parse_of_scan hscan]; rfl)⟩

end AccessControl.Comparison
