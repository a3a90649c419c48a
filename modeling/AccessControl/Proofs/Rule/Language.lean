import AccessControl.Rule.Grammar

/-!
# The language of rules

The grammar of operands is stated here as relations between tokens and trees, without reference to
how tokens are read. A sum is a term with signs and terms behind it, a term a factor with operators
of products and factors behind it, and a factor the negative of a factor or a primary operand with
accessors behind it. Chains group to the left: what stands behind an operand makes a larger operand
of it.

The grammar itself does not bound how deep operands nest. Every relation counts the levels that its
tokens claim: a factor claims one for itself, and every operator of a chain and every accessor
claims one as long as the chain that it belongs to goes on.
-/

namespace AccessControl

namespace Operand

mutual

/-- The tokens of sums, the levels that they claim and the operands that they stand for. -/
inductive SumTokens : Nat → List Token → Operand → Prop where
  /-- A term with further terms behind it. -/
  | chain {first others : List Token} {left operand : Operand} {m n : Nat} :
    TermTokens m first left → FurtherTerms n others left operand →
    SumTokens (max m n) (first ++ others) operand

/-- The tokens behind a term of a sum, and what they make of the operand before them. -/
inductive FurtherTerms : Nat → List Token → Operand → Operand → Prop where
  /-- Nothing further. -/
  | done {operand : Operand} : FurtherTerms 0 [] operand operand
  /-- A sign with a term, and further terms. -/
  | more {operator : Operator} {next others : List Token} {left right operand : Operand}
    {m n : Nat} : isSumOperator operator = true → TermTokens m next right →
    FurtherTerms n others (.arithmetic left operator right) operand →
    FurtherTerms (max m n + 1) (.operator operator :: (next ++ others)) left operand

/-- The tokens of terms. -/
inductive TermTokens : Nat → List Token → Operand → Prop where
  /-- A factor with further factors behind it. -/
  | chain {first others : List Token} {left operand : Operand} {m n : Nat} :
    FactorTokens m first left → FurtherFactors n others left operand →
    TermTokens (max m n) (first ++ others) operand

/-- The tokens behind a factor of a term, and what they make of the operand before them. -/
inductive FurtherFactors : Nat → List Token → Operand → Operand → Prop where
  /-- Nothing further. -/
  | done {operand : Operand} : FurtherFactors 0 [] operand operand
  /-- An operator of a product with a factor, and further factors. -/
  | more {operator : Operator} {next others : List Token} {left right operand : Operand}
    {m n : Nat} : isSumOperator operator = false → FactorTokens m next right →
    FurtherFactors n others (.arithmetic left operator right) operand →
    FurtherFactors (max m n + 1) (.operator operator :: (next ++ others)) left operand

/-- The tokens of factors. -/
inductive FactorTokens : Nat → List Token → Operand → Prop where
  /-- The negative of a factor. -/
  | negative {tokens : List Token} {inner : Operand} {n : Nat} : FactorTokens n tokens inner →
    FactorTokens (n + 1) (.operator .minus :: tokens) (.negative inner)
  /-- A primary operand with accessors behind it. -/
  | postfixed {first others : List Token} {base operand : Operand} {m n : Nat} :
    PrimaryTokens m first base → AccessorTokens n others base operand →
    FactorTokens (max m n + 1) (first ++ others) operand

/-- The tokens of accessors, and what they make of the operand before them. -/
inductive AccessorTokens : Nat → List Token → Operand → Operand → Prop where
  /-- No accessor. -/
  | done {operand : Operand} : AccessorTokens 0 [] operand operand
  /-- A point with the name of a field, and further accessors. -/
  | field {key : String} {others : List Token} {base operand : Operand} {n : Nat} :
    AccessorTokens n others (.field base key) operand →
    AccessorTokens (n + 1) (.dot :: .name key :: others) base operand
  /-- An operand in brackets, and further accessors. -/
  | index {inner others : List Token} {base position operand : Operand} {m n : Nat} :
    SumTokens m inner position → AccessorTokens n others (.index base position) operand →
    AccessorTokens (max m n + 1) (.openBracket :: (inner ++ .closeBracket :: others)) base operand

/-- The tokens of primary operands. -/
inductive PrimaryTokens : Nat → List Token → Operand → Prop where
  /-- A literal. -/
  | literal {value : Json} : PrimaryTokens 0 [.literal value] (.literal value)
  /-- The name of a bag. -/
  | bag {word : String} {which : Bag} : Bag.ofWord? word = some which →
    PrimaryTokens 0 [.name word] (.bag which)
  /-- A name that is not that of a bag. -/
  | name {word : String} : Bag.ofWord? word = none → PrimaryTokens 0 [.name word] (.name word)
  /-- A call without arguments. -/
  | callOfNone {word : String} : Bag.ofWord? word = none →
    PrimaryTokens 0 [.name word, .openParen, .closeParen] (.call word [])
  /-- A call with arguments. -/
  | call {word : String} {inner : List Token} {operands : List Operand} {n : Nat} :
    Bag.ofWord? word = none → ArgumentTokens n inner operands →
    PrimaryTokens n (.name word :: .openParen :: (inner ++ [.closeParen])) (.call word operands)
  /-- An operand in parentheses. -/
  | group {inner : List Token} {operand : Operand} {n : Nat} : SumTokens n inner operand →
    PrimaryTokens n (.openParen :: (inner ++ [.closeParen])) operand

/-- The tokens of one argument or of several with commas between them. -/
inductive ArgumentTokens : Nat → List Token → List Operand → Prop where
  /-- The last argument. -/
  | last {tokens : List Token} {operand : Operand} {n : Nat} : SumTokens n tokens operand →
    ArgumentTokens n tokens [operand]
  /-- An argument, a comma and further arguments. -/
  | more {first others : List Token} {operand : Operand} {operands : List Operand} {m n : Nat} :
    SumTokens m first operand → ArgumentTokens n others operands →
    ArgumentTokens (max m n) (first ++ .comma :: others) (operand :: operands)

end

/-- The tokens that an operand can begin with. -/
def isStart : Token → Bool
  | .literal _ | .name _ | .openParen | .operator .minus => true
  | _ => false

/-- Primary operands begin with a literal, a name or a parenthesis. -/
theorem PrimaryTokens.exists_start {n : Nat} {tokens : List Token} {operand : Operand}
    (h : PrimaryTokens n tokens operand) :
    ∃ token rest, tokens = token :: rest ∧ isStart token := by
  cases h <;> exact ⟨_, _, rfl, rfl⟩

/-- Factors begin with a sign or as primary operands do. -/
theorem FactorTokens.exists_start {n : Nat} {tokens : List Token} {operand : Operand}
    (h : FactorTokens n tokens operand) : ∃ token rest, tokens = token :: rest ∧ isStart token := by
  cases h with
  | negative => exact ⟨_, _, rfl, rfl⟩
  | postfixed hfirst _ =>
    obtain ⟨token, rest, rfl, hstart⟩ := hfirst.exists_start
    exact ⟨token, _, rfl, hstart⟩

/-- Sums begin as their first factors do. -/
theorem SumTokens.exists_start {n : Nat} {tokens : List Token} {operand : Operand}
    (h : SumTokens n tokens operand) : ∃ token rest, tokens = token :: rest ∧ isStart token := by
  obtain ⟨⟨hfactor, _⟩, _⟩ := h
  obtain ⟨token, rest, rfl, hstart⟩ := hfactor.exists_start
  exact ⟨token, _, rfl, hstart⟩

/-- Arguments begin as sums do. -/
theorem ArgumentTokens.exists_start {n : Nat} {tokens : List Token} {operands : List Operand}
    (h : ArgumentTokens n tokens operands) :
    ∃ token rest, tokens = token :: rest ∧ isStart token := by
  cases h with
  | last hsum => exact hsum.exists_start
  | more hsum _ =>
    obtain ⟨token, rest, rfl, hstart⟩ := hsum.exists_start
    exact ⟨token, _, rfl, hstart⟩

end Operand

end AccessControl
