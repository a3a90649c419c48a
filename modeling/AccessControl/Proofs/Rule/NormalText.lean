import AccessControl.Proofs.Rule.Leaves
import AccessControl.Proofs.Rule.Spelling

/-!
# What the normal text of an operand says

The normal text of an operand has tokens, and the tokens make up an operand, with levels that they
claim. It need not be the operand that was written. Only arithmetic operations are put into
parentheses, so that an accessor behind a negation is read as one of what is negated, and control
characters are written with escapes that rules do not have.
-/

namespace AccessControl.Operand

/-- Makes a larger operand of what stands behind the minus signs of an operand. -/
def extend (access : Operand → Operand) : Operand → Operand
  | .negative inner => .negative (extend access inner)
  | operand => access operand

mutual

/-- What a rule reads where an operand is written. -/
def reread : Operand → Operand
  | .literal value => .literal value.reread
  | .bag which => .bag which
  | .name word => .name word
  | .field base key => extend (fun inner => .field inner key) (reread base)
  | .index base position => extend (fun inner => .index inner (reread position)) (reread base)
  | .call function operands => .call function (rereadAll operands)
  | .negative inner => .negative (reread inner)
  | .arithmetic left operator right => .arithmetic (reread left) operator (reread right)

/-- What a rule reads where the operands of a list are written. -/
def rereadAll : List Operand → List Operand
  | [] => []
  | operand :: rest => reread operand :: rereadAll rest

end

mutual

/-- The tokens of the normal text of an operand. -/
def tokens : Operand → List Token
  | .literal value => [.literal value.reread]
  | .bag which => [.name which.word]
  | .name word => [.name word]
  | .field base key => tokens base ++ [.dot, .name key]
  | .index base position => tokens base ++ .openBracket :: (tokens position ++ [.closeBracket])
  | .call function operands =>
    .name function :: .openParen :: (argumentsTokens operands ++ [.closeParen])
  | .negative inner => .operator .minus :: tokens inner
  | .arithmetic left operator right =>
    .openParen :: ((tokens left ++ .operator operator :: tokens right) ++ [.closeParen])

/-- The tokens of the normal text of arguments. -/
def argumentsTokens : List Operand → List Token
  | [] => []
  | operand :: rest => tokens operand ++ furtherTokens rest

/-- The tokens of the normal text of further arguments. -/
def furtherTokens : List Operand → List Token
  | [] => []
  | operand :: rest => .comma :: (tokens operand ++ furtherTokens rest)

end

mutual

/-- The levels that the normal text of an operand claims behind its first one, where the accessors
behind it claim the given ones. -/
def claimed : Operand → Nat → Nat
  | .literal _, behind | .bag _, behind | .name _, behind => behind
  | .field base _, behind => claimed base (behind + 1)
  | .index base position, behind => claimed base (max (claimed position 0 + 1) behind + 1)
  | .call _ operands, behind => max (claimedByAll operands) behind
  | .negative inner, behind => claimed inner behind + 1
  | .arithmetic left _ right, behind =>
    max (max (claimed left 0 + 1) (claimed right 0 + 1 + 1)) behind

/-- The levels that the normal text of arguments claims. -/
def claimedByAll : List Operand → Nat
  | [] => 0
  | operand :: rest => max (claimed operand 0 + 1) (claimedByAll rest)

end

/-- The levels that the normal text of an operand claims. -/
def normalLevels (operand : Operand) : Nat := operand.claimed 0 + 1

/-- A name can follow a point. -/
theorem separated_point {word : String} (h : Token.IsName word) (rest : List Char) :
    Token.Separated ('.' :: (word.toList ++ rest)) := by
  obtain ⟨first, others, hspelling, hfirst, -⟩ := h.spelling
  refine ⟨by decide, fun _ => ?_⟩
  rw [hspelling]
  exact Token.isDigit_of_isNameStart hfirst

/-- Brackets, parentheses, commas and blanks end a name or a number. -/
theorem separated_mark {c : Char} (h : c ∈ ['[', ']', '(', ')', ',', ' ']) (rest : List Char) :
    Token.Separated (c :: rest) := by
  have hmark : Text.isNamePart c = false ∧ c ≠ '.' := by
    simp only [List.mem_cons, List.not_mem_nil, or_false] at h
    rcases h with rfl | rfl | rfl | rfl | rfl | rfl <;> exact ⟨by decide, by decide⟩
  exact ⟨hmark.1, fun hpoint => absurd hpoint hmark.2⟩

/-- The words of bags are names. -/
theorem isName_bag (which : Bag) : Token.IsName which.word := by
  cases which <;> exact ⟨⟨_, _, rfl, by decide, List.all_eq_true.mp (by decide)⟩, rfl⟩

/-- Further arguments end an operand before them. -/
theorem separated_furtherText (operands : List Operand) (rest : List Char) :
    Token.Separated (furtherText operands ++ ')' :: rest) := by
  cases operands with
  | nil => exact separated_mark (by simp) rest
  | cons operand others => exact separated_mark (by simp) _

mutual

/-- The normal text of an operand is cut into its tokens. -/
theorem cuts_text : (operand : Operand) → MadeOf Token.Legible operand → (rest : List Char) →
    Token.Separated rest → Lexeme.Cuts operand.text operand.tokens rest
  | .literal value, h, rest, hrest => Lexeme.cuts_literal h hrest
  | .bag which, _, rest, hrest => Lexeme.cuts_name (isName_bag which) hrest
  | .name word, h, rest, hrest => Lexeme.cuts_name h.2 hrest
  | .field base key, h, rest, hrest => by
    have hpoint := separated_point h.2 rest
    have hbase := cuts_text base h.1 _ hpoint
    have hdot : Lexeme.Cuts ['.'] [.dot] (key.toList ++ rest) := Lexeme.cuts_sign rfl hpoint.2
    exact hbase.append (hdot.cons (Lexeme.cuts_name h.2 hrest))
  | .index base position, h, rest, hrest => by
    have hbase := cuts_text base h.1 ('[' :: (position.text ++ [']'] ++ rest))
      (separated_mark (by simp) _)
    have hopen := Lexeme.cuts_mark (c := '[') rfl (by decide) (position.text ++ [']'] ++ rest)
    have hposition := cuts_text position h.2 (']' :: rest) (separated_mark (by simp) rest)
    have hclose := Lexeme.cuts_mark (c := ']') rfl (by decide) rest
    exact hbase.append (hopen.cons (hposition.append hclose))
  | .call function operands, h, rest, hrest => by
    have hfunction := Lexeme.cuts_name h.1.2
      (separated_mark (c := '(') (by simp) (argumentsText operands ++ [')'] ++ rest))
    have hopen := Lexeme.cuts_mark (c := '(') rfl (by decide)
      (argumentsText operands ++ [')'] ++ rest)
    have hoperands := cuts_argumentsText operands h.2 rest
    have hclose := Lexeme.cuts_mark (c := ')') rfl (by decide) rest
    exact hfunction.append (hopen.cons (hoperands.append hclose))
  | .negative inner, h, rest, hrest => by
    have hminus := Lexeme.cuts_operator .minus (inner.text ++ rest)
    have hinner := cuts_text inner h rest hrest
    exact hminus.cons hinner
  | .arithmetic left operator right, h, rest, hrest => by
    have hopen := fun behind => Lexeme.cuts_mark (c := '(') rfl (by decide) behind
    have hleft := fun behind => cuts_text left h.1 (' ' :: behind) (separated_mark (by simp) behind)
    have hspace := fun behind => Lexeme.cuts_blank (c := ' ') (by decide) behind
    have hoperator := fun behind => Lexeme.cuts_operator operator behind
    have hright := cuts_text right h.2 (')' :: rest) (separated_mark (by simp) rest)
    have hclose := Lexeme.cuts_mark (c := ')') rfl (by decide) rest
    have hbehind := (hspace _).cons (hright.append hclose)
    have hall := (hopen _).cons ((hleft _).append ((hspace _).cons ((hoperator _).append hbehind)))
    simpa only [text, tokens, List.nil_append, List.singleton_append, List.append_assoc,
      List.cons_append] using hall

/-- The normal text of arguments is cut into their tokens. -/
theorem cuts_argumentsText : (operands : List Operand) → AllMadeOf Token.Legible operands →
    (rest : List Char) →
      Lexeme.Cuts (argumentsText operands) (argumentsTokens operands) (')' :: rest)
  | [], _, _ => Lexeme.cuts_nil
  | operand :: others, h, rest =>
    (cuts_text operand h.1 _ (separated_furtherText others rest)).append
      (cuts_furtherText others h.2 rest)

/-- The normal text of further arguments is cut into their tokens. -/
theorem cuts_furtherText : (operands : List Operand) → AllMadeOf Token.Legible operands →
    (rest : List Char) →
      Lexeme.Cuts (furtherText operands) (furtherTokens operands) (')' :: rest)
  | [], _, _ => Lexeme.cuts_nil
  | operand :: others, h, rest => by
    have hoperand := cuts_text operand h.1 _ (separated_furtherText others rest)
    have hall := hoperand.append (cuts_furtherText others h.2 rest)
    exact (Lexeme.cuts_mark rfl (by decide) _).cons ((Lexeme.cuts_blank (by decide) _).cons hall)

end

/-- Extending twice is extending by both at once, if what the inner one makes is no negation. -/
theorem extend_extend {access wrap : Operand → Operand}
    (h : ∀ base, extend access (wrap base) = access (wrap base)) : (operand : Operand) →
    extend access (extend wrap operand) = extend (fun base => access (wrap base)) operand
  | .negative inner => congrArg Operand.negative (extend_extend h inner)
  | .literal _ | .bag _ | .name _ | .field _ _ | .index _ _ | .call _ _ | .arithmetic _ _ _ => h _

/-- Extending by nothing leaves an operand as it is. -/
theorem extend_self : (operand : Operand) → extend (fun base => base) operand = operand
  | .negative inner => congrArg Operand.negative (extend_self inner)
  | .literal _ | .bag _ | .name _ | .field _ _ | .index _ _ | .call _ _ | .arithmetic _ _ _ => rfl

variable {m n : Nat} {first second : List Token} {left right : Operand}

/-- A factor with no accessors behind it. -/
theorem FactorTokens.bare
    (h : FactorTokens n (first ++ []) (extend (fun inner => inner) left)) :
    FactorTokens n first left := by
  rwa [extend_self, List.append_nil] at h

/-- A factor is a sum. -/
theorem FactorTokens.sum (h : FactorTokens n first left) : SumTokens n first left := by
  have hterm : TermTokens (max n 0) (first ++ []) left := .chain h .done
  have hsum : SumTokens (max (max n 0) 0) (first ++ [] ++ []) left := .chain hterm .done
  simpa only [Nat.max_zero, List.append_nil] using hsum

/-- Two factors with an operator between them are a sum. -/
theorem FactorTokens.arithmetic (hleft : FactorTokens m first left)
    (operator : Operator) (hright : FactorTokens n second right) :
    SumTokens (max m (n + 1)) (first ++ .operator operator :: second)
      (.arithmetic left operator right) := by
  cases hoperator : isSumOperator operator with
  | true =>
    have hterm : TermTokens (max n 0) (second ++ []) right := .chain hright .done
    have hothers : FurtherTerms _ _ left (.arithmetic left operator right) :=
      .more hoperator hterm .done
    have hsum := SumTokens.chain (.chain hleft .done) hothers
    simpa only [Nat.max_zero, List.append_nil] using hsum
  | false =>
    have hothers : FurtherFactors _ _ left (.arithmetic left operator right) :=
      .more hoperator hright .done
    have hsum := SumTokens.chain (.chain hleft hothers) .done
    simpa only [Nat.max_zero, List.append_nil] using hsum

mutual

/-- The tokens of an operand with accessors behind them are a factor: what is read of the operand,
extended by the accessors. -/
theorem factorTokens : (operand : Operand) → MadeOf Token.Legible operand → (n : Nat) →
    (others : List Token) → (access : Operand → Operand) →
    (∀ base, AccessorTokens n others base (access base)) →
      FactorTokens (operand.claimed n + 1) (operand.tokens ++ others)
        (extend access operand.reread)
  | .literal value, _, n, others, access, haccess => by
    have hfactor := FactorTokens.postfixed .literal (haccess (.literal value.reread))
    rwa [Nat.zero_max] at hfactor
  | .bag which, _, n, others, access, haccess => by
    have hword : Bag.ofWord? which.word = some which := by cases which <;> rfl
    have hfactor := FactorTokens.postfixed (.bag hword) (haccess _)
    rwa [Nat.zero_max] at hfactor
  | .name word, h, n, others, access, haccess => by
    have hfactor := FactorTokens.postfixed (.name h.1) (haccess _)
    rwa [Nat.zero_max] at hfactor
  | .field base key, h, n, others, access, haccess => by
    have hbase := factorTokens base h.1 (n + 1) (.dot :: .name key :: others)
      (fun inner => access (.field inner key)) (fun inner => .field (haccess (.field inner key)))
    rw [reread, extend_extend (fun _ => rfl), tokens, claimed, List.append_assoc]
    exact hbase
  | .index base position, h, n, others, access, haccess => by
    have hposition := factorTokens position h.2 0 [] (fun inner => inner) (fun _ => .done)
    have hbase := factorTokens base h.1 (max (position.claimed 0 + 1) n + 1)
      (.openBracket :: (position.tokens ++ .closeBracket :: others))
      (fun inner => access (.index inner position.reread))
      (fun inner => .index hposition.bare.sum (haccess (.index inner position.reread)))
    rw [reread, extend_extend (fun _ => rfl), tokens, claimed]
    simpa only [List.append_assoc, List.cons_append, List.nil_append] using hbase
  | .call function [], h, n, others, access, haccess =>
    .postfixed (.callOfNone h.1.1) (haccess _)
  | .call function (operand :: rest), h, n, others, access, haccess => by
    have harguments := argumentTokens (operand :: rest) (List.cons_ne_nil operand rest) h.2
    exact FactorTokens.postfixed (.call h.1.1 harguments) (haccess _)
  | .negative inner, h, n, others, access, haccess =>
    .negative (factorTokens inner h n others access haccess)
  | .arithmetic left operator right, h, n, others, access, haccess => by
    have hleft := factorTokens left h.1 0 [] (fun inner => inner) (fun _ => .done)
    have hright := factorTokens right h.2 0 [] (fun inner => inner) (fun _ => .done)
    exact .postfixed (.group (hleft.bare.arithmetic operator hright.bare)) (haccess _)

/-- The tokens of arguments are arguments: what is read of them. -/
theorem argumentTokens : (operands : List Operand) → operands ≠ [] →
    AllMadeOf Token.Legible operands →
      ArgumentTokens (claimedByAll operands) (argumentsTokens operands) (rereadAll operands)
  | [], hne, _ => absurd rfl hne
  | [operand], _, h => by
    have hoperand := factorTokens operand h.1 0 [] (fun inner => inner) (fun _ => .done)
    simpa only [claimedByAll, argumentsTokens, furtherTokens, rereadAll, Nat.max_zero,
      List.append_nil] using ArgumentTokens.last hoperand.bare.sum
  | operand :: next :: rest, _, h => by
    have hoperand := factorTokens operand h.1 0 [] (fun inner => inner) (fun _ => .done)
    have hothers := argumentTokens (next :: rest) (List.cons_ne_nil next rest) h.2
    exact .more hoperand.bare.sum hothers

end

/-- The tokens of an operand make up what is read of it, with the levels of its normal text. -/
theorem sumTokens {operand : Operand} (h : MadeOf Token.Legible operand) :
    SumTokens operand.normalLevels operand.tokens operand.reread := by
  have hfactor := factorTokens operand h 0 [] (fun inner => inner) (fun _ => .done)
  exact hfactor.bare.sum

mutual

/-- No comparison operator is among the tokens of an operand. -/
theorem relation_notMem_tokens (relation : Relation) : (operand : Operand) →
    .relation relation ∉ operand.tokens
  | .literal _ | .bag _ | .name _ => by simp [tokens]
  | .field base _ => by simp [tokens, relation_notMem_tokens relation base]
  | .index base position => by
    simp [tokens, relation_notMem_tokens relation base, relation_notMem_tokens relation position]
  | .call _ operands => by simp [tokens, relation_notMem_argumentsTokens relation operands]
  | .negative inner => by simp [tokens, relation_notMem_tokens relation inner]
  | .arithmetic left _ right => by
    simp [tokens, relation_notMem_tokens relation left, relation_notMem_tokens relation right]

/-- No comparison operator is among the tokens of arguments. -/
theorem relation_notMem_argumentsTokens (relation : Relation) : (operands : List Operand) →
    .relation relation ∉ argumentsTokens operands
  | [] => List.not_mem_nil
  | operand :: rest => by
    simp [argumentsTokens, relation_notMem_tokens relation operand,
      relation_notMem_furtherTokens relation rest]

/-- No comparison operator is among the tokens of further arguments. -/
theorem relation_notMem_furtherTokens (relation : Relation) : (operands : List Operand) →
    .relation relation ∉ furtherTokens operands
  | [] => List.not_mem_nil
  | operand :: rest => by
    simp [furtherTokens, relation_notMem_tokens relation operand,
      relation_notMem_furtherTokens relation rest]

end

end AccessControl.Operand
