import AccessControl.Proofs.Rule.Acceptance
import AccessControl.Rule

/-!
# The bags that a rule mentions

A rule reads no bag of a request but those that it mentions: two requests with the same content of
these give the same truth value, the same fault and the same calls. A bag is mentioned by its word
anywhere in the text, also in the position of an element, in an argument or in arithmetic, but not
behind a point, where the word is the name of a field.
-/

namespace AccessControl

/-- Whether two requests have the same content of the listed bags. -/
def Attributes.AgreeOn (bags : List Bag) (first second : Attributes) : Prop :=
  ∀ bag ∈ bags, first.bag bag = second.bag bag

instance (bags : List Bag) (first second : Attributes) :
    Decidable (Attributes.AgreeOn bags first second) :=
  inferInstanceAs (Decidable (∀ bag ∈ bags, first.bag bag = second.bag bag))

namespace Operand

mutual

/-- The bags that an operand mentions, in the order of its text. -/
def bags : Operand → List Bag
  | .literal _ => []
  | .bag which => [which]
  | .name _ => []
  | .field base _ => bags base
  | .index base position => bags base ++ bags position
  | .call _ arguments => bagsOfAll arguments
  | .negative inner => bags inner
  | .arithmetic left _ right => bags left ++ bags right

/-- The bags that a list of operands mentions. -/
def bagsOfAll : List Operand → List Bag
  | [] => []
  | operand :: rest => bags operand ++ bagsOfAll rest

end

end Operand

/-- The bags that a comparison mentions. -/
def Comparison.bags (comparison : Comparison) : List Bag :=
  comparison.left.bags ++ comparison.right.bags

/-- The bags that a rule mentions; none if its text is no rule. -/
def Rule.bags (rule : Rule) : List Bag :=
  match rule.compiled with
  | .error _ => []
  | .ok (comparison, _) => comparison.bags

section Evaluation

variable {first second : Attributes}

/-- Requests that agree on the bags of two lists agree on those of each. -/
theorem Attributes.AgreeOn.of_append {front back : List Bag}
    (h : AgreeOn (front ++ back) first second) :
    AgreeOn front first second ∧ AgreeOn back first second :=
  List.forall_mem_append.mp h

namespace Operand

mutual

/-- An operand has the same evaluation for requests that agree on the bags that it mentions. -/
theorem evaluate_eq_of_agreeOn (scope : Registry) : (operand : Operand) →
    Attributes.AgreeOn operand.bags first second →
      operand.evaluate scope first = operand.evaluate scope second
  | .literal _, _ => rfl
  | .bag which, h => by
    rw [evaluate, evaluate, h which (List.mem_singleton.mpr rfl)]
  | .name _, _ => by
    rw [evaluate, evaluate]
  | .field base key, h => by
    rw [evaluate, evaluate, evaluate_eq_of_agreeOn scope base h]
  | .index base position, h => by
    rw [bags] at h
    rw [evaluate, evaluate, evaluate_eq_of_agreeOn scope base h.of_append.1,
      evaluate_eq_of_agreeOn scope position h.of_append.2]
  | .call function operands, h => by
    rw [evaluate, evaluate, evaluateAll_eq_of_agreeOn scope operands h]
  | .negative inner, h => by
    rw [evaluate, evaluate, evaluate_eq_of_agreeOn scope inner h]
  | .arithmetic left operator right, h => by
    rw [bags] at h
    rw [evaluate, evaluate, evaluate_eq_of_agreeOn scope left h.of_append.1,
      evaluate_eq_of_agreeOn scope right h.of_append.2]

/-- Operands have the same evaluation for requests that agree on the bags that they mention. -/
theorem evaluateAll_eq_of_agreeOn (scope : Registry) : (operands : List Operand) →
    Attributes.AgreeOn (bagsOfAll operands) first second →
      evaluateAll scope first operands = evaluateAll scope second operands
  | [], _ => rfl
  | operand :: rest, h => by
    rw [bagsOfAll] at h
    rw [evaluateAll, evaluateAll, evaluate_eq_of_agreeOn scope operand h.of_append.1,
      evaluateAll_eq_of_agreeOn scope rest h.of_append.2]

end

end Operand

/-- A comparison has the same evaluation for requests that agree on the bags that it mentions. -/
theorem Comparison.evaluate_eq_of_agreeOn {comparison : Comparison}
    (h : Attributes.AgreeOn comparison.bags first second) (scope : Registry) :
    comparison.evaluate scope first = comparison.evaluate scope second := by
  rw [bags] at h
  rw [evaluate, evaluate, Operand.evaluate_eq_of_agreeOn scope _ h.of_append.1,
    Operand.evaluate_eq_of_agreeOn scope _ h.of_append.2]

/-- A rule has the same evaluation for requests that agree on the bags that it mentions. -/
theorem Rule.evaluate_eq_of_agreeOn {rule : Rule} (h : Attributes.AgreeOn rule.bags first second) :
    rule.evaluate first = rule.evaluate second := by
  rw [bags] at h
  rw [evaluate, evaluate]
  cases hcompiled : rule.compiled with
  | error cause => rfl
  | ok compiled =>
    rw [hcompiled] at h
    simp only [Comparison.evaluate_eq_of_agreeOn h]

end Evaluation

/-- The bags whose words are among tokens, other than behind a point. -/
def Token.bags : List Token → List Bag
  | [] => []
  | .dot :: _ :: rest => bags rest
  | .name word :: rest => (Bag.ofWord? word).toList ++ bags rest
  | _ :: rest => bags rest

/-- Whether a token is neither a name nor the point before one. -/
def Token.isMark : Token → Bool
  | .dot | .name _ => false
  | _ => true

/-- A token that is neither a name nor a point mentions no bag. -/
theorem Token.bags_cons {token : Token} (h : token.isMark = true) (rest : List Token) :
    bags (token :: rest) = bags rest := by
  cases token <;> first | rfl | cases h

namespace Operand

mutual

/-- The tokens of a sum mention the bags of the operand, whatever stands behind them. -/
theorem SumTokens.bags_append {n : Nat} {tokens : List Token} {operand : Operand} :
    SumTokens n tokens operand → (rest : List Token) →
      Token.bags (tokens ++ rest) = operand.bags ++ Token.bags rest
  | .chain hterm hothers, rest => by
    rw [List.append_assoc, hterm.bags_append, hothers.bags_append]

/-- Further terms mention the bags that they add to those of the operand before them. -/
theorem FurtherTerms.bags_append {n : Nat} {tokens : List Token} {left operand : Operand} :
    FurtherTerms n tokens left operand → (rest : List Token) →
      left.bags ++ Token.bags (tokens ++ rest) = operand.bags ++ Token.bags rest
  | .done, _ => rfl
  | .more _ hterm hothers, rest => by
    rw [← hothers.bags_append rest, List.cons_append, List.append_assoc, Token.bags_cons rfl,
      hterm.bags_append, Operand.bags, List.append_assoc]

/-- The tokens of a term mention the bags of the operand. -/
theorem TermTokens.bags_append {n : Nat} {tokens : List Token} {operand : Operand} :
    TermTokens n tokens operand → (rest : List Token) →
      Token.bags (tokens ++ rest) = operand.bags ++ Token.bags rest
  | .chain hfactor hothers, rest => by
    rw [List.append_assoc, hfactor.bags_append, hothers.bags_append]

/-- Further factors mention the bags that they add to those of the operand before them. -/
theorem FurtherFactors.bags_append {n : Nat} {tokens : List Token} {left operand : Operand} :
    FurtherFactors n tokens left operand → (rest : List Token) →
      left.bags ++ Token.bags (tokens ++ rest) = operand.bags ++ Token.bags rest
  | .done, _ => rfl
  | .more _ hfactor hothers, rest => by
    rw [← hothers.bags_append rest, List.cons_append, List.append_assoc, Token.bags_cons rfl,
      hfactor.bags_append, Operand.bags, List.append_assoc]

/-- The tokens of a factor mention the bags of the operand. -/
theorem FactorTokens.bags_append {n : Nat} {tokens : List Token} {operand : Operand} :
    FactorTokens n tokens operand → (rest : List Token) →
      Token.bags (tokens ++ rest) = operand.bags ++ Token.bags rest
  | .negative hinner, rest => by
    rw [List.cons_append, Token.bags_cons rfl, hinner.bags_append, Operand.bags]
  | .postfixed hbase hothers, rest => by
    rw [List.append_assoc, hbase.bags_append, hothers.bags_append]

/-- Accessors mention the bags of positions, and none by the name of a field. -/
theorem AccessorTokens.bags_append {n : Nat} {tokens : List Token} {base operand : Operand} :
    AccessorTokens n tokens base operand → (rest : List Token) →
      base.bags ++ Token.bags (tokens ++ rest) = operand.bags ++ Token.bags rest
  | .done, _ => rfl
  | .field hothers, rest => by
    rw [← hothers.bags_append rest, List.cons_append, List.cons_append, Token.bags, Operand.bags]
  | .index hposition hothers, rest => by
    rw [← hothers.bags_append rest, List.cons_append, List.append_assoc, Token.bags_cons rfl,
      hposition.bags_append, List.cons_append, Token.bags_cons rfl, Operand.bags,
      List.append_assoc]

/-- The tokens of a primary operand mention the bags of the operand. -/
theorem PrimaryTokens.bags_append {n : Nat} {tokens : List Token} {operand : Operand} :
    PrimaryTokens n tokens operand → (rest : List Token) →
      Token.bags (tokens ++ rest) = operand.bags ++ Token.bags rest
  | .literal, _ => rfl
  | .bag hword, _ => by
    rw [List.singleton_append, Token.bags, hword, Operand.bags, Option.toList_some]
  | .name hword, _ => by
    rw [List.singleton_append, Token.bags, hword, Operand.bags, Option.toList_none]
  | .callOfNone hword, _ => by
    simp only [List.cons_append, List.nil_append, Token.bags, hword, Operand.bags, bagsOfAll,
      Option.toList_none]
  | .call hword harguments, rest => by
    rw [List.cons_append, List.cons_append, List.append_assoc, Token.bags, hword,
      Option.toList_none, List.nil_append, Token.bags_cons rfl, harguments.bags_append,
      List.singleton_append, Token.bags_cons rfl, Operand.bags]
  | .group hinner, rest => by
    rw [List.cons_append, List.append_assoc, Token.bags_cons rfl, hinner.bags_append,
      List.singleton_append, Token.bags_cons rfl]

/-- The tokens of arguments mention the bags of the arguments. -/
theorem ArgumentTokens.bags_append {n : Nat} {tokens : List Token} {operands : List Operand} :
    ArgumentTokens n tokens operands → (rest : List Token) →
      Token.bags (tokens ++ rest) = bagsOfAll operands ++ Token.bags rest
  | .last hsum, rest => by
    rw [hsum.bags_append, bagsOfAll, bagsOfAll, List.append_nil]
  | .more hsum hothers, rest => by
    rw [List.append_assoc, hsum.bags_append, List.cons_append, Token.bags_cons rfl,
      hothers.bags_append, bagsOfAll, List.append_assoc]

end

end Operand

/-- A rule mentions just the bags whose words are among the tokens of its text, other than behind a
point, in the same order. -/
theorem Rule.bags_compile {source : String} {registry : Registry} {lexemes : List Lexeme}
    (hscan : Lexeme.scan source = .ok lexemes) (h : (compile source registry).isCompiled = true) :
    (compile source registry).bags = Token.bags (lexemes.map Lexeme.token) := by
  cases hparse : Comparison.parse source with
  | error cause =>
    rw [isCompiled, syntaxError?, compile, hparse] at h
    cases h
  | ok comparison =>
    rw [Comparison.parse_of_scan hscan] at hparse
    obtain ⟨m, -, n, -, left, right, htokens, -, -, hleft, hright⟩ :=
      Comparison.ofLexemes_sound hparse
    rw [← Comparison.parse_of_scan hscan] at hparse
    have hbehind := hright.bags_append []
    rw [List.append_nil, Token.bags, List.append_nil] at hbehind
    rw [bags, compile, hparse, htokens, hleft.bags_append, Token.bags_cons rfl, hbehind]
    rfl

end AccessControl
