import AccessControl.Proofs.Rule.Soundness

/-!
# The language of rules is read

Tokens of the grammar are read up to their end, whatever stands behind them, as long as that does
not go on with the operand that was read. Where the levels that they claim keep to the budget, the
operand that they stand for is returned, and where they do not, the reading stops at the depth and
at nothing else. Both cases are one equation, so that a reader of two parts claims the levels of the
part that claims more.
-/

namespace AccessControl.Operand

/-- What reading gives where the levels that are claimed have to keep to a budget. -/
def within {α : Type} (side : Side) (budget claimed : Nat) (value : α) : Except SyntaxError α :=
  if claimed ≤ budget then .ok value else .error (.tooDeep side levels)

section Within

variable {α : Type} {side : Side} {budget m n : Nat} {value : α}

/-- What claims no level is read at every budget. -/
theorem within_zero : within side budget 0 value = .ok value := if_pos (Nat.zero_le _)

/-- What claims a level is read at no empty budget. -/
theorem within_zero_succ : within side 0 (n + 1) value = .error (.tooDeep side levels) :=
  if_neg (Nat.not_succ_le_zero _)

/-- A level claimed lowers the budget. -/
theorem within_succ : within side (budget + 1) (n + 1) value = within side budget n value := by
  simp only [within, Nat.add_le_add_iff_right]

/-- Two parts keep to a budget where the part keeps to it that claims more. -/
theorem within_max : within side budget (max m n) value =
    if m ≤ budget then within side budget n value else .error (.tooDeep side levels) := by
  by_cases hm : m ≤ budget <;>
    simp only [within, Nat.max_le, hm, true_and, false_and, if_true, if_false]

end Within

/-- The token that makes a call of a name. -/
def opensCall : Token → Bool
  | .openParen => true
  | _ => false

/-- The tokens that go on with a factor. -/
def extendsFactor : Token → Bool
  | .openParen | .dot | .openBracket => true
  | _ => false

/-- The tokens that go on with a term. -/
def extendsTerm : Token → Bool
  | .operator operator => !isSumOperator operator
  | token => extendsFactor token

/-- The tokens that go on with a sum. -/
def extendsSum : Token → Bool
  | .operator _ => true
  | token => extendsFactor token

/-- What stands behind some tokens does not go on with them. -/
def Stops (goesOn : Token → Bool) (rest : List Lexeme) : Prop :=
  ∀ lexeme ∈ rest.head?, goesOn lexeme.token = false

/-- What stops one thing stops everything that fewer tokens go on with. -/
theorem Stops.mono {more fewer : Token → Bool}
    (himp : ∀ token, fewer token = true → more token = true) {rest : List Lexeme}
    (h : Stops more rest) : Stops fewer rest := by
  intro lexeme hmem
  have hmore := h lexeme hmem
  cases hfewer : fewer lexeme.token with
  | false => rfl
  | true => rw [himp _ hfewer] at hmore; cases hmore

/-- What stops a sum stops a term. -/
theorem Stops.term {rest : List Lexeme} (h : Stops extendsSum rest) : Stops extendsTerm rest :=
  h.mono (fun token htoken => by cases token <;> first | exact htoken | rfl)

/-- What stops a term stops a factor. -/
theorem Stops.factor {rest : List Lexeme} (h : Stops extendsTerm rest) :
    Stops extendsFactor rest :=
  h.mono (fun token htoken => by cases token <;> first | exact htoken | cases htoken)

/-- What stops a factor makes no call. -/
theorem Stops.call {rest : List Lexeme} (h : Stops extendsFactor rest) : Stops opensCall rest :=
  h.mono (fun token htoken => by cases token <;> first | rfl | cases htoken)

/-- A token that does not go on with something stops it. -/
theorem stops_cons {goesOn : Token → Bool} {lexeme : Lexeme} (h : goesOn lexeme.token = false)
    (rest : List Lexeme) : Stops goesOn (lexeme :: rest) := by
  intro other hmem
  cases hmem
  exact h

/-- Tokens of which the first does not go on with something stop it. -/
theorem stops_of_map {goesOn : Token → Bool} {token : Token} {others : List Token}
    {used : List Lexeme} (hused : used.map Lexeme.token = token :: others)
    (h : goesOn token = false) (rest : List Lexeme) : Stops goesOn (used ++ rest) := by
  obtain ⟨lexeme, others, rfl, rfl, -⟩ := List.map_eq_cons_iff.mp hused
  exact stops_cons h _

section Stopping

variable {n : Nat} {tokens : List Token} {left operand : Operand} {used rest : List Lexeme}

/-- Accessors, and what stops them, make no call. -/
theorem AccessorTokens.stops (h : AccessorTokens n tokens left operand)
    (hused : used.map Lexeme.token = tokens) (hrest : Stops extendsFactor rest) :
    Stops opensCall (used ++ rest) := by
  cases h with
  | done => rw [List.map_eq_nil_iff.mp hused]; exact hrest.call
  | field => exact stops_of_map hused rfl rest
  | index => exact stops_of_map hused rfl rest

/-- Further factors, and what stops them, stop a factor. -/
theorem FurtherFactors.stops (h : FurtherFactors n tokens left operand)
    (hused : used.map Lexeme.token = tokens) (hrest : Stops extendsTerm rest) :
    Stops extendsFactor (used ++ rest) := by
  cases h with
  | done => rw [List.map_eq_nil_iff.mp hused]; exact hrest.factor
  | more => exact stops_of_map hused rfl rest

/-- Further terms, and what stops them, stop a term. -/
theorem FurtherTerms.stops (h : FurtherTerms n tokens left operand)
    (hused : used.map Lexeme.token = tokens) (hrest : Stops extendsSum rest) :
    Stops extendsTerm (used ++ rest) := by
  cases h with
  | done => rw [List.map_eq_nil_iff.mp hused]; exact hrest.term
  | more hoperator => exact stops_of_map hused (by rw [extendsTerm, hoperator]; rfl) rest

end Stopping

section Nothing

variable {side : Side} {rest : List Lexeme}

/-- Where no accessor stands, none is read. -/
theorem accessors_nothing (h : Stops extendsFactor rest) (budget : Nat) (base : Operand) :
    accessors side budget base rest = .ok (base, rest) := by
  cases rest with
  | nil => cases budget <;> rfl
  | cons lexeme rest =>
    obtain ⟨token, offset⟩ := lexeme
    have htoken := h _ rfl
    cases budget <;> cases token <;> first | rfl | cases htoken

/-- Where no operator of a product stands, none is read. -/
theorem moreFactors_nothing (h : Stops extendsTerm rest) (budget : Nat) (left : Operand) :
    moreFactors side budget left rest = .ok (left, rest) := by
  cases rest with
  | nil => cases budget <;> rfl
  | cons lexeme rest =>
    obtain ⟨token, offset⟩ := lexeme
    have htoken := h _ rfl
    cases token with
    | operator operator =>
      have hoperator : isSumOperator operator = true := by simpa [extendsTerm] using htoken
      cases budget <;> simp [moreFactors, hoperator]
    | _ => cases budget <;> rfl

/-- Where no operator stands, none is read. -/
theorem moreTerms_nothing (h : Stops extendsSum rest) (budget : Nat) (left : Operand) :
    moreTerms side budget left rest = .ok (left, rest) := by
  cases rest with
  | nil => cases budget <;> rfl
  | cons lexeme rest =>
    obtain ⟨token, offset⟩ := lexeme
    have htoken := h _ rfl
    cases token with
    | operator => cases htoken
    | _ => cases budget <;> rfl

end Nothing

/-- At every budget, a reader takes tokens off, unless they claim too many levels for it. What is
behind the tokens must not go on with them. -/
def Reads {α : Type} (side : Side) (read : (budget : Nat) → Reader α) (goesOn : Token → Bool)
    (claimed : Nat) (tokens : List Token) (value : α) : Prop :=
  ∀ budget (used rest : List Lexeme), used.map Lexeme.token = tokens → Stops goesOn rest →
    read budget (used ++ rest) = within side budget claimed (value, rest)

/-- What is read one behind the other claims the levels of the part that claims more. -/
theorem continued_eq {side : Side} {budget m n : Nat} {head : Reader Operand}
    {tail : Operand → Reader Operand} {lexemes behind rest : List Lexeme} {left operand : Operand}
    (hhead : head lexemes = within side budget m (left, behind))
    (htail : tail left behind = within side budget n (operand, rest)) :
    continued head tail lexemes = within side budget (max m n) (operand, rest) := by
  rw [continued, hhead, within_max, within]
  by_cases hm : m ≤ budget
  · simp only [if_pos hm, htail]
  · simp only [if_neg hm]

section Parts

variable {side : Side} {m n : Nat} {tokens others : List Token} {left operand : Operand}

/-- A term is read if its factors are. -/
theorem reads_term (hfirst : Reads side (factor side) extendsFactor m tokens left)
    (hothers : Reads side (fun budget => moreFactors side budget left) extendsTerm n others operand)
    (hfurther : FurtherFactors n others left operand) :
    Reads side (term side) extendsTerm (max m n) (tokens ++ others) operand := by
  intro budget used rest hused hrest
  obtain ⟨front, back, rfl, rfl, rfl⟩ := List.map_eq_append_iff.mp hused
  rw [List.append_assoc]
  exact continued_eq (hfirst budget front _ rfl (hfurther.stops rfl hrest))
    (hothers budget back rest rfl hrest)

/-- A sum is read if its terms are. -/
theorem reads_sum (hfirst : Reads side (term side) extendsTerm m tokens left)
    (hothers : Reads side (fun budget => moreTerms side budget left) extendsSum n others operand)
    (hfurther : FurtherTerms n others left operand) :
    Reads side (sum side) extendsSum (max m n) (tokens ++ others) operand := by
  intro budget used rest hused hrest
  obtain ⟨front, back, rfl, rfl, rfl⟩ := List.map_eq_append_iff.mp hused
  rw [List.append_assoc]
  exact continued_eq (hfirst budget front _ rfl (hfurther.stops rfl hrest))
    (hothers budget back rest rfl hrest)

/-- Further factors are read if the next one is and those behind it are. -/
theorem reads_moreFactors {operator : Operator} {right : Operand}
    (hoperator : isSumOperator operator = false)
    (hnext : Reads side (factor side) extendsFactor m tokens right)
    (hothers : Reads side (fun budget => moreFactors side budget (.arithmetic left operator right))
      extendsTerm n others operand)
    (hfurther : FurtherFactors n others (.arithmetic left operator right) operand) :
    Reads side (fun budget => moreFactors side budget left) extendsTerm (max m n + 1)
      (.operator operator :: (tokens ++ others)) operand := by
  intro budget used rest hused hrest
  obtain ⟨⟨_, offset⟩, behind, rfl, rfl, hbehind⟩ := List.map_eq_cons_iff.mp hused
  obtain ⟨front, back, rfl, rfl, rfl⟩ := List.map_eq_append_iff.mp hbehind
  rw [List.cons_append, List.append_assoc]
  cases budget with
  | zero => simp [moreFactors, hoperator, within_zero_succ]
  | succ budget =>
    have hread : continued (factor side budget)
        (fun right => moreFactors side budget (.arithmetic left operator right))
        (front ++ (back ++ rest)) = within side budget (max m n) (operand, rest) :=
      continued_eq (hnext budget front _ rfl (hfurther.stops rfl hrest))
        (hothers budget back rest rfl hrest)
    simp only [moreFactors, hoperator, Bool.false_eq_true, if_false, within_succ]
    exact hread

/-- Further terms are read if the next one is and those behind it are. -/
theorem reads_moreTerms {operator : Operator} {right : Operand}
    (hoperator : isSumOperator operator = true)
    (hnext : Reads side (term side) extendsTerm m tokens right)
    (hothers : Reads side (fun budget => moreTerms side budget (.arithmetic left operator right))
      extendsSum n others operand)
    (hfurther : FurtherTerms n others (.arithmetic left operator right) operand) :
    Reads side (fun budget => moreTerms side budget left) extendsSum (max m n + 1)
      (.operator operator :: (tokens ++ others)) operand := by
  intro budget used rest hused hrest
  obtain ⟨⟨_, offset⟩, behind, rfl, rfl, hbehind⟩ := List.map_eq_cons_iff.mp hused
  obtain ⟨front, back, rfl, rfl, rfl⟩ := List.map_eq_append_iff.mp hbehind
  rw [List.cons_append, List.append_assoc]
  cases budget with
  | zero => simp [moreTerms, hoperator, within_zero_succ]
  | succ budget =>
    have hread : continued (term side budget)
        (fun right => moreTerms side budget (.arithmetic left operator right))
        (front ++ (back ++ rest)) = within side budget (max m n) (operand, rest) :=
      continued_eq (hnext budget front _ rfl (hfurther.stops rfl hrest))
        (hothers budget back rest rfl hrest)
    simp only [moreTerms, hoperator, if_true, within_succ]
    exact hread

/-- The negative of a factor is read if the factor is. -/
theorem reads_negative (hinner : Reads side (factor side) extendsFactor n tokens operand) :
    Reads side (factor side) extendsFactor (n + 1) (.operator .minus :: tokens)
      (.negative operand) := by
  intro budget used rest hused hrest
  obtain ⟨⟨_, offset⟩, behind, rfl, rfl, hbehind⟩ := List.map_eq_cons_iff.mp hused
  rw [List.cons_append]
  cases budget with
  | zero => simp [factor, within_zero_succ]
  | succ budget =>
    simp only [factor, hinner budget behind rest hbehind hrest, within_succ]
    by_cases hn : n ≤ budget
    · simp only [within, if_pos hn]
    · simp only [within, if_neg hn]

/-- A factor is read if its primary operand and its accessors are. -/
theorem reads_postfixed
    (hfirst : Reads side (fun budget => primary side (sum side budget)) opensCall m tokens left)
    (hothers : Reads side (fun budget => accessors side budget left) extendsFactor n others operand)
    (hprimary : PrimaryTokens m tokens left) (haccessors : AccessorTokens n others left operand) :
    Reads side (factor side) extendsFactor (max m n + 1) (tokens ++ others) operand := by
  intro budget used rest hused hrest
  obtain ⟨front, back, rfl, rfl, rfl⟩ := List.map_eq_append_iff.mp hused
  rw [List.append_assoc]
  cases budget with
  | zero => simp [factor, within_zero_succ]
  | succ budget =>
    have hread := continued_eq (hfirst budget front _ rfl (haccessors.stops rfl hrest))
      (hothers budget back rest rfl hrest)
    rw [within_succ, ← hread]
    cases front with
    | nil => cases hprimary
    | cons lexeme front =>
      obtain ⟨token, offset⟩ := lexeme
      generalize hfront : front.map Lexeme.token = behind
      rw [List.map_cons, hfront] at hprimary
      cases hprimary <;> rfl

/-- A field is read if the accessors behind it are. -/
theorem reads_field {key : String}
    (hothers : Reads side (fun budget => accessors side budget (.field left key)) extendsFactor n
      others operand) :
    Reads side (fun budget => accessors side budget left) extendsFactor (n + 1)
      (.dot :: .name key :: others) operand := by
  intro budget used rest hused hrest
  obtain ⟨⟨_, offset⟩, behind, rfl, rfl, hbehind⟩ := List.map_eq_cons_iff.mp hused
  obtain ⟨⟨_, place⟩, back, rfl, rfl, rfl⟩ := List.map_eq_cons_iff.mp hbehind
  cases budget with
  | zero => simp [accessors, within_zero_succ]
  | succ budget =>
    simp only [List.cons_append, accessors, within_succ]
    exact hothers budget back rest rfl hrest

/-- An element is read if its position and the accessors behind it are. -/
theorem reads_index {position : Operand}
    (hposition : Reads side (sum side) extendsSum m tokens position)
    (hothers : Reads side (fun budget => accessors side budget (.index left position))
      extendsFactor n others operand) :
    Reads side (fun budget => accessors side budget left) extendsFactor (max m n + 1)
      (.openBracket :: (tokens ++ .closeBracket :: others)) operand := by
  intro budget used rest hused hrest
  obtain ⟨⟨_, offset⟩, behind, rfl, rfl, hbehind⟩ := List.map_eq_cons_iff.mp hused
  obtain ⟨front, tail, rfl, rfl, htail⟩ := List.map_eq_append_iff.mp hbehind
  obtain ⟨⟨_, closing⟩, back, rfl, rfl, rfl⟩ := List.map_eq_cons_iff.mp htail
  rw [List.cons_append, List.append_assoc, List.cons_append]
  cases budget with
  | zero => simp [accessors, within_zero_succ]
  | succ budget =>
    have hinner := hposition budget front (⟨.closeBracket, closing⟩ :: (back ++ rest)) rfl
      (stops_cons rfl _)
    have hback := hothers budget back rest rfl hrest
    rw [sum, term] at hinner
    simp only [accessors, hinner, within_succ, within_max]
    by_cases hm : m ≤ budget
    · simp only [within, if_pos hm, expect, if_true]
      exact hback
    · simp only [within, if_neg hm]

/-- A name that is no bag's is read if it is not called. -/
theorem reads_name {word : String} (h : Bag.ofWord? word = none) :
    Reads side (fun budget => primary side (sum side budget)) opensCall 0 [.name word]
      (.name word) := by
  intro budget used rest hused hrest
  obtain ⟨⟨_, offset⟩, behind, rfl, rfl, hbehind⟩ := List.map_eq_cons_iff.mp hused
  rw [List.map_eq_nil_iff.mp hbehind, within_zero]
  simp only [List.cons_append, List.nil_append, primary, h]
  split
  case h_1 opening behind => cases hrest _ rfl
  case h_2 => rfl

/-- A group is read if what it has in parentheses is. -/
theorem reads_group (hinner : Reads side (sum side) extendsSum n tokens operand) :
    Reads side (fun budget => primary side (sum side budget)) opensCall n
      (.openParen :: (tokens ++ [.closeParen])) operand := by
  intro budget used rest hused _
  obtain ⟨⟨_, offset⟩, behind, rfl, rfl, hbehind⟩ := List.map_eq_cons_iff.mp hused
  obtain ⟨front, tail, rfl, rfl, htail⟩ := List.map_eq_append_iff.mp hbehind
  obtain ⟨⟨_, closing⟩, back, rfl, rfl, hback⟩ := List.map_eq_cons_iff.mp htail
  rw [List.map_eq_nil_iff.mp hback, List.cons_append, List.append_assoc]
  have hread := hinner budget front (⟨.closeParen, closing⟩ :: rest) rfl (stops_cons rfl _)
  simp only [primary, List.cons_append, List.nil_append, hread]
  by_cases hn : n ≤ budget
  · simp only [within, if_pos hn, expect, if_true]
  · simp only [within, if_neg hn]

/-- Arguments are read up to the parenthesis behind them, as long as the fuel exceeds their
tokens. -/
def ReadsArguments (side : Side) (claimed : Nat) (tokens : List Token) (operands : List Operand) :
    Prop :=
  ∀ budget fuel (used rest : List Lexeme) closing, used.map Lexeme.token = tokens →
    used.length < fuel →
    argumentsWithin side (sum side budget) fuel (used ++ ⟨.closeParen, closing⟩ :: rest) =
      within side budget claimed (operands, rest)

/-- The last argument is read if it is read as a sum. -/
theorem readsArguments_last (h : Reads side (sum side) extendsSum n tokens operand) :
    ReadsArguments side n tokens [operand] := by
  intro budget fuel used rest closing hused hfuel
  obtain ⟨fuel, rfl⟩ : ∃ smaller, fuel = smaller + 1 := ⟨fuel - 1, by omega⟩
  have hread := h budget used (⟨.closeParen, closing⟩ :: rest) hused (stops_cons rfl _)
  rw [argumentsWithin, hread]
  by_cases hn : n ≤ budget
  · simp only [within, if_pos hn]
  · simp only [within, if_neg hn]

/-- Several arguments are read if the first one is and the others are. -/
theorem readsArguments_more {operands : List Operand}
    (hfirst : Reads side (sum side) extendsSum m tokens operand)
    (hothers : ReadsArguments side n others operands) :
    ReadsArguments side (max m n) (tokens ++ .comma :: others) (operand :: operands) := by
  intro budget fuel used rest closing hused hfuel
  obtain ⟨fuel, rfl⟩ : ∃ smaller, fuel = smaller + 1 := ⟨fuel - 1, by omega⟩
  obtain ⟨front, tail, rfl, rfl, htail⟩ := List.map_eq_append_iff.mp hused
  obtain ⟨⟨_, comma⟩, back, rfl, rfl, hback⟩ := List.map_eq_cons_iff.mp htail
  rw [List.length_append, List.length_cons] at hfuel
  have hread := hfirst budget front (⟨.comma, comma⟩ :: (back ++ ⟨.closeParen, closing⟩ :: rest))
    rfl (stops_cons rfl _)
  have hback := hothers budget fuel back rest closing hback (by omega)
  rw [List.append_assoc, List.cons_append, argumentsWithin, hread, within_max]
  by_cases hm : m ≤ budget
  · simp only [within, if_pos hm] at hback ⊢
    rw [hback]
    by_cases hn : n ≤ budget
    · simp only [if_pos hn]
    · simp only [if_neg hn]
  · simp only [within, if_neg hm]

/-- A call is read if its arguments are. -/
theorem reads_call {word : String} {operands : List Operand} (h : Bag.ofWord? word = none)
    (harguments : ArgumentTokens n tokens operands)
    (hread : ReadsArguments side n tokens operands) :
    Reads side (fun budget => primary side (sum side budget)) opensCall n
      (.name word :: .openParen :: (tokens ++ [.closeParen])) (.call word operands) := by
  intro budget used rest hused _
  obtain ⟨⟨_, offset⟩, behind, rfl, rfl, hbehind⟩ := List.map_eq_cons_iff.mp hused
  obtain ⟨⟨_, opening⟩, inner, rfl, rfl, hinner⟩ := List.map_eq_cons_iff.mp hbehind
  obtain ⟨front, tail, rfl, rfl, htail⟩ := List.map_eq_append_iff.mp hinner
  obtain ⟨⟨_, closing⟩, back, rfl, rfl, hback⟩ := List.map_eq_cons_iff.mp htail
  have hsome : arguments side (sum side budget) (front ++ ⟨.closeParen, closing⟩ :: rest) =
      within side budget n (operands, rest) := by
    unfold arguments
    split
    case h_1 place behind hfront =>
      obtain ⟨token, others, hcons, hstart⟩ := harguments.exists_start
      obtain ⟨lexeme, others, rfl, rfl, -⟩ := List.map_eq_cons_iff.mp hcons
      cases hfront
      cases hstart
    case h_2 =>
      exact hread budget _ front rest closing rfl (by rw [List.length_append]; omega)
  rw [List.map_eq_nil_iff.mp hback]
  simp only [List.cons_append, List.append_assoc, List.nil_append, primary, h, hsome]
  by_cases hn : n ≤ budget
  · simp only [within, if_pos hn]
  · simp only [within, if_neg hn]

end Parts

mutual

/-- Sums are read. -/
theorem SumTokens.reads {n : Nat} {tokens : List Token} {operand : Operand} (side : Side) :
    SumTokens n tokens operand → Reads side (sum side) extendsSum n tokens operand
  | .chain hfirst hothers => reads_sum (hfirst.reads side) (hothers.reads side) hothers

/-- Further terms are read. -/
theorem FurtherTerms.reads {n : Nat} {tokens : List Token} {left operand : Operand} (side : Side) :
    FurtherTerms n tokens left operand →
      Reads side (fun budget => moreTerms side budget left) extendsSum n tokens operand
  | .done => fun budget used rest hused hrest => by
    rw [List.map_eq_nil_iff.mp hused, within_zero]
    exact moreTerms_nothing hrest budget left
  | .more hoperator hnext hothers =>
    reads_moreTerms hoperator (hnext.reads side) (hothers.reads side) hothers

/-- Terms are read. -/
theorem TermTokens.reads {n : Nat} {tokens : List Token} {operand : Operand} (side : Side) :
    TermTokens n tokens operand → Reads side (term side) extendsTerm n tokens operand
  | .chain hfirst hothers => reads_term (hfirst.reads side) (hothers.reads side) hothers

/-- Further factors are read. -/
theorem FurtherFactors.reads {n : Nat} {tokens : List Token} {left operand : Operand}
    (side : Side) : FurtherFactors n tokens left operand →
      Reads side (fun budget => moreFactors side budget left) extendsTerm n tokens operand
  | .done => fun budget used rest hused hrest => by
    rw [List.map_eq_nil_iff.mp hused, within_zero]
    exact moreFactors_nothing hrest budget left
  | .more hoperator hnext hothers =>
    reads_moreFactors hoperator (hnext.reads side) (hothers.reads side) hothers

/-- Factors are read. -/
theorem FactorTokens.reads {n : Nat} {tokens : List Token} {operand : Operand} (side : Side) :
    FactorTokens n tokens operand → Reads side (factor side) extendsFactor n tokens operand
  | .negative hinner => reads_negative (hinner.reads side)
  | .postfixed hfirst hothers =>
    reads_postfixed (hfirst.reads side) (hothers.reads side) hfirst hothers

/-- Accessors are read. -/
theorem AccessorTokens.reads {n : Nat} {tokens : List Token} {base operand : Operand}
    (side : Side) : AccessorTokens n tokens base operand →
      Reads side (fun budget => accessors side budget base) extendsFactor n tokens operand
  | .done => fun budget used rest hused hrest => by
    rw [List.map_eq_nil_iff.mp hused, within_zero]
    exact accessors_nothing hrest budget base
  | .field hothers => reads_field (hothers.reads side)
  | .index hposition hothers => reads_index (hposition.reads side) (hothers.reads side)

/-- Primary operands are read. -/
theorem PrimaryTokens.reads {n : Nat} {tokens : List Token} {operand : Operand} (side : Side) :
    PrimaryTokens n tokens operand →
      Reads side (fun budget => primary side (sum side budget)) opensCall n tokens operand
  | .literal => fun budget used rest hused _ => by
    obtain ⟨⟨_, offset⟩, behind, rfl, rfl, hbehind⟩ := List.map_eq_cons_iff.mp hused
    rw [List.map_eq_nil_iff.mp hbehind, within_zero]
    rfl
  | .bag hbag => fun budget used rest hused _ => by
    obtain ⟨⟨_, offset⟩, behind, rfl, rfl, hbehind⟩ := List.map_eq_cons_iff.mp hused
    rw [List.map_eq_nil_iff.mp hbehind, within_zero]
    simp only [List.cons_append, List.nil_append, primary, hbag]
  | .name hname => reads_name hname
  | .callOfNone hname => fun budget used rest hused _ => by
    obtain ⟨⟨_, offset⟩, behind, rfl, rfl, hbehind⟩ := List.map_eq_cons_iff.mp hused
    obtain ⟨⟨_, opening⟩, tail, rfl, rfl, htail⟩ := List.map_eq_cons_iff.mp hbehind
    obtain ⟨⟨_, closing⟩, back, rfl, rfl, hback⟩ := List.map_eq_cons_iff.mp htail
    rw [List.map_eq_nil_iff.mp hback, within_zero]
    simp only [List.cons_append, List.nil_append, primary, hname, arguments]
  | .call hname harguments => reads_call hname harguments (harguments.reads side)
  | .group hinner => reads_group (hinner.reads side)

/-- Arguments are read. -/
theorem ArgumentTokens.reads {n : Nat} {tokens : List Token} {operands : List Operand}
    (side : Side) : ArgumentTokens n tokens operands → ReadsArguments side n tokens operands
  | .last hlast => readsArguments_last (hlast.reads side)
  | .more hfirst hothers => readsArguments_more (hfirst.reads side) (hothers.reads side)

end

/-- The tokens of an operand make up the operand, or are refused for their depth. -/
theorem ofLexemes_complete {side : Side} {n : Nat} {lexemes : List Lexeme} {operand : Operand}
    (h : SumTokens n (lexemes.map Lexeme.token) operand) :
    ofLexemes side lexemes = within side levels n operand := by
  have hread := h.reads side levels lexemes [] rfl (fun lexeme hmem => by cases hmem)
  obtain ⟨token, rest, hcons, -⟩ := h.exists_start
  obtain ⟨lexeme, rest, rfl, -, -⟩ := List.map_eq_cons_iff.mp hcons
  rw [List.append_nil] at hread
  rw [ofLexemes, hread]
  by_cases hn : n ≤ levels
  · simp [within, if_pos hn]
  · simp [within, if_neg hn]

/-- Tokens make up an operand just where they stand for it in the grammar and keep to the limit. -/
theorem ofLexemes_eq_ok_iff {side : Side} {lexemes : List Lexeme} {operand : Operand} :
    ofLexemes side lexemes = .ok operand ↔
      ∃ n ≤ levels, SumTokens n (lexemes.map Lexeme.token) operand := by
  refine ⟨ofLexemes_sound, ?_⟩
  rintro ⟨n, hn, hsum⟩
  rw [ofLexemes_complete hsum, within, if_pos hn]

end AccessControl.Operand
