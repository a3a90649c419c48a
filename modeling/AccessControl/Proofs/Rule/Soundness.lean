import AccessControl.Proofs.Rule.Language

/-!
# What is read as an operand belongs to the language

Whatever a reader of operands takes off the head of a list of tokens is in the grammar, stands for
the operand that the reader returns, and claims no more levels than the budget allows. All readers
are sound at a budget if they are at the budget below, since every level claimed lowers the budget.
-/

namespace AccessControl.Operand

/-- What a reader takes off a list of tokens is in a language, with the value that the reader
returns and with no more levels than a budget. -/
def Sound {α : Type} (read : Reader α) (language : Nat → List Token → α → Prop) (budget : Nat) :
    Prop :=
  ∀ lexemes value rest, read lexemes = .ok (value, rest) →
    ∃ used levels, lexemes = used ++ rest ∧ levels ≤ budget ∧
      language levels (used.map Lexeme.token) value

/-- Passing over a token takes off just this token. -/
theorem expect_eq_ok {side : Side} {token : Token} {lexemes rest : List Lexeme}
    (h : expect side token lexemes = .ok rest) :
    ∃ lexeme, lexemes = lexeme :: rest ∧ lexeme.token = token := by
  cases lexemes with
  | nil => cases h
  | cons lexeme others =>
    rw [expect] at h
    split at h
    case isTrue htoken =>
      cases h
      exact ⟨lexeme, rfl, htoken⟩
    case isFalse => cases h

section Combinators

variable {side : Side} {budget : Nat} {inner : Reader Operand}

/-- What is read one behind the other belongs to both languages, and claims the levels of the part
that claims more. -/
theorem continued_sound {head : Reader Operand} {tail : Operand → Reader Operand}
    {first : Nat → List Token → Operand → Prop}
    {others : Operand → Nat → List Token → Operand → Prop}
    (hhead : Sound head first budget) (htail : ∀ left, Sound (tail left) (others left) budget) :
    Sound (continued head tail) (fun levels tokens operand => ∃ m n front back left,
      levels = max m n ∧ tokens = front ++ back ∧ first m front left ∧ others left n back operand)
      budget := by
  intro lexemes operand rest h
  rw [continued] at h
  split at h
  case h_1 => cases h
  case h_2 left behind hread =>
    obtain ⟨front, m, rfl, hm, hfirst⟩ := hhead _ _ _ hread
    obtain ⟨back, n, rfl, hn, hothers⟩ := htail left _ _ _ h
    exact ⟨front ++ back, max m n, (List.append_assoc _ _ _).symm, Nat.max_le.mpr ⟨hm, hn⟩,
      m, n, _, _, left, rfl, List.map_append, hfirst, hothers⟩

/-- Arguments are read as arguments, whatever the fuel, and their closing parenthesis with them. -/
theorem argumentsWithin_sound (hinner : Sound inner SumTokens budget) (fuel : Nat) :
    Sound (argumentsWithin side inner fuel) (fun levels tokens operands => ∃ front,
      tokens = front ++ [.closeParen] ∧ ArgumentTokens levels front operands) budget := by
  induction fuel with
  | zero => exact fun lexemes operands rest h => by cases h
  | succ fuel ih =>
    intro lexemes operands rest h
    rw [argumentsWithin] at h
    split at h
    case h_1 => cases h
    case h_2 => cases h
    case h_3 operand offset behind hread =>
      obtain ⟨used, m, rfl, hm, hused⟩ := hinner _ _ _ hread
      split at h
      case h_1 => cases h
      case h_2 others left hothers =>
        cases h
        obtain ⟨more, n, rfl, hn, front, hfront, hmore⟩ := ih _ _ _ hothers
        refine ⟨used ++ ⟨.comma, offset⟩ :: more, max m n, ?_, Nat.max_le.mpr ⟨hm, hn⟩,
          used.map Lexeme.token ++ .comma :: front, ?_, .more hused hmore⟩
        · rw [List.append_assoc, List.cons_append]
        · rw [List.map_append, List.map_cons, hfront, List.append_assoc, List.cons_append]
    case h_4 operand offset behind hread =>
      cases h
      obtain ⟨used, m, rfl, hm, hused⟩ := hinner _ _ _ hread
      refine ⟨used ++ [⟨.closeParen, offset⟩], m, ?_, hm, used.map Lexeme.token, ?_, .last hused⟩
      · rw [List.append_assoc, List.singleton_append]
      · rw [List.map_append, List.map_singleton]
    case h_5 => cases h

/-- What is read behind the opening parenthesis of a call are no arguments or some, and the closing
parenthesis. -/
theorem arguments_sound (hinner : Sound inner SumTokens budget) :
    Sound (arguments side inner) (fun levels tokens operands => ∃ front,
      tokens = front ++ [.closeParen] ∧ (levels = 0 ∧ front = [] ∧ operands = [] ∨
        ArgumentTokens levels front operands)) budget := by
  intro lexemes operands rest h
  unfold arguments at h
  split at h
  case h_1 offset behind =>
    cases h
    exact ⟨[⟨.closeParen, offset⟩], 0, rfl, Nat.zero_le _, [], rfl, Or.inl ⟨rfl, rfl, rfl⟩⟩
  case h_2 =>
    obtain ⟨used, n, rfl, hn, front, hfront, harguments⟩ :=
      argumentsWithin_sound hinner _ _ _ _ h
    exact ⟨used, n, rfl, hn, front, hfront, Or.inr harguments⟩

/-- Primary operands are read if what they have in parentheses is. -/
theorem primary_sound (hinner : Sound inner SumTokens budget) :
    Sound (primary side inner) PrimaryTokens budget := by
  intro lexemes operand rest h
  unfold primary at h
  split at h
  case h_1 => cases h
  case h_2 value offset behind =>
    cases h
    exact ⟨[⟨.literal value, offset⟩], 0, rfl, Nat.zero_le _, .literal⟩
  case h_3 word offset behind =>
    split at h
    case h_1 which hbag =>
      cases h
      exact ⟨[⟨.name word, offset⟩], 0, rfl, Nat.zero_le _, .bag hbag⟩
    case h_2 hbag =>
      split at h
      case h_1 opening tail =>
        split at h
        case h_1 => cases h
        case h_2 operands left hread =>
          cases h
          obtain ⟨used, n, rfl, hn, front, hfront, harguments⟩ := arguments_sound hinner _ _ _ hread
          refine ⟨⟨.name word, offset⟩ :: ⟨.openParen, opening⟩ :: used, n, rfl, hn, ?_⟩
          rw [List.map_cons, List.map_cons, hfront]
          rcases harguments with ⟨rfl, rfl, rfl⟩ | harguments
          · exact .callOfNone hbag
          · exact .call hbag harguments
      case h_2 =>
        cases h
        exact ⟨[⟨.name word, offset⟩], 0, rfl, Nat.zero_le _, .name hbag⟩
  case h_4 offset behind =>
    split at h
    case h_1 => cases h
    case h_2 found left hread =>
      split at h
      case h_1 => cases h
      case h_2 tail hclose =>
        cases h
        obtain ⟨used, n, rfl, hn, hused⟩ := hinner _ _ _ hread
        obtain ⟨closing, rfl, htoken⟩ := expect_eq_ok hclose
        refine ⟨⟨.openParen, offset⟩ :: (used ++ [closing]), n, ?_, hn, ?_⟩
        · rw [List.cons_append, List.append_assoc, List.singleton_append]
        · rw [List.map_cons, List.map_append, List.map_singleton, htoken]
          exact .group hused
  case h_5 => cases h

end Combinators

/-- All readers of operands are sound at a budget. -/
structure SoundWithin (side : Side) (budget : Nat) : Prop where
  /-- Factors are. -/
  factor : Sound (factor side budget) FactorTokens budget
  /-- Accessors are. -/
  accessors (base : Operand) : Sound (accessors side budget base)
    (fun levels tokens => AccessorTokens levels tokens base) budget
  /-- Further factors of a term are. -/
  moreFactors (left : Operand) : Sound (moreFactors side budget left)
    (fun levels tokens => FurtherFactors levels tokens left) budget
  /-- Further terms of a sum are. -/
  moreTerms (left : Operand) : Sound (moreTerms side budget left)
    (fun levels tokens => FurtherTerms levels tokens left) budget

namespace SoundWithin

variable {side : Side} {budget : Nat}

/-- Terms are read if factors and what is behind them are. -/
theorem term (h : SoundWithin side budget) :
    Sound (Operand.term side budget) TermTokens budget := by
  intro lexemes operand rest hread
  obtain ⟨used, levels, rfl, hlevels, m, n, front, back, left, rfl, hused, hfirst, hothers⟩ :=
    continued_sound h.factor h.moreFactors _ _ _ hread
  exact ⟨used, _, rfl, hlevels, hused ▸ .chain hfirst hothers⟩

/-- Sums are read if terms and what is behind them are. -/
theorem sum (h : SoundWithin side budget) : Sound (Operand.sum side budget) SumTokens budget := by
  intro lexemes operand rest hread
  obtain ⟨used, levels, rfl, hlevels, m, n, front, back, left, rfl, hused, hfirst, hothers⟩ :=
    continued_sound h.term h.moreTerms _ _ _ hread
  exact ⟨used, _, rfl, hlevels, hused ▸ .chain hfirst hothers⟩

/-- Factors are read at a budget if everything is at the budget below. -/
theorem factor_succ (h : SoundWithin side budget) :
    Sound (Operand.factor side (budget + 1)) FactorTokens (budget + 1) := by
  intro lexemes operand rest hread
  rw [Operand.factor] at hread
  dsimp only at hread
  split at hread
  case h_1 offset behind =>
    split at hread
    case h_1 => cases hread
    case h_2 inner left hinner =>
      cases hread
      obtain ⟨used, n, rfl, hn, hused⟩ := h.factor _ _ _ hinner
      exact ⟨⟨.operator .minus, offset⟩ :: used, n + 1, rfl, Nat.succ_le_succ hn, .negative hused⟩
  case h_2 =>
    obtain ⟨used, levels, rfl, hlevels, m, n, front, back, base, rfl, hused, hfirst, hothers⟩ :=
      continued_sound (primary_sound h.sum) h.accessors _ _ _ hread
    exact ⟨used, _, rfl, Nat.succ_le_succ hlevels, hused ▸ .postfixed hfirst hothers⟩

/-- Accessors are read at a budget if everything is at the budget below. -/
theorem accessors_succ (h : SoundWithin side budget) (base : Operand) :
    Sound (Operand.accessors side (budget + 1) base)
      (fun levels tokens => AccessorTokens levels tokens base) (budget + 1) := by
  intro lexemes operand rest hread
  rw [Operand.accessors] at hread
  dsimp only at hread
  split at hread
  case h_1 point key name behind =>
    obtain ⟨used, n, rfl, hn, hused⟩ := h.accessors _ _ _ _ hread
    exact ⟨⟨.dot, point⟩ :: ⟨.name key, name⟩ :: used, n + 1, rfl, Nat.succ_le_succ hn,
      .field hused⟩
  case h_2 => cases hread
  case h_3 => cases hread
  case h_4 opening behind =>
    split at hread
    case h_1 => cases hread
    case h_2 position left hposition =>
      split at hread
      case h_1 => cases hread
      case h_2 tail hclose =>
        obtain ⟨inner, m, rfl, hm, hinner⟩ := h.sum _ _ _ hposition
        obtain ⟨closing, rfl, htoken⟩ := expect_eq_ok hclose
        obtain ⟨used, n, rfl, hn, hused⟩ := h.accessors _ _ _ _ hread
        refine ⟨⟨.openBracket, opening⟩ :: (inner ++ closing :: used), max m n + 1, ?_,
          Nat.succ_le_succ (Nat.max_le.mpr ⟨hm, hn⟩), ?_⟩
        · rw [List.cons_append, List.append_assoc, List.cons_append]
        · rw [List.map_cons, List.map_append, List.map_cons, htoken]
          exact .index hinner hused
  case h_5 =>
    cases hread
    exact ⟨[], 0, rfl, Nat.zero_le _, .done⟩

/-- Further factors are read at a budget if everything is at the budget below. -/
theorem moreFactors_succ (h : SoundWithin side budget) (left : Operand) :
    Sound (Operand.moreFactors side (budget + 1) left)
      (fun levels tokens => FurtherFactors levels tokens left) (budget + 1) := by
  intro lexemes operand rest hread
  rw [Operand.moreFactors] at hread
  dsimp only at hread
  split at hread
  case h_1 operator offset behind =>
    split at hread
    case isTrue =>
      cases hread
      exact ⟨[], 0, rfl, Nat.zero_le _, .done⟩
    case isFalse hoperator =>
      split at hread
      case h_1 => cases hread
      case h_2 right tail hright =>
        obtain ⟨next, m, rfl, hm, hnext⟩ := h.factor _ _ _ hright
        obtain ⟨others, n, rfl, hn, hothers⟩ := h.moreFactors _ _ _ _ hread
        refine ⟨⟨.operator operator, offset⟩ :: (next ++ others), max m n + 1, ?_,
          Nat.succ_le_succ (Nat.max_le.mpr ⟨hm, hn⟩), ?_⟩
        · rw [List.cons_append, List.append_assoc]
        · rw [List.map_cons, List.map_append]
          exact .more (Bool.eq_false_iff.mpr hoperator) hnext hothers
  case h_2 =>
    cases hread
    exact ⟨[], 0, rfl, Nat.zero_le _, .done⟩

/-- Further terms are read at a budget if everything is at the budget below. -/
theorem moreTerms_succ (h : SoundWithin side budget) (left : Operand) :
    Sound (Operand.moreTerms side (budget + 1) left)
      (fun levels tokens => FurtherTerms levels tokens left) (budget + 1) := by
  intro lexemes operand rest hread
  rw [Operand.moreTerms] at hread
  dsimp only at hread
  split at hread
  case h_1 operator offset behind =>
    split at hread
    case isTrue hoperator =>
      split at hread
      case h_1 => cases hread
      case h_2 right tail hright =>
        obtain ⟨next, m, rfl, hm, hnext⟩ := h.term _ _ _ hright
        obtain ⟨others, n, rfl, hn, hothers⟩ := h.moreTerms _ _ _ _ hread
        refine ⟨⟨.operator operator, offset⟩ :: (next ++ others), max m n + 1, ?_,
          Nat.succ_le_succ (Nat.max_le.mpr ⟨hm, hn⟩), ?_⟩
        · rw [List.cons_append, List.append_assoc]
        · rw [List.map_cons, List.map_append]
          exact .more hoperator hnext hothers
    case isFalse =>
      cases hread
      exact ⟨[], 0, rfl, Nat.zero_le _, .done⟩
  case h_2 =>
    cases hread
    exact ⟨[], 0, rfl, Nat.zero_le _, .done⟩

/-- Without a budget no factor is read, and nothing behind an operand. -/
theorem zero (side : Side) : SoundWithin side 0 where
  factor := fun lexemes operand rest hread => by
    rw [Operand.factor] at hread
    cases hread
  accessors := fun base lexemes operand rest hread => by
    rw [Operand.accessors] at hread
    dsimp only at hread
    split at hread
    case h_1 => cases hread
    case h_2 => cases hread
    case h_3 =>
      cases hread
      exact ⟨[], 0, rfl, Nat.zero_le _, .done⟩
  moreFactors := fun left lexemes operand rest hread => by
    rw [Operand.moreFactors] at hread
    dsimp only at hread
    split at hread
    case h_1 =>
      split at hread
      case isTrue =>
        cases hread
        exact ⟨[], 0, rfl, Nat.zero_le _, .done⟩
      case isFalse => cases hread
    case h_2 =>
      cases hread
      exact ⟨[], 0, rfl, Nat.zero_le _, .done⟩
  moreTerms := fun left lexemes operand rest hread => by
    rw [Operand.moreTerms] at hread
    dsimp only at hread
    split at hread
    case h_1 =>
      split at hread
      case isTrue => cases hread
      case isFalse =>
        cases hread
        exact ⟨[], 0, rfl, Nat.zero_le _, .done⟩
    case h_2 =>
      cases hread
      exact ⟨[], 0, rfl, Nat.zero_le _, .done⟩

end SoundWithin

/-- All readers of operands are sound, whatever the budget. -/
theorem soundWithin (side : Side) (budget : Nat) : SoundWithin side budget := by
  induction budget with
  | zero => exact .zero side
  | succ budget ih =>
    exact ⟨ih.factor_succ, ih.accessors_succ, ih.moreFactors_succ, ih.moreTerms_succ⟩

/-- The operand of all the tokens of a side is one that they stand for, and keeps to the limit. -/
theorem ofLexemes_sound {side : Side} {lexemes : List Lexeme} {operand : Operand}
    (h : ofLexemes side lexemes = .ok operand) :
    ∃ n ≤ levels, SumTokens n (lexemes.map Lexeme.token) operand := by
  rw [ofLexemes] at h
  split at h
  case isTrue => cases h
  case isFalse =>
    split at h
    case h_1 => cases h
    case h_2 found hread =>
      cases h
      obtain ⟨used, n, hused, hn, hsum⟩ := (soundWithin side levels).sum _ _ _ hread
      rw [List.append_nil] at hused
      exact ⟨n, hn, hused ▸ hsum⟩
    case h_3 => cases h

end AccessControl.Operand
