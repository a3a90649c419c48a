import AccessControl.Proofs.Rule.Acceptance
import AccessControl.Proofs.Rule.NormalText

/-!
# Reading the normal text of a comparison

The normal text of a comparison that was read is a text with tokens that make up a comparison. It is
refused only for its depth, which the parentheses of the normal text add to. What is read of it is
the comparison itself just where no accessor stands directly behind a negation and no literal has a
control character without an escape.
-/

namespace AccessControl

namespace Json

/-- Whether a literal is read as it is where it is written. -/
def isFaithful : Json → Bool
  | .string text => text.toList.all (fun c => !isUnescapable c)
  | _ => true

/-- What is read of a control character without an escape begins with a letter. -/
theorem exists_rereadChar {c : Char} (h : isUnescapable c = true) :
    ∃ first others, rereadChar c = first :: others ∧ isUnescapable first = false := by
  have hcontrol : c.toNat < 32 ∧ c ≠ '\n' ∧ c ≠ '\r' ∧ c ≠ '\t' := by
    simpa only [isUnescapable, Bool.and_eq_true, decide_eq_true_eq, bne_iff_ne, and_assoc] using h
  obtain ⟨hcontrol, hline, hreturn, htab⟩ := hcontrol
  rw [rereadChar, if_pos h]
  unfold quotedChar
  split
  case h_1 | h_2 => exact absurd hcontrol (by decide)
  case h_3 => exact absurd rfl hline
  case h_4 => exact absurd rfl hreturn
  case h_5 => exact absurd rfl htab
  case h_6 =>
    simp only [if_pos hcontrol]
    split
    case isTrue => exact ⟨'b', [], rfl, by decide⟩
    case isFalse =>
      split
      case isTrue => exact ⟨'f', [], rfl, by decide⟩
      case isFalse => exact ⟨'u', _, rfl, by decide⟩

/-- A text is read as it is just where rules have escapes for all of its control characters. -/
theorem flatMap_rereadChar_eq_iff {text : List Char} :
    text.flatMap rereadChar = text ↔ ∀ c ∈ text, isUnescapable c = false := by
  induction text with
  | nil => exact ⟨fun _ => List.forall_mem_nil _, fun _ => rfl⟩
  | cons c text ih =>
    rw [List.flatMap_cons, List.forall_mem_cons]
    cases hc : isUnescapable c with
    | true =>
      obtain ⟨first, others, hreread, hfirst⟩ := exists_rereadChar hc
      refine ⟨fun h => ?_, fun h => absurd h.1 (by decide)⟩
      rw [hreread, List.cons_append, List.cons.injEq] at h
      rw [h.1, hc] at hfirst
      exact absurd hfirst (by decide)
    | false =>
      rw [rereadChar, hc, if_neg Bool.false_ne_true, List.singleton_append, List.cons.injEq, ih]
      simp only [true_and]

/-- A literal is read as it is just where it is faithful. -/
theorem reread_eq_iff {value : Json} : value.reread = value ↔ value.isFaithful = true := by
  cases value with
  | string text =>
    have hall : isFaithful (.string text) = true ↔ ∀ c ∈ text.toList, isUnescapable c = false := by
      simp only [isFaithful, List.all_eq_true, Bool.not_eq_true']
    have hchars : reread (.string text) = .string text ↔
        text.toList.flatMap rereadChar = text.toList := by
      rw [reread, ofChars, Value.string.injEq, ← String.toList_inj, String.toList_ofList]
    rw [hall, hchars, flatMap_rereadChar_eq_iff]
  | _ => exact ⟨fun _ => rfl, fun _ => rfl⟩

end Json

namespace Operand

/-- Whether an operand is a negation. -/
def isNegative : Operand → Bool
  | .negative _ => true
  | _ => false

mutual

/-- Whether an operand is read as it is where it is written: all of its literals are, and what its
accessors belong to is no negation. -/
def isFaithful : Operand → Bool
  | .literal value => value.isFaithful
  | .bag _ | .name _ => true
  | .field base _ => !base.isNegative && isFaithful base
  | .index base position => (!base.isNegative && isFaithful base) && isFaithful position
  | .call _ operands => areFaithful operands
  | .negative inner => isFaithful inner
  | .arithmetic left _ right => isFaithful left && isFaithful right

/-- Whether all operands of a list are read as they are. -/
def areFaithful : List Operand → Bool
  | [] => true
  | operand :: rest => isFaithful operand && areFaithful rest

end

/-- What is extended is no negation just where it was none before. -/
theorem extend_eq_iff {access : Operand → Operand} {operand target : Operand}
    (htarget : target.isNegative = false) :
    extend access operand = target ↔ operand.isNegative = false ∧ access operand = target := by
  cases operand with
  | negative inner =>
    refine ⟨fun h => ?_, fun h => Bool.noConfusion h.1⟩
    rw [← h] at htarget
    cases htarget
  | _ => exact ⟨fun h => ⟨rfl, h⟩, fun h => h.2⟩

/-- An accessor comes back just where what it belongs to does and is no negation. -/
theorem reread_eq_and_not_isNegative {base : Operand}
    (h : base.reread = base ↔ base.isFaithful = true) :
    (base.reread.isNegative = false ∧ base.reread = base) ↔
      (!base.isNegative && base.isFaithful) = true := by
  rw [Bool.and_eq_true, Bool.not_eq_true', ← h]
  exact ⟨fun h => ⟨h.2 ▸ h.1, h.2⟩, fun h => ⟨h.2.symm ▸ h.1, h.2⟩⟩

mutual

/-- An operand is read as it is just where it is faithful. -/
theorem reread_eq_iff : (operand : Operand) →
    (operand.reread = operand ↔ operand.isFaithful = true)
  | .literal value => by rw [reread, isFaithful, Operand.literal.injEq, Json.reread_eq_iff]
  | .bag _ | .name _ => ⟨fun _ => rfl, fun _ => rfl⟩
  | .field base key => by
    rw [reread, isFaithful, extend_eq_iff rfl, Operand.field.injEq,
      ← reread_eq_and_not_isNegative (reread_eq_iff base)]
    simp only [and_true]
  | .index base position => by
    rw [reread, isFaithful, extend_eq_iff rfl, Operand.index.injEq, Bool.and_eq_true,
      ← reread_eq_and_not_isNegative (reread_eq_iff base), ← reread_eq_iff position, and_assoc]
  | .call function operands => by
    rw [reread, isFaithful, Operand.call.injEq, ← rereadAll_eq_iff operands]
    simp only [true_and]
  | .negative inner => by
    rw [reread, isFaithful, Operand.negative.injEq, reread_eq_iff inner]
  | .arithmetic left operator right => by
    rw [reread, isFaithful, Operand.arithmetic.injEq, Bool.and_eq_true, ← reread_eq_iff left,
      ← reread_eq_iff right]
    simp only [true_and]

/-- Operands of a list are read as they are just where they are faithful. -/
theorem rereadAll_eq_iff : (operands : List Operand) →
    (rereadAll operands = operands ↔ areFaithful operands = true)
  | [] => ⟨fun _ => rfl, fun _ => rfl⟩
  | operand :: rest => by
    rw [rereadAll, areFaithful, List.cons.injEq, Bool.and_eq_true, reread_eq_iff operand,
      rereadAll_eq_iff rest]

end

end Operand

namespace Comparison

/-- What a rule reads where a comparison is written. -/
def reread (comparison : Comparison) : Comparison :=
  ⟨comparison.left.reread, comparison.relation, comparison.right.reread⟩

/-- Whether a comparison is read as it is where it is written. -/
def isFaithful (comparison : Comparison) : Bool :=
  comparison.left.isFaithful && comparison.right.isFaithful

/-- The tokens of the normal text of a comparison. -/
def tokens (comparison : Comparison) : List Token :=
  comparison.left.tokens ++ .relation comparison.relation :: comparison.right.tokens

/-- A comparison is read as it is just where it is faithful. -/
theorem reread_eq_iff {comparison : Comparison} :
    comparison.reread = comparison ↔ comparison.isFaithful = true := by
  obtain ⟨left, relation, right⟩ := comparison
  rw [reread, isFaithful, Comparison.mk.injEq, Bool.and_eq_true, Operand.reread_eq_iff,
    Operand.reread_eq_iff]
  simp only [true_and]

/-- The normal text of a comparison is cut into its tokens. -/
theorem cuts_text {comparison : Comparison}
    (hleft : Operand.MadeOf Token.Legible comparison.left)
    (hright : Operand.MadeOf Token.Legible comparison.right) :
    Lexeme.Cuts comparison.text comparison.tokens [] := by
  have hspace := fun behind => Lexeme.cuts_blank (c := ' ') (by decide) behind
  have hfirst := fun behind =>
    Operand.cuts_text comparison.left hleft (' ' :: behind)
      (Operand.separated_mark (by simp) behind)
  have hsecond := Operand.cuts_text comparison.right hright [] trivial
  have hrelation := fun behind => Lexeme.cuts_relation comparison.relation behind
  have hbehind := (hrelation _).append ((hspace _).cons hsecond)
  have hall := (hfirst _).append ((hspace _).cons hbehind)
  simpa only [text, tokens, List.nil_append, List.singleton_append, List.append_assoc,
    List.cons_append] using hall

/-- The tokens of a comparison make up what is read of it. -/
theorem isComparison_tokens {comparison : Comparison}
    (hleft : Operand.MadeOf Token.Legible comparison.left)
    (hright : Operand.MadeOf Token.Legible comparison.right) :
    IsComparison comparison.left.normalLevels comparison.right.normalLevels comparison.tokens
      comparison.reread :=
  ⟨_, _, rfl, fun sign => Operand.relation_notMem_tokens sign _,
    fun sign => Operand.relation_notMem_tokens sign _, Operand.sumTokens hleft,
    Operand.sumTokens hright⟩

/-- The leaves of a comparison that was read can be written. -/
theorem legible_of_parse {text : String} {comparison : Comparison}
    (h : parse text = .ok comparison) :
    Operand.MadeOf Token.Legible comparison.left ∧
      Operand.MadeOf Token.Legible comparison.right := by
  cases hscan : Lexeme.scan text with
  | error cause =>
    rw [parse, hscan] at h
    cases h
  | ok lexemes =>
    rw [parse_of_scan hscan] at h
    obtain ⟨m, hm, n, hn, left, right, htokens, hleft, hright, hfirst, hsecond⟩ := ofLexemes_sound h
    have hlegible : ∀ token ∈ left ++ .relation comparison.relation :: right, token.Legible := by
      rw [← htokens, List.forall_mem_map]
      exact Lexeme.legible_of_scanFrom hscan
    have hparts := List.forall_mem_append.mp hlegible
    exact ⟨hfirst.madeOf hparts.1, hsecond.madeOf (List.forall_mem_cons.mp hparts.2).2⟩

/-- The normal text of a comparison that was read is refused where the parentheses of one of its
sides claim more levels than the limit, the left one first, and is read as what the comparison is
written as otherwise. -/
theorem parse_normalText {text : String} {comparison : Comparison}
    (h : parse text = .ok comparison) :
    parse (String.ofList comparison.text) =
      if comparison.left.normalLevels ≤ Operand.levels then
        if comparison.right.normalLevels ≤ Operand.levels then .ok comparison.reread
        else .error (.tooDeep .right Operand.levels)
      else .error (.tooDeep .left Operand.levels) := by
  obtain ⟨hleft, hright⟩ := legible_of_parse h
  obtain ⟨lexemes, hscan, htokens⟩ := (cuts_text hleft hright).scan
  have hcomparison := isComparison_tokens hleft hright
  rw [← htokens] at hcomparison
  exact parse_of_isComparison hscan hcomparison

/-- The normal text of a comparison that was read is read as this comparison just where neither side
claims more levels than the limit and the comparison is faithful. -/
theorem parse_normalText_eq_iff {text : String} {comparison : Comparison}
    (h : parse text = .ok comparison) :
    parse (String.ofList comparison.text) = .ok comparison ↔
      comparison.left.normalLevels ≤ Operand.levels ∧
        comparison.right.normalLevels ≤ Operand.levels ∧ comparison.isFaithful = true := by
  rw [parse_normalText h, ← reread_eq_iff]
  by_cases hleft : comparison.left.normalLevels ≤ Operand.levels
  · by_cases hright : comparison.right.normalLevels ≤ Operand.levels
    · rw [if_pos hleft, if_pos hright, Except.ok.injEq]
      exact ⟨fun heq => ⟨hleft, hright, heq⟩, fun heq => heq.2.2⟩
    · rw [if_pos hleft, if_neg hright]
      exact ⟨nofun, fun heq => absurd heq.2.1 hright⟩
  · rw [if_neg hleft]
    exact ⟨nofun, fun heq => absurd heq.1 hleft⟩

/-- The normal text of a faithful comparison that was read is read as this comparison, unless the
parentheses of a side claim more levels than the limit: then it is refused for this, the left side
first. -/
theorem parse_text_of_isFaithful {text : String} {comparison : Comparison}
    (h : parse text = .ok comparison) (hfaithful : comparison.isFaithful = true) :
    parse (String.ofList comparison.text) =
      if comparison.left.normalLevels ≤ Operand.levels then
        if comparison.right.normalLevels ≤ Operand.levels then .ok comparison
        else .error (.tooDeep .right Operand.levels)
      else .error (.tooDeep .left Operand.levels) := by
  have hparse := parse_normalText h
  rwa [reread_eq_iff.mpr hfaithful] at hparse

/-- A sum with accessors behind it, a negation and a text with a quote in it come back. -/
theorem parse_text_of_isFaithful_product :
    ∃ comparison, parse "(x+1)[0].k*-y = 'a\"b'" = .ok comparison ∧
      comparison.isFaithful = true ∧
      comparison.text = "((x + 1)[0].k * -y) == \"a\\\"b\"".toList ∧
      parse (String.ofList comparison.text) = .ok comparison := by
  have hscan : Lexeme.scan "(x+1)[0].k*-y = 'a\"b'" =
      .ok [⟨.openParen, 0⟩, ⟨.name "x", 1⟩, ⟨.operator .plus, 2⟩, ⟨.literal (.ofNat 1), 3⟩,
        ⟨.closeParen, 4⟩, ⟨.openBracket, 5⟩, ⟨.literal (.ofNat 0), 6⟩, ⟨.closeBracket, 7⟩,
        ⟨.dot, 8⟩, ⟨.name "k", 9⟩, ⟨.operator .times, 10⟩, ⟨.operator .minus, 11⟩,
        ⟨.name "y", 12⟩, ⟨.relation .equal, 14⟩, ⟨.literal (.string "a\"b"), 16⟩] := by
    decide +kernel
  have hparse : parse "(x+1)[0].k*-y = 'a\"b'" =
      .ok ⟨.arithmetic (.field (.index (.arithmetic (.name "x") .plus (.literal (.ofNat 1)))
          (.literal (.ofNat 0))) "k") .times (.negative (.name "y")),
        .equal, .literal (.string "a\"b")⟩ := by rw [parse_of_scan hscan]; rfl
  refine ⟨_, hparse, by decide +kernel, by decide +kernel, ?_⟩
  rw [parse_text_of_isFaithful hparse (by decide +kernel), if_pos, if_pos] <;> decide +kernel

/-- A comparison of the greatest depth that is allowed has a normal text that is too deep: the
parentheses around the sum claim one more level. -/
theorem parse_normalText_tooDeep :
    ∃ comparison, parse "1+--------------------------------------------------------------1==1" =
        .ok comparison ∧
      parse (String.ofList comparison.text) = .error (.tooDeep .left Operand.levels) := by
  have hscan : Lexeme.scan "1+--------------------------------------------------------------1==1" =
      .ok (⟨.literal (.ofNat 1), 0⟩ :: ⟨.operator .plus, 1⟩ ::
        ((List.range' 2 62).map (fun offset => ⟨.operator .minus, offset⟩) ++
          [⟨.literal (.ofNat 1), 64⟩, ⟨.relation .equal, 65⟩, ⟨.literal (.ofNat 1), 67⟩])) := by
    decide +kernel
  have hparse : parse "1+--------------------------------------------------------------1==1" =
      .ok ⟨.arithmetic (.literal (.ofNat 1)) .plus
          (Nat.repeat Operand.negative 62 (.literal (.ofNat 1))),
        .equal, .literal (.ofNat 1)⟩ := by rw [parse_of_scan hscan]; rfl
  exact ⟨_, hparse, by rw [parse_normalText hparse, if_neg]; decide +kernel⟩

end Comparison

end AccessControl
