import AccessControl.Proofs.Rule.Between
import AccessControl.Proofs.Rule.Layout

/-!
# Rules composed of two texts and an operator

Two texts that have no comparison operator among their tokens make a rule with any operator between
them just where each of them makes a complete operand, and the rule relates just these operands. It
does not matter how the operator is spelled, whether blanks stand around it, or which characters the
texts have between quotes: all characters of operators in such a text stand there.
-/

namespace AccessControl

namespace Lexeme

/-- Whether a character of a text, with what stands before and behind it, belongs to the spelling of
a token. -/
def Covers (before : List Char) (c : Char) (after : List Char) (lexeme : Lexeme) : Prop :=
  ∃ front inner more back, before = front ++ inner ∧ after = more ++ back ∧
    lexeme.offset = (String.ofList front).utf8ByteSize ∧
    lexeme.token.IsSpelling (inner ++ c :: more)

/-- Every character but the blanks between tokens belongs to the spelling of one. -/
theorem Layout.exists_covers {start text : List Char} {lexemes : List Lexeme}
    (h : Layout start text lexemes) {before after : List Char} {c : Char}
    (htext : text = before ++ c :: after) (hblank : Token.isBlank c = false) :
    ∃ lexeme ∈ lexemes, Covers (start ++ before) c after lexeme := by
  induction h generalizing before with
  | done =>
    have hne : before ++ c :: after ≠ [] := by simp
    exact absurd htext.symm hne
  | @blank start rest d lexemes hd _ ih =>
    cases before with
    | nil =>
      obtain ⟨rfl, -⟩ := List.cons.inj htext
      rw [hd] at hblank
      cases hblank
    | cons first before =>
      obtain ⟨rfl, hrest⟩ := List.cons.inj htext
      obtain ⟨lexeme, hmem, hcovers⟩ := ih hrest
      rw [List.append_assoc] at hcovers
      exact ⟨lexeme, hmem, hcovers⟩
  | @token start spelling rest token offset lexemes hspelling hoffset _ ih =>
    have hcases : (∃ behind, before = spelling ++ behind ∧ rest = behind ++ c :: after) ∨
        ∃ more, spelling = before ++ c :: more ∧ after = more ++ rest := by
      rcases List.append_eq_append_iff.mp htext with hbehind | ⟨inside, hspell, hafter⟩
      · exact Or.inl hbehind
      · cases inside with
        | nil => exact Or.inl ⟨[], by rw [hspell, List.append_nil, List.append_nil], hafter.symm⟩
        | cons d more =>
          obtain ⟨rfl, hmore⟩ := List.cons.inj hafter
          exact Or.inr ⟨more, hspell, hmore⟩
    rcases hcases with ⟨behind, hbefore, hrest⟩ | ⟨more, hspell, hafter⟩
    · obtain ⟨lexeme, hmem, hcovers⟩ := ih hrest
      rw [List.append_assoc, ← hbefore] at hcovers
      exact ⟨lexeme, List.mem_cons_of_mem _ hmem, hcovers⟩
    · exact ⟨⟨token, offset⟩, List.mem_cons_self, start, before, more, rest, rfl, hafter, hoffset,
        hspell ▸ hspelling⟩

end Lexeme

namespace Token

/-- All characters of a numeral belong to numbers. -/
theorem Numeral.Formed.not_plain {numeral : Numeral} (h : numeral.Formed) :
    ∀ c ∈ numeral.spelling, ¬Plain c := by
  refine h.forall_mem_spelling (fun c hc hplain => ?_) ?_
  · exact Bool.false_ne_true (hplain.2.1.symm.trans hc)
  · rw [forall_mem_marks]
    unfold Plain
    decide

/-- The characters of comparison operators occur in the spellings of texts and of comparison
operators, and of no other tokens. -/
theorem IsSpelling.string_of_isSome_relations {token : Token} {spelling : List Char}
    (h : token.IsSpelling spelling) (hsign : ∀ relation, token ≠ .relation relation) {c : Char}
    (hmem : c ∈ spelling) (hc : (relations? c).isSome = true) :
    ∃ text, token = .literal (.string text) := by
  obtain ⟨first, others, rfl, hread⟩ := h.read_eq
  have hplain : Plain c := plain_of_isSome_relations hc
  have hreads := read_eq_ok_iff.mp hread
  generalize hreading : Reading.mk token (first :: others) [] = reading at hreads
  cases hreads with
  | number _ _ =>
    obtain ⟨-, hspelling, -⟩ := Reading.mk.inj hreading
    rw [hspelling] at hmem
    exact absurd hplain ((Numeral.formed_read _).not_plain c hmem)
  | quoted _ _ _ =>
    obtain ⟨rfl, -, -⟩ := Reading.mk.inj hreading
    exact ⟨_, rfl⟩
  | word _ _ hname =>
    obtain ⟨-, hspelling, -⟩ := Reading.mk.inj hreading
    have hparts : ∀ d ∈ first :: others, Text.isNamePart d = true := by
      rw [hspelling]
      exact List.forall_mem_cons.mpr ⟨Text.isNamePart_of_isNameStart hname,
        fun d hd => List.mem_takeWhile_imp hd⟩
    exact absurd (hplain.1.symm.trans (hparts c hmem)) Bool.false_ne_true
  | @sign token _ _ _ hofSign =>
    obtain ⟨-, hspelling, -⟩ := Reading.mk.inj hreading
    rw [hspelling] at hmem
    obtain rfl := List.mem_singleton.mp hmem
    have hnone : relations? c = none := by
      unfold ofSign? at hofSign
      split at hofSign <;> first | rfl | cases hofSign
    rw [hnone] at hc
    cases hc
  | relation _ _ _ _ hrelation hread =>
    obtain ⟨relation, hrelation, -⟩ := exists_spelling_of_readRelation hrelation hread
    rw [← hreading] at hrelation
    exact absurd hrelation (hsign relation)

end Token

namespace Lexeme

variable {text blanks : String} {lexemes : List Lexeme}

/-- Whether all characters of comparison operators in a text belong to the spellings of its quoted
texts. -/
def OperatorsQuoted (text : List Char) (lexemes : List Lexeme) : Prop :=
  ∀ before c after, text = before ++ c :: after → (Token.relations? c).isSome = true →
    ∃ lexeme ∈ lexemes, Covers before c after lexeme ∧
      ∃ meant, lexeme.token = .literal (.string meant)

/-- All characters of comparison operators in a text without such an operator among its tokens
belong to its quoted texts. -/
theorem operatorsQuoted_of_scan (h : scan text = .ok lexemes)
    (hnone : ∀ sign, .relation sign ∉ lexemes.map Lexeme.token) :
    OperatorsQuoted text.toList lexemes := by
  intro before c after htext hc
  obtain ⟨⟨alone, withEquals⟩, hrelations⟩ := Option.isSome_iff_exists.mp hc
  have hblank : Token.isBlank c = false := (Token.read_of_relations hrelations 0 []).1
  obtain ⟨lexeme, hmem, hcovers⟩ := (layout_of_scan h).exists_covers htext hblank
  refine ⟨lexeme, hmem, hcovers, ?_⟩
  obtain ⟨front, inner, more, back, -, -, -, hspelling⟩ := hcovers
  have hother : ∀ sign, lexeme.token ≠ .relation sign := by
    intro sign hsign
    exact hnone sign (hsign ▸ List.mem_map_of_mem hmem)
  exact hspelling.string_of_isSome_relations hother
    (List.mem_append_right inner List.mem_cons_self) hc

/-- Blanks behind a side change none of its tokens. -/
theorem scan_append_blanks (h : scan text = .ok lexemes)
    (hnone : ∀ sign, .relation sign ∉ lexemes.map Lexeme.token)
    (hblanks : ∀ c ∈ blanks.toList, Token.isBlank c = true) :
    ∃ padded, scan (text ++ blanks) = .ok padded ∧
      padded.map Lexeme.token = lexemes.map Lexeme.token := by
  have hclosing : Token.Closing (blanks.toList ++ []) := by
    rw [List.append_nil]
    exact Token.closing_blanks hblanks
  obtain ⟨padded, hscan, htokens⟩ :=
    ((cuts_side h hnone hclosing).append (cuts_blanks hblanks [])).scan
  rw [← String.toList_append, String.ofList_toList] at hscan
  rw [List.append_nil] at htokens
  exact ⟨padded, hscan, htokens⟩

/-- Blanks before a side change none of its tokens. -/
theorem scan_blanks_append (h : scan text = .ok lexemes)
    (hnone : ∀ sign, .relation sign ∉ lexemes.map Lexeme.token)
    (hblanks : ∀ c ∈ blanks.toList, Token.isBlank c = true) :
    ∃ padded, scan (blanks ++ text) = .ok padded ∧
      padded.map Lexeme.token = lexemes.map Lexeme.token := by
  have hcuts : Cuts text.toList (lexemes.map Lexeme.token) [] := cuts_side h hnone trivial
  obtain ⟨padded, hscan, htokens⟩ := ((cuts_blanks hblanks _).append hcuts).scan
  rw [← String.toList_append, String.ofList_toList] at hscan
  exact ⟨padded, hscan, htokens⟩

end Lexeme

/-- A text spells the operands that tokens make up, where it has these tokens and none of them is a
comparison operator. -/
theorem Operand.isSpelled_iff_ofLexemes {side : Side} {text : String} {lexemes padded : List Lexeme}
    (hscan : Lexeme.scan text = .ok padded)
    (htokens : padded.map Lexeme.token = lexemes.map Lexeme.token)
    (hnone : ∀ sign, .relation sign ∉ lexemes.map Lexeme.token) (operand : Operand) :
    IsSpelled text operand ↔ ofLexemes side lexemes = .ok operand := by
  rw [ofLexemes_eq_ok_iff, isSpelled_iff, ← htokens]
  constructor
  · rintro ⟨others, hothers, -, hsum⟩
    obtain rfl := Except.ok.inj (hscan.symm.trans hothers)
    exact hsum
  · exact fun hsum => ⟨padded, hscan, htokens ▸ hnone, hsum⟩

namespace Comparison

section Around

variable {left right : String} {first second : List Lexeme} (hfirst : Lexeme.scan left = .ok first)
  (hleft : ∀ sign, .relation sign ∉ first.map Lexeme.token)
  (hsecond : Lexeme.scan right = .ok second)
  (hright : ∀ sign, .relation sign ∉ second.map Lexeme.token)

include hfirst hleft hsecond hright

/-- A text, a comparison operator and another text, with or without blanks between them, make up the
comparison of just the operands that the tokens of the texts make up. -/
theorem parse_around_iff {relation : Relation} {sign before behind : String}
    (hsign : sign ∈ relation.spellings) (hbefore : ∀ c ∈ before.toList, Token.isBlank c = true)
    (hbehind : ∀ c ∈ behind.toList, Token.isBlank c = true) (comparison : Comparison) :
    parse (left ++ before ++ sign ++ behind ++ right) = .ok comparison ↔
      comparison.relation = relation ∧ Operand.ofLexemes .left first = .ok comparison.left ∧
        Operand.ofLexemes .right second = .ok comparison.right := by
  obtain ⟨front, hfront, hfrontTokens⟩ := Lexeme.scan_append_blanks hfirst hleft hbefore
  obtain ⟨back, hback, hbackTokens⟩ := Lexeme.scan_blanks_append hsecond hright hbehind
  have hspelled : ∀ operand, Operand.IsSpelled (left ++ before) operand ↔
      Operand.ofLexemes .left first = .ok operand :=
    Operand.isSpelled_iff_ofLexemes hfront hfrontTokens hleft
  have hspelled' : ∀ operand, Operand.IsSpelled (behind ++ right) operand ↔
      Operand.ofLexemes .right second = .ok operand :=
    Operand.isSpelled_iff_ofLexemes hback hbackTokens hright
  have hgrouped : left ++ before ++ sign ++ behind ++ right =
      left ++ before ++ sign ++ (behind ++ right) := String.append_assoc
  rw [hgrouped]
  constructor
  · intro h
    obtain ⟨hrelation, hoperand, hoperand'⟩ := isSpelled_of_parse
      ⟨front, hfront, hfrontTokens ▸ hleft⟩ ⟨back, hback, hbackTokens ▸ hright⟩ hsign h
    exact ⟨hrelation, (hspelled _).mp hoperand, (hspelled' _).mp hoperand'⟩
  · rintro ⟨rfl, hoperand, hoperand'⟩
    exact parse_between ((hspelled _).mpr hoperand) ((hspelled' _).mpr hoperand') hsign

/-- Texts that have no comparison operator among their tokens make a rule with any operator between
them just where the tokens of each make up an operand, and the rule relates these operands, with or
without blanks around the operator. Both signs of equality make the same rule, and characters of
operators in the texts all stand between quotes. -/
theorem parse_composed :
    (∀ (relation : Relation), ∀ sign ∈ relation.spellings, ∀ before behind : String,
      (∀ c ∈ before.toList, Token.isBlank c = true) →
      (∀ c ∈ behind.toList, Token.isBlank c = true) → ∀ comparison : Comparison,
        parse (left ++ before ++ sign ++ behind ++ right) = .ok comparison ↔
          comparison.relation = relation ∧ Operand.ofLexemes .left first = .ok comparison.left ∧
            Operand.ofLexemes .right second = .ok comparison.right) ∧
    (∀ before behind : String, (∀ c ∈ before.toList, Token.isBlank c = true) →
      (∀ c ∈ behind.toList, Token.isBlank c = true) → ∀ comparison : Comparison,
        parse (left ++ before ++ "=" ++ behind ++ right) = .ok comparison ↔
          parse (left ++ before ++ "==" ++ behind ++ right) = .ok comparison) ∧
    Lexeme.OperatorsQuoted left.toList first ∧ Lexeme.OperatorsQuoted right.toList second := by
  refine ⟨fun relation sign hsign before behind hbefore hbehind =>
      parse_around_iff hfirst hleft hsecond hright hsign hbefore hbehind,
    fun before behind hbefore hbehind comparison => ?_,
    Lexeme.operatorsQuoted_of_scan hfirst hleft, Lexeme.operatorsQuoted_of_scan hsecond hright⟩
  have hone : "=" ∈ Relation.equal.spellings := by decide
  have htwo : "==" ∈ Relation.equal.spellings := by decide
  rw [parse_around_iff hfirst hleft hsecond hright hone hbefore hbehind,
    parse_around_iff hfirst hleft hsecond hright htwo hbefore hbehind]

end Around

/-- Both texts have an operator between quotes, the right one behind a character of several
bytes. -/
theorem parse_composed_quoted :
    let left := "'a<=b'.length"
    let right := "user[\"\u00e4=y\"]"
    let first : List Lexeme :=
      [⟨.literal (.string "a<=b"), 0⟩, ⟨.dot, 6⟩, ⟨.name "length", 7⟩]
    let second : List Lexeme :=
      [⟨.name "user", 0⟩, ⟨.openBracket, 4⟩, ⟨.literal (.string "\u00e4=y"), 5⟩,
        ⟨.closeBracket, 11⟩]
    Lexeme.scan left = .ok first ∧ Lexeme.scan right = .ok second ∧
      Lexeme.OperatorsQuoted left.toList first ∧
      parse (left ++ "\t" ++ "=" ++ "" ++ right) =
        .ok ⟨.field (.literal (.string "a<=b")) "length", .equal,
          .index (.bag .user) (.literal (.string "\u00e4=y"))⟩ := by
  intro left right first second
  have hfirst : Lexeme.scan left = .ok first := by decide +kernel
  have hsecond : Lexeme.scan right = .ok second := by decide +kernel
  have hleft : ∀ sign, .relation sign ∉ first.map Lexeme.token := by
    intro sign
    cases sign <;> decide
  have hright : ∀ sign, .relation sign ∉ second.map Lexeme.token := by
    intro sign
    cases sign <;> decide
  obtain ⟨hcomposed, -, hquoted, -⟩ := parse_composed hfirst hleft hsecond hright
  refine ⟨hfirst, hsecond, hquoted, ?_⟩
  have hblank : ∀ c ∈ "\t".toList, Token.isBlank c = true := List.forall_mem_singleton.mpr rfl
  exact (hcomposed .equal "=" (by decide) "\t" "" hblank (List.forall_mem_nil _) _).mpr
    ⟨rfl, rfl, rfl⟩

end Comparison

end AccessControl
