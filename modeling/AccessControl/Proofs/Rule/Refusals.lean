import AccessControl.Proofs.Rule.Layout
import AccessControl.Proofs.Text.Position

/-!
# What the refusal of a rule tells about its text

Where a text is refused as a rule, the offset of the error is the number of bytes before a place in
the text, and what the error names stands there: the character, the connective, the quote that opens
a text without end, or the spelling of the token that the grammar has no place for. The readers of
operands refuse no token but one of those they are given, and the tokens lie where their offsets
tell.
-/

namespace AccessControl

/-- Whether what an error tells about a text is so. -/
def SyntaxError.Truthful (text : List Char) : SyntaxError → Prop
  | .unexpectedCharacter c offset => Text.StandsAt text offset [c]
  | .connective sign offset => Text.StandsAt text offset sign.spelling
  | .unterminatedString offset => ∃ quote before after lexemes, (quote = '"' ∨ quote = '\'') ∧
      text = before ++ quote :: after ∧ offset = (String.ofList before).utf8ByteSize ∧
      Lexeme.Layout [] before lexemes ∧ Token.readQuoted quote after = none
  | .invalidNumber literal => ∃ offset, Text.StandsAt text offset literal.toList
  | .unexpectedToken found offset => ∃ spelling, found.IsSpelling spelling ∧
      Text.StandsAt text offset spelling
  | .missingOperator | .multipleOperators _ | .emptyOperand _ | .unexpectedEnd _
  | .tooDeep _ _ => True

namespace Token

/-- A character that begins no token is named by the refusal, or begins the connective that is. -/
theorem truthful_refusal (before : List Char) (c : Char) (rest : List Char) :
    (refusal (Text.byteLength before) c rest).Truthful (before ++ c :: rest) := by
  unfold refusal
  split
  · exact Text.standsAt_append before ['&', '&'] _
  · exact Text.standsAt_append before ['|', '|'] _
  · exact Text.standsAt_append before [c] rest

/-- Where no token can be read behind the tokens of a text, the error tells what stands there. -/
theorem truthful_of_read {before : List Char} {lexemes : List Lexeme}
    (hlayout : Lexeme.Layout [] before lexemes) {c : Char} {rest : List Char} {cause : SyntaxError}
    (h : read (Text.byteLength before) c rest = .error cause) :
    cause.Truthful (before ++ c :: rest) := by
  rw [read] at h
  split at h
  case isTrue =>
    dsimp only at h
    split at h
    case h_1 => cases h
    case h_2 =>
      cases h
      have hstands := Text.standsAt_append before (Numeral.read (c :: rest)).1.spelling
        (Numeral.read (c :: rest)).2
      rw [Numeral.spelling_read, ← @String.toList_ofList (Numeral.spelling _)] at hstands
      exact ⟨_, hstands⟩
  case isFalse =>
    split at h
    case isTrue hquote =>
      split at h
      case h_1 => cases h
      case h_2 hread =>
        cases h
        simp only [Bool.or_eq_true, beq_iff_eq] at hquote
        exact ⟨c, before, rest, lexemes, hquote, rfl, Text.byteLength_eq_utf8ByteSize before,
          hlayout, hread⟩
    case isFalse =>
      split at h
      case isTrue => cases h
      case isFalse =>
        split at h
        case h_1 => cases h
        case h_2 =>
          split at h
          case h_1 =>
            unfold readRelation at h
            split at h
            case h_1 => cases h
            case h_2 =>
              split at h
              case h_1 => cases h
              case h_2 =>
                cases h
                exact Text.standsAt_append before [c] rest
          case h_2 =>
            cases h
            exact truthful_refusal before c rest

end Token

/-- A text that cannot be cut into tokens has tokens up to a place where none can be read. -/
theorem Lexeme.exists_stop_of_scanFrom {offset : Nat} {before text : List Char}
    {cause : SyntaxError} (hoffset : offset = Text.byteLength before)
    (h : scanFrom offset text = .error cause) :
    ∃ front c rest lexemes, text = front ++ c :: rest ∧ Layout before front lexemes ∧
      Token.read (Text.byteLength (before ++ front)) c rest = .error cause := by
  fun_induction scanFrom offset text generalizing before with
  | case1 => cases h
  | case2 offset c rest hblank ih =>
    have hnext : offset + c.utf8Size = Text.byteLength (before ++ [c]) := by
      rw [hoffset, Text.byteLength_append]
      rfl
    obtain ⟨front, d, behind, lexemes, rfl, hlayout, hread⟩ := ih hnext h
    rw [List.append_assoc, List.singleton_append] at hread
    exact ⟨c :: front, d, behind, lexemes, rfl, .blank hblank hlayout, hread⟩
  | case3 offset c rest hblank cause hread =>
    cases h
    refine ⟨[], c, rest, [], rfl, .done, ?_⟩
    rw [List.append_nil, ← hoffset]
    exact hread
  | case4 offset c rest hblank reading hread cause hscan ih =>
    cases h
    have hnext : offset + Text.byteLength reading.spelling =
        Text.byteLength (before ++ reading.spelling) := by
      rw [hoffset, Text.byteLength_append]
    obtain ⟨front, d, behind, lexemes, hrest, hlayout, hstop⟩ := ih hnext hscan
    have hspelling := Token.isSpelling_of_read (Bool.eq_false_iff.mpr hblank) hread
    rw [← Token.spelling_append_rest hread, hrest, ← List.append_assoc]
    rw [List.append_assoc] at hstop
    refine ⟨reading.spelling ++ front, d, behind, _, rfl,
      .token hspelling (Text.byteLength_eq_utf8ByteSize before) hlayout, hstop⟩
  | case5 offset c rest hblank reading hread others hscan ih => cases h

/-- The error of a text that cannot be cut into tokens tells what stands in the text. -/
theorem Lexeme.truthful_of_scan {text : String} {cause : SyntaxError}
    (h : scan text = .error cause) : cause.Truthful text.toList := by
  have hstart : 0 = Text.byteLength [] := rfl
  obtain ⟨front, c, rest, lexemes, htext, hlayout, hread⟩ := exists_stop_of_scanFrom hstart h
  rw [htext]
  exact Token.truthful_of_read hlayout hread

/-- Whether an error is about a token of a list, or about no token. -/
def SyntaxError.IsAbout (lexemes : List Lexeme) : SyntaxError → Prop
  | .unexpectedToken found offset => ⟨found, offset⟩ ∈ lexemes
  | .unexpectedEnd _ | .emptyOperand _ | .tooDeep _ _ | .missingOperator | .multipleOperators _ =>
    True
  | .unexpectedCharacter _ _ | .connective _ _ | .unterminatedString _ | .invalidNumber _ => False

/-- An error about a part of a list is about the list. -/
theorem SyntaxError.IsAbout.of_subset {cause : SyntaxError} {part lexemes : List Lexeme}
    (h : cause.IsAbout part) (hpart : part ⊆ lexemes) : cause.IsAbout lexemes := by
  cases cause <;> first | exact h | exact hpart h

/-- An error about what stands behind a token is about the list with the token. -/
theorem SyntaxError.IsAbout.cons {cause : SyntaxError} {lexeme : Lexeme} {lexemes : List Lexeme}
    (h : cause.IsAbout lexemes) : cause.IsAbout (lexeme :: lexemes) :=
  h.of_subset (List.subset_cons_self lexeme lexemes)

namespace Operand

/-- The errors of a reader are about the tokens it is given. -/
def Blames {α : Type} (read : Reader α) : Prop :=
  ∀ lexemes cause, read lexemes = .error cause → cause.IsAbout lexemes

/-- A reader leaves none but tokens it is given. -/
def Leaves {α : Type} (read : Reader α) : Prop :=
  ∀ lexemes value rest, read lexemes = .ok (value, rest) → rest ⊆ lexemes

/-- What a sound reader leaves is a part of what it is given. -/
theorem Sound.leaves {α : Type} {read : Reader α} {language : Nat → List Token → α → Prop}
    {budget : Nat} (h : Sound read language budget) : Leaves read := by
  intro lexemes value rest hread
  obtain ⟨used, levels, rfl, -, -⟩ := h lexemes value rest hread
  exact List.subset_append_right used rest

/-- A token is refused where it stands. -/
theorem isAbout_unexpected {lexeme : Lexeme} {lexemes : List Lexeme} (h : lexeme ∈ lexemes) :
    (unexpected lexeme).IsAbout lexemes := h

section Combinators

variable {side : Side} {inner : Reader Operand}

/-- Where a token is not the one that has to stand there, this token is refused. -/
theorem isAbout_of_expect {token : Token} {lexemes : List Lexeme} {cause : SyntaxError}
    (h : expect side token lexemes = .error cause) : cause.IsAbout lexemes := by
  cases lexemes with
  | nil =>
    cases h
    trivial
  | cons lexeme rest =>
    rw [expect] at h
    split at h
    case isTrue => cases h
    case isFalse =>
      cases h
      exact isAbout_unexpected List.mem_cons_self

/-- Reading one part behind another blames tokens of either. -/
theorem continued_blames {head : Reader Operand} {tail : Operand → Reader Operand}
    (hleaves : Leaves head) (hhead : Blames head) (htail : ∀ left, Blames (tail left)) :
    Blames (continued head tail) := by
  intro lexemes cause h
  rw [continued] at h
  split at h
  case h_1 hread =>
    cases h
    exact hhead _ _ hread
  case h_2 left rest hread =>
    exact (htail left _ _ h).of_subset (hleaves _ _ _ hread)

/-- Reading arguments blames their tokens, whatever the fuel. -/
theorem argumentsWithin_blames (hleaves : Leaves inner) (hinner : Blames inner) (fuel : Nat) :
    Blames (argumentsWithin side inner fuel) := by
  induction fuel with
  | zero =>
    intro lexemes cause h
    cases h
    trivial
  | succ fuel ih =>
    intro lexemes cause h
    rw [argumentsWithin] at h
    split at h
    case h_1 hread =>
      cases h
      exact hinner _ _ hread
    case h_2 =>
      cases h
      trivial
    case h_3 operand offset behind hread =>
      split at h
      case h_1 hothers =>
        cases h
        exact (ih _ _ hothers).cons.of_subset (hleaves _ _ _ hread)
      case h_2 => cases h
    case h_4 => cases h
    case h_5 operand lexeme behind _ _ hread =>
      cases h
      exact isAbout_unexpected (hleaves _ _ _ hread List.mem_cons_self)

/-- Reading a primary operand blames its tokens. -/
theorem primary_blames (hleaves : Leaves inner) (hinner : Blames inner) :
    Blames (primary side inner) := by
  intro lexemes cause h
  unfold primary at h
  split at h
  case h_1 =>
    cases h
    trivial
  case h_2 => cases h
  case h_3 word offset behind =>
    split at h
    case h_1 => cases h
    case h_2 =>
      split at h
      case h_1 opening tail =>
        split at h
        case h_1 hread =>
          cases h
          have hbehind : cause.IsAbout tail := by
            unfold arguments at hread
            split at hread
            case h_1 => cases hread
            case h_2 => exact argumentsWithin_blames hleaves hinner _ _ _ hread
          exact hbehind.cons.cons
        case h_2 => cases h
      case h_2 => cases h
  case h_4 offset behind =>
    split at h
    case h_1 hread =>
      cases h
      exact (hinner _ _ hread).cons
    case h_2 operand rest hread =>
      split at h
      case h_1 hclose =>
        cases h
        exact ((isAbout_of_expect hclose).of_subset (hleaves _ _ _ hread)).cons
      case h_2 => cases h
  case h_5 =>
    cases h
    exact isAbout_unexpected List.mem_cons_self

end Combinators

/-- The errors of all readers of operands are about the tokens they are given. -/
structure BlamesWithin (side : Side) (budget : Nat) : Prop where
  /-- Those of factors are. -/
  factor : Blames (factor side budget)
  /-- Those of accessors are. -/
  accessors (base : Operand) : Blames (accessors side budget base)
  /-- Those of further factors of a term are. -/
  moreFactors (left : Operand) : Blames (moreFactors side budget left)
  /-- Those of further terms of a sum are. -/
  moreTerms (left : Operand) : Blames (moreTerms side budget left)

namespace BlamesWithin

variable {side : Side} {budget : Nat}

/-- Reading a term blames its tokens. -/
theorem term (h : BlamesWithin side budget) : Blames (Operand.term side budget) :=
  continued_blames (soundWithin side budget).factor.leaves h.factor h.moreFactors

/-- Reading a sum blames its tokens. -/
theorem sum (h : BlamesWithin side budget) : Blames (Operand.sum side budget) :=
  continued_blames (soundWithin side budget).term.leaves h.term h.moreTerms

/-- Reading a factor blames its tokens if all is so at the budget below. -/
theorem factor_succ (h : BlamesWithin side budget) : Blames (Operand.factor side (budget + 1)) := by
  intro lexemes cause hread
  rw [Operand.factor] at hread
  dsimp only at hread
  split at hread
  case h_1 offset behind =>
    split at hread
    case h_1 hinner =>
      cases hread
      exact (h.factor _ _ hinner).cons
    case h_2 => cases hread
  case h_2 =>
    have hsum := (soundWithin side budget).sum
    exact continued_blames (primary_sound hsum).leaves (primary_blames hsum.leaves h.sum)
      h.accessors _ _ hread

/-- Reading accessors blames their tokens if all is so at the budget below. -/
theorem accessors_succ (h : BlamesWithin side budget) (base : Operand) :
    Blames (Operand.accessors side (budget + 1) base) := by
  intro lexemes cause hread
  rw [Operand.accessors] at hread
  dsimp only at hread
  split at hread
  case h_1 =>
    exact (h.accessors _ _ _ hread).cons.cons
  case h_2 =>
    cases hread
    exact isAbout_unexpected (List.mem_cons_of_mem _ List.mem_cons_self)
  case h_3 =>
    cases hread
    trivial
  case h_4 opening behind =>
    split at hread
    case h_1 hposition =>
      cases hread
      exact (h.sum _ _ hposition).cons
    case h_2 position left hposition =>
      have hleft : left ⊆ behind := (soundWithin side budget).sum.leaves _ _ _ hposition
      split at hread
      case h_1 hclose =>
        cases hread
        exact ((isAbout_of_expect hclose).of_subset hleft).cons
      case h_2 tail hclose =>
        obtain ⟨closing, rfl, -⟩ := expect_eq_ok hclose
        exact ((h.accessors _ _ _ hread).cons.of_subset hleft).cons
  case h_5 => cases hread

/-- Reading further factors blames their tokens if all is so at the budget below. -/
theorem moreFactors_succ (h : BlamesWithin side budget) (left : Operand) :
    Blames (Operand.moreFactors side (budget + 1) left) := by
  intro lexemes cause hread
  rw [Operand.moreFactors] at hread
  dsimp only at hread
  split at hread
  case h_1 operator offset behind =>
    split at hread
    case isTrue => cases hread
    case isFalse =>
      split at hread
      case h_1 hright =>
        cases hread
        exact (h.factor _ _ hright).cons
      case h_2 right tail hright =>
        have htail : tail ⊆ behind := (soundWithin side budget).factor.leaves _ _ _ hright
        exact ((h.moreFactors _ _ _ hread).of_subset htail).cons
  case h_2 => cases hread

/-- Reading further terms blames their tokens if all is so at the budget below. -/
theorem moreTerms_succ (h : BlamesWithin side budget) (left : Operand) :
    Blames (Operand.moreTerms side (budget + 1) left) := by
  intro lexemes cause hread
  rw [Operand.moreTerms] at hread
  dsimp only at hread
  split at hread
  case h_1 operator offset behind =>
    split at hread
    case isTrue =>
      split at hread
      case h_1 hright =>
        cases hread
        exact (h.term _ _ hright).cons
      case h_2 right tail hright =>
        have htail : tail ⊆ behind := (soundWithin side budget).term.leaves _ _ _ hright
        exact ((h.moreTerms _ _ _ hread).of_subset htail).cons
    case isFalse => cases hread
  case h_2 => cases hread

/-- Without a budget all errors are about the depth. -/
theorem zero (side : Side) : BlamesWithin side 0 where
  factor := fun lexemes cause hread => by
    rw [Operand.factor] at hread
    cases hread
    trivial
  accessors := fun base lexemes cause hread => by
    rw [Operand.accessors] at hread
    dsimp only at hread
    split at hread <;> cases hread <;> trivial
  moreFactors := fun left lexemes cause hread => by
    rw [Operand.moreFactors] at hread
    dsimp only at hread
    split at hread
    case h_1 => split at hread <;> cases hread; trivial
    case h_2 => cases hread
  moreTerms := fun left lexemes cause hread => by
    rw [Operand.moreTerms] at hread
    dsimp only at hread
    split at hread
    case h_1 => split at hread <;> cases hread; trivial
    case h_2 => cases hread

end BlamesWithin

/-- The errors of all readers of operands are about the tokens they are given, whatever the
budget. -/
theorem blamesWithin (side : Side) (budget : Nat) : BlamesWithin side budget := by
  induction budget with
  | zero => exact .zero side
  | succ budget ih =>
    exact ⟨ih.factor_succ, ih.accessors_succ, ih.moreFactors_succ, ih.moreTerms_succ⟩

/-- Tokens that make up no operand are refused for one of them, or for none. -/
theorem isAbout_of_ofLexemes {side : Side} {lexemes : List Lexeme} {cause : SyntaxError}
    (h : ofLexemes side lexemes = .error cause) : cause.IsAbout lexemes := by
  rw [ofLexemes] at h
  split at h
  case isTrue =>
    cases h
    trivial
  case isFalse =>
    split at h
    case h_1 hread =>
      cases h
      exact (blamesWithin side levels).sum _ _ hread
    case h_2 => cases h
    case h_3 operand lexeme rest hread =>
      cases h
      exact isAbout_unexpected
        ((soundWithin side levels).sum.leaves _ _ _ hread List.mem_cons_self)

end Operand

namespace Comparison

/-- Tokens that make up no comparison are refused for one of them, or for none. -/
theorem isAbout_of_ofLexemes {lexemes : List Lexeme} {cause : SyntaxError}
    (h : ofLexemes lexemes = .error cause) : cause.IsAbout lexemes := by
  rw [ofLexemes] at h
  split at h
  case h_1 =>
    cases h
    trivial
  case h_2 relation hrelations =>
    cases hleft : Operand.ofLexemes .left
        (lexemes.takeWhile (fun lexeme => !isRelation lexeme)) with
    | error cause =>
      rw [hleft] at h
      cases h
      exact (Operand.isAbout_of_ofLexemes hleft).of_subset (List.takeWhile_subset _)
    | ok left =>
      cases hright : Operand.ofLexemes .right
          ((lexemes.dropWhile (fun lexeme => !isRelation lexeme)).drop 1) with
      | error cause =>
        rw [hleft, hright] at h
        cases h
        exact (Operand.isAbout_of_ofLexemes hright).of_subset
          (List.Subset.trans (List.drop_subset 1 _) (List.dropWhile_subset _))
      | ok right =>
        rw [hleft, hright] at h
        cases h
  case h_3 =>
    cases h
    trivial

/-- The error of a text that is no rule tells what stands in the text. -/
theorem truthful_of_parse {text : String} {cause : SyntaxError}
    (h : parse text = .error cause) : cause.Truthful text.toList := by
  cases hscan : Lexeme.scan text with
  | error found =>
    rw [parse, hscan] at h
    cases h
    exact Lexeme.truthful_of_scan hscan
  | ok lexemes =>
    rw [parse, hscan] at h
    have habout : cause.IsAbout lexemes := isAbout_of_ofLexemes h
    have hlies := (Lexeme.layout_of_scan hscan).exists_liesIn
    cases cause with
    | unexpectedToken found offset =>
      obtain ⟨spelling, before, after, htext, hoffset, hspelling⟩ := hlies _ habout
      exact ⟨spelling, hspelling, before, after, htext, hoffset⟩
    | unexpectedCharacter | connective | unterminatedString | invalidNumber =>
      exact absurd habout id
    | _ => trivial

end Comparison

end AccessControl
