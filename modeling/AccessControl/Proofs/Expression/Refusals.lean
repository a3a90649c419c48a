import AccessControl.Proofs.Expression.Soundness
import AccessControl.Proofs.Text.Position

/-!
# What the refusal of an expression tells about its text

Reading stops at a place in the text: what is left there is an end of the text, so that the offset
of the error is the number of bytes before it. The character that an error names stands there, and
where a parenthesis has no partner, the parenthesis.
-/

namespace AccessControl

/-- Whether what an error tells about a text is so. -/
def ExpressionError.Truthful (text : List Char) : ExpressionError → Prop
  | .unexpectedCharacter found offset => Text.StandsAt text offset [found]
  | .unbalanced offset => Text.StandsAt text offset ['('] ∨ Text.StandsAt text offset [')']
  | .empty | .unexpectedEnd | .tooDeep _ => True

namespace Expression

/-- What is left of a text behind a part stands at the bytes of the part. -/
theorem offset_append (before left : List Char) :
    offset (before ++ left) left = Text.byteLength before := by
  rw [offset, Text.byteLength_append, Nat.add_sub_cancel]

/-- What is left at the head of an end of a text stands at the offset of this end. -/
theorem standsAt_offset {text part rest : List Char} (h : part ++ rest <:+ text) :
    Text.StandsAt text (offset text (part ++ rest)) part := by
  obtain ⟨before, rfl⟩ := h
  rw [offset_append]
  exact Text.standsAt_append before part rest

/-- Whether a stop is at a place in a text, at a parenthesis if one has no partner. -/
def Stop.Within (text : List Char) : Stop → Prop
  | .unexpected left => left <:+ text
  | .unbalanced left => left <:+ text ∧ ∃ c rest, left = c :: rest ∧ (c = '(' ∨ c = ')')
  | .tooDeep => True

/-- A stop in an end of a text is one in the text. -/
theorem Stop.Within.of_suffix {stop : Stop} {text whole : List Char} (h : stop.Within text)
    (hsuffix : text <:+ whole) : stop.Within whole := by
  cases stop with
  | unexpected left => exact List.IsSuffix.trans h hsuffix
  | unbalanced left => exact ⟨List.IsSuffix.trans h.1 hsuffix, h.2⟩
  | tooDeep => trivial

/-- The error of a stop in a text tells what stands in the text. -/
theorem Stop.Within.truthful {stop : Stop} {text : List Char} (h : stop.Within text) :
    (stop.error text).Truthful text := by
  cases stop with
  | unexpected left =>
    cases left with
    | nil => trivial
    | cons found rest => exact @standsAt_offset text [found] rest h
  | unbalanced left =>
    obtain ⟨hleft, c, rest, rfl, rfl | rfl⟩ := h
    · exact Or.inl (@standsAt_offset text ['('] rest hleft)
    · exact Or.inr (@standsAt_offset text [')'] rest hleft)
  | tooDeep => trivial

/-- What a reader leaves is an end of the text it is given. -/
def Trims {α : Type} (read : Reader α) : Prop :=
  ∀ text value rest, read text = .ok (value, rest) → rest <:+ text

/-- A reader stops at places in the text it is given. -/
def Halts {α : Type} (read : Reader α) : Prop :=
  ∀ text stop, read text = .error stop → stop.Within text

/-- What a sound reader leaves is an end of the text. -/
theorem Sound.trims {α : Type} {read : Reader α} {language : List Char → α → Prop}
    (h : Sound read language) : Trims read := by
  intro text value rest hread
  obtain ⟨used, rfl, -⟩ := h text value rest hread
  exact List.suffix_append used rest

/-- Without the blanks at its head, an end of the text is left. -/
theorem skipBlanks_suffix (text : List Char) : skipBlanks text <:+ text :=
  List.dropWhile_suffix _

/-- A text up to a quote stops only at the end of the whole. -/
theorem quotedBy_halts (quote : Char) : Halts (quotedBy quote) := by
  intro text stop h
  induction text with
  | nil =>
    cases h
    exact List.suffix_rfl
  | cons c rest ih =>
    rw [quotedBy] at h
    split at h
    case isTrue => cases h
    case isFalse =>
      split at h
      case h_1 hread =>
        cases h
        exact (ih hread).of_suffix (List.suffix_cons c rest)
      case h_2 => cases h

/-- A quoted name stops where no quote is, or at the end. -/
theorem quoted_halts : Halts quoted := by
  intro text stop h
  have hskip := skipBlanks_suffix text
  rw [quoted] at h
  split at h
  case h_1 behind hquote =>
    rw [hquote] at hskip
    exact (quotedBy_halts '"' behind stop h).of_suffix ((List.suffix_cons _ _).trans hskip)
  case h_2 behind hquote =>
    rw [hquote] at hskip
    exact (quotedBy_halts '\'' behind stop h).of_suffix ((List.suffix_cons _ _).trans hskip)
  case h_3 =>
    cases h
    exact hskip

/-- Behind `data`, reading stops where the name is to be or where its bracket is to be closed. -/
theorem selector_halts : Halts selector := by
  intro text stop h
  unfold selector at h
  split at h
  case h_1 rest =>
    split at h
    case h_1 =>
      cases h
      exact List.suffix_cons '.' rest
    case h_2 => cases h
  case h_2 rest =>
    split at h
    case h_1 hread =>
      cases h
      exact (quoted_halts _ _ hread).of_suffix (List.suffix_cons '[' rest)
    case h_2 name left hread =>
      split at h
      case h_1 => cases h
      case h_2 =>
        cases h
        exact (skipBlanks_suffix left).trans
          ((quoted_sound.trims _ _ _ hread).trans (List.suffix_cons '[' rest))
  case h_3 =>
    cases h
    exact List.suffix_rfl

/-- A reference stops where it does not go on. -/
theorem reference_halts : Halts reference := by
  intro text stop h
  unfold reference at h
  split at h
  case h_1 rest =>
    split at h
    case h_1 hread =>
      cases h
      exact (selector_halts _ _ hread).of_suffix (List.suffix_append ['d', 'a', 't', 'a'] rest)
    case h_2 => cases h
  case h_2 =>
    cases h
    exact List.suffix_rfl

/-- A reference behind blanks stops in the text with the blanks. -/
theorem reference_skipBlanks_halts {text : List Char} {stop : Stop}
    (h : reference (skipBlanks text) = .error stop) : stop.Within text :=
  (reference_halts _ _ h).of_suffix (skipBlanks_suffix text)

section Chains

variable {α : Type} {connective : Connective} {item : Reader α}

/-- A chain stops where an item does, whatever the fuel. -/
theorem chainWithin_halts (htrims : Trims item) (hhalts : Halts item) (fuel : Nat) :
    Halts (chainWithin connective item fuel) := by
  induction fuel with
  | zero =>
    intro text stop h
    cases h
    exact List.suffix_rfl
  | succ fuel ih =>
    intro text stop h
    rw [chainWithin] at h
    split at h
    case h_1 hread =>
      cases h
      exact hhalts _ _ hread
    case h_2 first rest hfirst =>
      split at h
      case h_1 => cases h
      case h_2 behind hprefix =>
        split at h
        case h_1 hread =>
          cases h
          have hbehind : behind <:+ skipBlanks rest :=
            ⟨_, List.isPrefixOf?_eq_some_iff_append_eq.mp hprefix⟩
          exact (ih _ _ hread).of_suffix
            (hbehind.trans ((skipBlanks_suffix rest).trans (htrims _ _ _ hfirst)))
        case h_2 => cases h

/-- A chain stops where an item does. -/
theorem chain_halts (htrims : Trims item) (hhalts : Halts item) : Halts (chain connective item) :=
  fun text => chainWithin_halts htrims hhalts (text.length + 1) text

end Chains

/-- The clauses of an expression stop where an atom does. -/
theorem clausesOf_halts {budget : Nat} (h : Halts (atom budget)) :
    Halts (clausesOf (atom budget)) :=
  chain_halts (chain_sound (atom_sound budget)).trims
    (chain_halts (atom_sound budget).trims h)

/-- An atom stops where a reference or a group does, or at a parenthesis that is not closed. -/
theorem atom_halts (budget : Nat) : Halts (atom budget) := by
  induction budget with
  | zero =>
    intro text stop h
    unfold atom at h
    split at h
    case h_1 =>
      cases h
      trivial
    case h_2 => exact reference_skipBlanks_halts h
  | succ budget ih =>
    intro text stop h
    unfold atom at h
    split at h
    case h_1 inside hopen =>
      have hskip := skipBlanks_suffix text
      rw [hopen] at hskip
      split at h
      case h_1 hread =>
        cases h
        exact (clausesOf_halts ih _ _ hread).of_suffix ((List.suffix_cons '(' inside).trans hskip)
      case h_2 tree left hread =>
        split at h
        case h_1 => cases h
        case h_2 =>
          cases h
          exact ⟨hskip, '(', inside, rfl, Or.inl rfl⟩
    case h_2 => exact reference_skipBlanks_halts h

/-- The clauses of a text stop within it. -/
theorem within_of_clauses {text : List Char} {stop : Stop} (h : clauses text = .error stop) :
    stop.Within text := by
  rw [clauses] at h
  split at h
  case h_1 hread =>
    cases h
    exact clausesOf_halts (atom_halts groupLimit) _ _ hread
  case h_2 tree rest hread =>
    have hrest : skipBlanks rest <:+ text :=
      (skipBlanks_suffix rest).trans ((clausesOf_sound (atom_sound groupLimit)).trims _ _ _ hread)
    split at h
    case h_1 => cases h
    case h_2 behind hclose =>
      cases h
      exact ⟨hclose ▸ hrest, ')', behind, rfl, Or.inr rfl⟩
    case h_3 =>
      cases h
      exact hrest

/-- The error of a text that spells no tree tells what stands in the text. -/
theorem truthful_of_treeOf {text : List Char} {cause : ExpressionError}
    (h : treeOf text = .error cause) : cause.Truthful text := by
  rw [treeOf] at h
  split at h
  case isTrue =>
    cases h
    trivial
  case isFalse =>
    cases hread : clauses text with
    | error stop =>
      rw [hread] at h
      cases h
      exact (within_of_clauses hread).truthful
    | ok tree =>
      rw [hread] at h
      cases h

end Expression

end AccessControl
