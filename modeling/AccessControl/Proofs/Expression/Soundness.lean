import AccessControl.Proofs.Expression.Rendering
import Mathlib.Data.List.Basic
import Mathlib.Data.List.TakeWhile

/-!
# What is read belongs to the language

Whatever a reader takes off the head of a text is a text of the grammar, and what it returns is the
name, atom or tree that this text stands for. The reader of atoms is sound because the reader of
chains is sound for every sound reader of items, by induction on the budget for groups.
-/

namespace AccessControl.Expression

/-- What a reader takes off a text is in a language, with the value that the reader returns. -/
def Sound {α : Type} (read : Reader α) (language : List Char → α → Prop) : Prop :=
  ∀ text value rest, read text = .ok (value, rest) →
    ∃ used, text = used ++ rest ∧ language used value

/-- Blanks at the head of a text are skipped. -/
theorem skipBlanks_append {blanks : List Char} (h : Blank blanks) (text : List Char) :
    skipBlanks (blanks ++ text) = skipBlanks text := List.dropWhile_append_of_pos h

/-- A text of blanks alone is skipped. -/
theorem skipBlanks_blank {blanks : List Char} (h : Blank blanks) : skipBlanks blanks = [] :=
  List.dropWhile_eq_nil_iff.mpr h

/-- No other character is skipped. -/
theorem skipBlanks_cons {c : Char} (h : Text.isBlank c = false) (text : List Char) :
    skipBlanks (c :: text) = c :: text := by
  rw [skipBlanks, List.dropWhile_cons, h]
  rfl

/-- What is skipped are the blanks at the head of a text. -/
theorem exists_blanks (text : List Char) :
    ∃ blanks, Blank blanks ∧ text = blanks ++ skipBlanks text :=
  ⟨text.takeWhile Text.isBlank, fun _ hc => List.mem_takeWhile_imp hc,
    List.takeWhile_append_dropWhile.symm⟩

/-- What stands before a quote and does not hold it is read up to the quote. -/
theorem quotedBy_append {quote : Char} {name : List Char} (h : quote ∉ name) (rest : List Char) :
    quotedBy quote (name ++ quote :: rest) = .ok (name, rest) := by
  induction name with
  | nil => rw [List.nil_append, quotedBy, if_pos rfl]
  | cons c name ih =>
    have hc : c ≠ quote := (List.ne_of_not_mem_cons h).symm
    rw [List.cons_append, quotedBy, if_neg hc, ih (List.not_mem_of_not_mem_cons h)]

/-- A quoted name goes up to the first quote of its kind. -/
theorem quotedBy_eq_ok {quote : Char} {text name rest : List Char}
    (h : quotedBy quote text = .ok (name, rest)) : text = name ++ quote :: rest ∧ quote ∉ name := by
  induction text generalizing name with
  | nil => cases h
  | cons c text ih =>
    rw [quotedBy] at h
    split at h
    case isTrue hc =>
      cases h
      exact ⟨by rw [hc, List.nil_append], List.not_mem_nil⟩
    case isFalse hc =>
      split at h
      case h_1 => cases h
      case h_2 tail behind hread =>
        cases h
        obtain ⟨htext, hname⟩ := ih hread
        exact ⟨congrArg (c :: ·) htext, List.not_mem_cons_of_ne_of_not_mem (Ne.symm hc) hname⟩

/-- A quoted name is read with the blanks before it and both quotes. -/
theorem quoted_sound : Sound quoted (fun used name => ∃ before, ∃ mark : QuoteMark, Blank before ∧
    used = before ++ mark.char :: (name ++ [mark.char]) ∧ mark.char ∉ name) := by
  intro text name rest h
  obtain ⟨before, hbefore, htext⟩ := exists_blanks text
  have hquoted : ∀ (mark : QuoteMark) (behind : List Char), skipBlanks text = mark.char :: behind →
      quotedBy mark.char behind = .ok (name, rest) →
      ∃ used, text = used ++ rest ∧ ∃ before, ∃ mark : QuoteMark, Blank before ∧
        used = before ++ mark.char :: (name ++ [mark.char]) ∧ mark.char ∉ name := by
    intro mark behind hskip hread
    obtain ⟨hbehind, hname⟩ := quotedBy_eq_ok hread
    refine ⟨before ++ mark.char :: (name ++ [mark.char]), ?_, before, mark, hbefore, rfl, hname⟩
    rw [htext, hskip, hbehind]
    simp only [List.append_assoc, List.cons_append, List.nil_append]
  rw [quoted] at h
  split at h
  case h_1 behind hskip => exact hquoted .double behind hskip h
  case h_2 behind hskip => exact hquoted .single behind hskip h
  case h_3 => cases h

/-- What is read behind `data` makes it a reference to the name. -/
theorem selector_sound : Sound selector (fun used name =>
    ReferenceText ('d' :: 'a' :: 't' :: 'a' :: used) (String.ofList name)) := by
  intro text name rest h
  unfold selector at h
  split at h
  case h_1 behind =>
    split at h
    case h_1 => cases h
    case h_2 hne =>
      cases h
      refine ⟨'.' :: behind.takeWhile isBare, ?_, .bare ⟨hne, fun _ hc => ?_⟩⟩
      · rw [List.cons_append, List.takeWhile_append_dropWhile]
      · exact List.mem_takeWhile_imp hc
  case h_2 behind =>
    split at h
    case h_1 => cases h
    case h_2 found left hread =>
      obtain ⟨used, hused, before, mark, hbefore, rfl, hname⟩ := quoted_sound _ _ _ hread
      obtain ⟨blanks, hblanks, hleft⟩ := exists_blanks left
      split at h
      case h_1 tail hskip =>
        cases h
        refine ⟨_, ?_, .quoted mark hbefore hname hblanks⟩
        rw [hused, hleft, hskip]
        simp only [List.append_assoc, List.cons_append, List.nil_append]
      case h_2 => cases h
  case h_3 => cases h

/-- A reference is read with its name. -/
theorem reference_sound : Sound reference (fun used found =>
    ∃ name, found = .reference name ∧ ReferenceText used name) := by
  intro text found rest h
  unfold reference at h
  split at h
  case h_1 behind =>
    split at h
    case h_1 => cases h
    case h_2 name left hread =>
      cases h
      obtain ⟨used, rfl, hused⟩ := selector_sound _ _ _ hread
      exact ⟨'d' :: 'a' :: 't' :: 'a' :: used, rfl, _, rfl, hused⟩
  case h_2 => cases h

section Chains

variable {α : Type} {connective : Connective} {item : Reader α} {language : List Char → α → Prop}

/-- A chain is read from items of the language, whatever the fuel. -/
theorem chainWithin_sound (hitem : Sound item language) (fuel : Nat) :
    Sound (chainWithin connective item fuel) (Chained connective language) := by
  induction fuel with
  | zero => exact fun text values rest h => by cases h
  | succ fuel ih =>
    intro text values rest h
    rw [chainWithin] at h
    split at h
    case h_1 => cases h
    case h_2 first left hfirst =>
      obtain ⟨used, rfl, hused⟩ := hitem _ _ _ hfirst
      split at h
      case h_1 =>
        cases h
        exact ⟨used, rfl, .single hused⟩
      case h_2 behind hprefix =>
        split at h
        case h_1 => cases h
        case h_2 others tail hread =>
          cases h
          obtain ⟨more, rfl, hmore⟩ := ih _ _ _ hread
          obtain ⟨blanks, hblanks, hleft⟩ := exists_blanks left
          rw [← List.isPrefixOf?_eq_some_iff_append_eq.mp hprefix] at hleft
          refine ⟨_, ?_, .more hused hblanks hmore⟩
          rw [hleft]
          simp only [List.append_assoc]

/-- A chain is read from items of the language. -/
theorem chain_sound (hitem : Sound item language) :
    Sound (chain connective item) (Chained connective language) :=
  fun text => chainWithin_sound hitem (text.length + 1) text

end Chains

/-- The clauses of an expression are read from atoms of the language, and nest as deep as these. -/
theorem clausesOf_sound {read : Reader Atom} {bound : Nat}
    (h : Sound read (fun used found => AtomText used found ∧ found.depth ≤ bound)) :
    Sound (clausesOf read) (fun used tree => ClausesText used tree ∧ tree.depth ≤ bound) := by
  intro text tree rest hread
  obtain ⟨used, hused, hchain⟩ := chain_sound (chain_sound h) _ _ _ hread
  refine ⟨used, hused, hchain.imp (fun _ _ hclause => hclause.imp (fun _ _ hatom => hatom.1)), ?_⟩
  exact Atom.clausesDepth_le_iff.mpr
    (hchain.forall_mem (fun _ _ hclause => hclause.forall_mem (fun _ _ hatom => hatom.2)))

/-- An atom that does not begin with a parenthesis is read as a reference. -/
theorem reference_skipBlanks_sound {budget : Nat} {text rest : List Char} {found : Atom}
    (h : reference (skipBlanks text) = .ok (found, rest)) :
    ∃ used, text = used ++ rest ∧ AtomText used found ∧ found.depth ≤ budget := by
  obtain ⟨blanks, hblanks, htext⟩ := exists_blanks text
  obtain ⟨used, hused, name, rfl, hname⟩ := reference_sound _ _ _ h
  refine ⟨blanks ++ used, ?_, .reference hblanks hname, Nat.zero_le _⟩
  rw [htext, hused, List.append_assoc]

/-- An atom is read with the blanks before it, and nests no deeper than the budget. -/
theorem atom_sound (budget : Nat) :
    Sound (atom budget) (fun used found => AtomText used found ∧ found.depth ≤ budget) := by
  induction budget with
  | zero =>
    intro text found rest h
    unfold atom at h
    split at h
    case h_1 => cases h
    case h_2 => exact reference_skipBlanks_sound h
  | succ budget ih =>
    intro text found rest h
    unfold atom at h
    split at h
    case h_1 inside hopen =>
      split at h
      case h_1 => cases h
      case h_2 tree left hread =>
        split at h
        case h_1 behind hclose =>
          cases h
          obtain ⟨inner, rfl, hinner, hdepth⟩ := clausesOf_sound ih _ _ _ hread
          obtain ⟨blanks, hblanks, htext⟩ := exists_blanks text
          obtain ⟨between, hbetween, hleft⟩ := exists_blanks left
          refine ⟨_, ?_, .group hblanks hinner hbetween, Nat.succ_le_succ hdepth⟩
          rw [htext, hopen, hleft, hclose]
          simp only [List.append_assoc, List.cons_append, List.nil_append]
        case h_2 => cases h
    case h_2 => exact reference_skipBlanks_sound h

/-- A tree that is read is one that the whole text spells, and it keeps to the limit of groups. -/
theorem treeOf_sound {text : List Char} {tree : Disjunction} (h : treeOf text = .ok tree) :
    Spells text tree ∧ tree.depth ≤ groupLimit := by
  have hclauses : clauses text = .ok tree := by
    rw [treeOf] at h
    split at h
    case isTrue => cases h
    case isFalse =>
      cases hread : clauses text with
      | error stop => rw [hread] at h; cases h
      | ok found => rw [hread] at h; cases h; rfl
  rw [clauses] at hclauses
  split at hclauses
  case h_1 => cases hclauses
  case h_2 found rest hread =>
    split at hclauses
    case h_1 hrest =>
      cases hclauses
      obtain ⟨used, rfl, hused, hdepth⟩ := clausesOf_sound (atom_sound groupLimit) _ _ _ hread
      obtain ⟨blanks, hblanks, hend⟩ := exists_blanks rest
      rw [hrest, List.append_nil] at hend
      exact ⟨⟨used, rest, rfl, hused, hend ▸ hblanks⟩, hdepth⟩
    case h_2 => cases hclauses
    case h_3 => cases hclauses

end AccessControl.Expression
