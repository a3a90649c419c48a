import AccessControl.Proofs.Expression.Characters
import AccessControl.Proofs.Expression.Soundness

/-!
# The language is read

A text of the grammar is read up to its end, whatever stands behind it, as long as that does not go
on with the name or the chain that was read. Where the groups of the text keep to the budget, the
tree that it stands for is returned, and where they do not, the reading stops at the depth and at
nothing else. Both cases are shown together, since a reader meets the first group that is too deep
only behind all that came out well.
-/

namespace AccessControl.Expression

/-- A reader reads every text of a language, and stops at the depth if the value does not fit. What
is behind the text has to follow it. -/
def Complete {α : Type} (read : Reader α) (language : List Char → α → Prop) (fits : α → Prop)
    (follows : List Char → Prop) : Prop :=
  ∀ text value rest, language text value → follows rest →
    (fits value → read (text ++ rest) = .ok (value, rest)) ∧
      (¬fits value → read (text ++ rest) = .error .tooDeep)

/-- What stands behind a text does not go on with a bare name, nor with any of the connectives. -/
def Follows (connectives : List Connective) (rest : List Char) : Prop :=
  (∀ c ∈ rest.head?, isBare c = false) ∧
    ∀ connective ∈ connectives, ¬connective.spelling <+: skipBlanks rest

/-- A text that follows where more connectives are shut out follows where fewer are. -/
theorem Follows.tail {connective : Connective} {connectives : List Connective} {rest : List Char}
    (h : Follows (connective :: connectives) rest) : Follows connectives rest :=
  ⟨h.1, fun other hother => h.2 other (List.mem_cons_of_mem _ hother)⟩

/-- What begins with blanks goes on with no bare name if what is behind the blanks does not. -/
theorem isBare_head?_append {blanks rest : List Char} (hblank : Blank blanks)
    (hrest : ∀ c ∈ rest.head?, isBare c = false) :
    ∀ c ∈ (blanks ++ rest).head?, isBare c = false := by
  cases blanks with
  | nil => exact hrest
  | cons blank blanks =>
    intro c hc
    cases hc
    exact isBare_of_isBlank (hblank _ List.mem_cons_self)

/-- One connective is the beginning of another one's text only if they are the same. -/
theorem eq_of_spelling_begins {first second : Connective} {rest : List Char}
    (h : first.spelling <+: second.spelling ++ rest) : first = second := by
  cases first <;> cases second
  case and.and => rfl
  case or.or => rfl
  all_goals simp [Connective.spelling, List.cons_prefix_cons] at h

/-- No connective begins with a blank. -/
theorem skipBlanks_spelling (connective : Connective) (rest : List Char) :
    skipBlanks (connective.spelling ++ rest) = connective.spelling ++ rest := by
  cases connective <;> exact skipBlanks_cons (by decide) _

/-- A connective follows where it is not shut out itself. -/
theorem follows_spelling {connective : Connective} {connectives : List Connective}
    {blanks : List Char} (hblank : Blank blanks) (hnew : connective ∉ connectives)
    (rest : List Char) : Follows connectives (blanks ++ (connective.spelling ++ rest)) := by
  constructor
  · apply isBare_head?_append hblank
    intro c hc
    cases connective <;> cases hc <;> exact isBare_punctuation _ (by decide)
  · intro other hother hprefix
    rw [skipBlanks_append hblank, skipBlanks_spelling] at hprefix
    exact hnew (eq_of_spelling_begins hprefix ▸ hother)

/-- A closing parenthesis follows everything. -/
theorem follows_close (connectives : List Connective) {blanks : List Char} (hblank : Blank blanks)
    (rest : List Char) : Follows connectives (blanks ++ ')' :: rest) := by
  constructor
  · apply isBare_head?_append hblank
    intro c hc
    cases hc
    exact isBare_punctuation _ (by decide)
  · intro other _ hprefix
    rw [skipBlanks_append hblank, skipBlanks_cons (by decide)] at hprefix
    cases other <;> simp [Connective.spelling, List.cons_prefix_cons] at hprefix

/-- The end of a text follows everything. -/
theorem follows_end (connectives : List Connective) {blanks : List Char} (hblank : Blank blanks) :
    Follows connectives blanks := by
  constructor
  · rw [← List.append_nil blanks]
    exact isBare_head?_append hblank (fun _ hc => by cases hc)
  · intro other _ hprefix
    rw [skipBlanks_blank hblank] at hprefix
    cases other <;> simp [Connective.spelling] at hprefix

section Chains

variable {α : Type} {connective : Connective} {item : Reader α} {language : List Char → α → Prop}
  {fits : α → Prop} {connectives : List Connective}

/-- A chain is read as long as the fuel exceeds the characters that are left. -/
theorem chainWithin_complete (hitem : Complete item language fits (Follows connectives))
    (hnew : connective ∉ connectives) {text : List Char} {values : List α}
    (h : Chained connective language text values) {rest : List Char}
    (hrest : Follows (connective :: connectives) rest) {fuel : Nat}
    (hfuel : text.length + rest.length < fuel) :
    ((∀ value ∈ values, fits value) →
        chainWithin connective item fuel (text ++ rest) = .ok (values, rest)) ∧
      (¬(∀ value ∈ values, fits value) →
        chainWithin connective item fuel (text ++ rest) = .error .tooDeep) := by
  obtain ⟨fuel, rfl⟩ : ∃ smaller, fuel = smaller + 1 := ⟨fuel - 1, by omega⟩
  induction h generalizing fuel with
  | @single text value hvalue =>
    have hread := hitem text value rest hvalue hrest.tail
    have hstop : connective.spelling.isPrefixOf? (skipBlanks rest) = none := by
      cases hprefix : connective.spelling.isPrefixOf? (skipBlanks rest) with
      | none => rfl
      | some behind =>
        exact absurd ⟨behind, List.isPrefixOf?_eq_some_iff_append_eq.mp hprefix⟩
          (hrest.2 connective List.mem_cons_self)
    rw [List.forall_mem_singleton, chainWithin]
    constructor
    · intro hfits
      simp only [hread.1 hfits, hstop]
    · intro hfits
      simp only [hread.2 hfits]
  | @more text blanks others value values hvalue hblank _ ih =>
    have hread := hitem text value (blanks ++ (connective.spelling ++ (others ++ rest))) hvalue
      (follows_spelling hblank hnew _)
    have hstep : connective.spelling.isPrefixOf?
        (skipBlanks (blanks ++ (connective.spelling ++ (others ++ rest)))) =
          some (others ++ rest) := by
      rw [skipBlanks_append hblank, skipBlanks_spelling]
      exact List.isPrefixOf?_eq_some_iff_append_eq.mpr rfl
    have hlength : connective.spelling.length = 2 := by cases connective <;> rfl
    simp only [List.length_append, hlength] at hfuel
    obtain ⟨fuel, rfl⟩ : ∃ smaller, fuel = smaller + 1 := ⟨fuel - 1, by omega⟩
    have hothers := @ih fuel (by omega)
    rw [List.forall_mem_cons, chainWithin]
    simp only [List.append_assoc]
    constructor
    · intro hfits
      simp only [hread.1 hfits.1, hstep, hothers.1 hfits.2]
    · intro hfits
      by_cases hfirst : fits value
      · have hrest := hothers.2 (fun hall => hfits ⟨hfirst, hall⟩)
        simp only [hread.1 hfirst, hstep, hrest]
      · simp only [hread.2 hfirst]

/-- Chains are read if their items are. -/
theorem chain_complete (hitem : Complete item language fits (Follows connectives))
    (hnew : connective ∉ connectives) :
    Complete (chain connective item) (Chained connective language)
      (fun values => ∀ value ∈ values, fits value) (Follows (connective :: connectives)) := by
  intro text values rest h hrest
  exact chainWithin_complete hitem hnew h hrest
    (by rw [List.length_append]; exact Nat.lt_succ_self _)

end Chains

/-- A bare name is read up to what follows it. -/
theorem selector_bare {name rest : List Char} (hname : IsBareName name) (hrest : Follows [] rest) :
    selector ('.' :: (name ++ rest)) = .ok (name, rest) := by
  have hend : rest.takeWhile isBare = [] ∧ rest.dropWhile isBare = rest := by
    cases rest with
    | nil => exact ⟨rfl, rfl⟩
    | cons c rest =>
      have hc : ¬isBare c = true := by rw [hrest.1 c rfl]; exact Bool.false_ne_true
      exact ⟨List.takeWhile_cons_of_neg hc, List.dropWhile_cons_of_neg hc⟩
  have htake : (name ++ rest).takeWhile isBare = name := by
    rw [List.takeWhile_append_of_pos hname.2, hend.1, List.append_nil]
  have hdrop : (name ++ rest).dropWhile isBare = rest := by
    rw [List.dropWhile_append_of_pos hname.2, hend.2]
  rw [selector, htake, hdrop]
  split
  case h_1 => exact absurd rfl hname.1
  case h_2 => rfl

/-- A quoted name is read with its quotes. -/
theorem quoted_append (mark : QuoteMark) {before name : List Char} (hbefore : Blank before)
    (hname : mark.char ∉ name) (rest : List Char) :
    quoted (before ++ mark.char :: (name ++ mark.char :: rest)) = .ok (name, rest) := by
  have hmark : Text.isBlank mark.char = false :=
    isBlank_punctuation _ (by cases mark <;> decide)
  rw [quoted, skipBlanks_append hbefore, skipBlanks_cons hmark]
  cases mark <;> exact quotedBy_append hname rest

/-- A quoted name is read up to the closing bracket. -/
theorem selector_quoted (mark : QuoteMark) {before name behind : List Char} (hbefore : Blank before)
    (hname : mark.char ∉ name) (hbehind : Blank behind) (rest : List Char) :
    selector ('[' :: (before ++ mark.char :: (name ++ mark.char :: (behind ++ ']' :: rest)))) =
      .ok (name, rest) := by
  have hclose : skipBlanks (behind ++ ']' :: rest) = ']' :: rest := by
    rw [skipBlanks_append hbehind, skipBlanks_cons (by decide)]
  rw [selector, quoted_append mark hbefore hname]
  simp only [hclose]

/-- A reference is read up to what follows it. -/
theorem reference_complete {text rest : List Char} {name : String} (h : ReferenceText text name)
    (hrest : Follows [] rest) : reference (text ++ rest) = .ok (.reference name, rest) := by
  cases h with
  | bare hname =>
    simp only [List.cons_append, reference, selector_bare hname hrest]
  | quoted mark hbefore hname hbehind =>
    simp only [List.cons_append, List.append_assoc, List.nil_append, reference,
      selector_quoted mark hbefore hname hbehind]

/-- A reference behind blanks is an atom, whatever the budget. -/
theorem atom_reference {blanks text rest : List Char} {name : String} (hblank : Blank blanks)
    (h : ReferenceText text name) (hrest : Follows [] rest) (budget : Nat) :
    atom budget (blanks ++ (text ++ rest)) = .ok (.reference name, rest) := by
  have hread := reference_complete h hrest
  obtain ⟨tail, rfl⟩ := h.exists_cons
  have hskip : skipBlanks (blanks ++ ('d' :: tail ++ rest)) = 'd' :: tail ++ rest := by
    rw [skipBlanks_append hblank]
    exact skipBlanks_cons (by decide) _
  cases budget <;> simp only [atom, hskip] <;> exact hread

/-- The clauses of an expression are read if its atoms are. -/
theorem clausesOf_complete {read : Reader Atom} {language : List Char → Atom → Prop}
    {fits : Atom → Prop} (h : Complete read language fits (Follows [])) :
    Complete (clausesOf read) (Chained .or (Chained .and language))
      (fun tree => ∀ clause ∈ tree, ∀ found ∈ clause, fits found) (Follows [.or, .and]) :=
  chain_complete (chain_complete h (by decide)) (by decide)

/-- Every atom is read, if it keeps to the budget; otherwise the reading stops at the depth. -/
theorem atom_complete (budget : Nat) :
    Complete (atom budget) AtomText (fun found => found.depth ≤ budget) (Follows []) := by
  intro text found rest h
  induction h using AtomText.induct generalizing budget rest with
  | reference hblank href =>
    intro hrest
    rw [List.append_assoc, atom_reference hblank href hrest]
    exact ⟨fun _ => rfl, fun hdeep => absurd (Nat.zero_le _) hdeep⟩
  | @group blanks inner behind clauses hblank hinner hbehind =>
    intro hrest
    have hskip : skipBlanks (blanks ++ '(' :: (inner ++ (behind ++ [')'])) ++ rest) =
        '(' :: (inner ++ (behind ++ ')' :: rest)) := by
      rw [List.append_assoc, skipBlanks_append hblank]
      simp only [List.cons_append, List.append_assoc, List.nil_append]
      exact skipBlanks_cons (by decide) _
    cases budget with
    | zero =>
      simp only [atom, hskip]
      exact ⟨fun hdepth => absurd hdepth (Nat.not_succ_le_zero _), fun _ => trivial⟩
    | succ budget =>
      have hclose : skipBlanks (behind ++ ')' :: rest) = ')' :: rest := by
        rw [skipBlanks_append hbehind, skipBlanks_cons (by decide)]
      have hread := clausesOf_complete (fun text found rest hatom => hatom.2 budget rest)
        inner clauses (behind ++ ')' :: rest) hinner (follows_close _ hbehind rest)
      simp only [atom, hskip, Atom.depth, Nat.add_le_add_iff_right, Atom.clausesDepth_le_iff]
      constructor
      · intro hfits
        simp only [hread.1 hfits, hclose]
      · intro hfits
        simp only [hread.2 hfits]

/-- Behind the blanks, a text that spells a tree begins with a letter or a parenthesis. -/
theorem Spells.skipBlanks_eq {text : List Char} {tree : Disjunction} (h : Spells text tree) :
    ∃ c rest, skipBlanks text = c :: rest ∧ (c = 'd' ∨ c = '(') := by
  obtain ⟨body, behind, rfl, hbody, -⟩ := h
  obtain ⟨first, clause, others, rfl, hfirst⟩ := hbody.exists_first
  obtain ⟨first, found, more, rfl, hfound⟩ := hfirst.exists_first
  obtain ⟨blanks, c, rest, hblank, rfl, hc⟩ := hfound.exists_head
  have hplain : Text.isBlank c = false := by rcases hc with rfl | rfl <;> decide
  refine ⟨c, rest ++ (more ++ (others ++ behind)), ?_, hc⟩
  simp only [List.append_assoc, List.cons_append, skipBlanks_append hblank, skipBlanks_cons hplain]

/-- A text that spells a tree is read as this tree, or refused for its depth. -/
theorem treeOf_complete {text : List Char} {tree : Disjunction} (h : Spells text tree) :
    (tree.depth ≤ groupLimit → treeOf text = .ok tree) ∧
      (groupLimit < tree.depth → treeOf text = .error (.tooDeep groupLimit)) := by
  have hne : (skipBlanks text).isEmpty = false := by
    obtain ⟨c, rest, hskip, -⟩ := h.skipBlanks_eq
    rw [hskip]
    rfl
  obtain ⟨body, blanks, rfl, hbody, hblank⟩ := h
  have hread := clausesOf_complete (atom_complete groupLimit) body tree blanks hbody
    (follows_end _ hblank)
  rw [← Nat.not_le, treeOf, hne, Disjunction.depth, Atom.clausesDepth_le_iff]
  constructor
  · intro hfits
    simp only [Bool.false_eq_true, if_false, clauses, hread.1 hfits, skipBlanks_blank hblank]
    rfl
  · intro hfits
    simp only [Bool.false_eq_true, if_false, clauses, hread.2 hfits]
    rfl

/-- A text is read as a tree just where it spells the tree and the tree keeps to the limit. -/
theorem treeOf_eq_ok_iff {text : List Char} {tree : Disjunction} :
    treeOf text = .ok tree ↔ Spells text tree ∧ tree.depth ≤ groupLimit :=
  ⟨treeOf_sound, fun h => (treeOf_complete h.1).1 h.2⟩

end AccessControl.Expression
