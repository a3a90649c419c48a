import AccessControl.Proofs.Expression.Agreement

/-!
# Quotes and parentheses in expressions

A walk through a text keeps the quote that is open and the number of expressions that are. The text
of an atom leads back to where the walk began, at every depth, and where no expression is open it
holds no connective. Two walks through one text that end in the same quote have begun in the same
quote, since every character turns the three states of quotes into each other one to one. So an open
quote of one text is not closed by another text that is complete by itself, nor is an open
parenthesis, and a connective between two texts is one of the whole only if both texts are complete.
-/

namespace AccessControl.Expression

/-- A place in a text. -/
structure Place where
  /-- The quote that is open, if one is. -/
  quote : Option QuoteMark
  /-- The number of expressions that are open. -/
  depth : Nat

/-- The quote that a character is. -/
def QuoteMark.ofChar? (c : Char) : Option QuoteMark :=
  if c = '\'' then some .single else if c = '"' then some .double else none

/-- The quote that is open behind a character. -/
def turn (quote : Option QuoteMark) (c : Char) : Option QuoteMark :=
  match quote with
  | none => QuoteMark.ofChar? c
  | some mark => if c = mark.char then none else some mark

/-- The number of open expressions behind a character outside of quotes. -/
def weigh (depth : Nat) (c : Char) : Nat :=
  if c = '(' then depth + 1 else if c = ')' then depth - 1 else depth

/-- The place behind a character. Where no expression is open, none can be closed or go on with a
connective. -/
def Place.advance (place : Place) (c : Char) : Option Place :=
  match place.quote with
  | none =>
    if place.depth = 0 ∧ c ∈ [')', '&', '|'] then none
    else some ⟨turn none c, weigh place.depth c⟩
  | some mark => some ⟨turn (some mark) c, place.depth⟩

/-- The place behind a text. -/
def walk (place : Place) : List Char → Option Place
  | [] => some place
  | c :: rest => (place.advance c).bind (fun next => walk next rest)

/-- A walk through two texts is one through the first and on through the second. -/
theorem walk_append (place : Place) (front back : List Char) :
    walk place (front ++ back) = (walk place front).bind (fun next => walk next back) := by
  induction front generalizing place with
  | nil => rfl
  | cons c front ih =>
    rw [List.cons_append, walk, walk, Option.bind_assoc]
    exact Option.bind_congr (fun next _ => ih next)

/-- A walk through two texts goes on from where that through the first ends. -/
theorem walk_append_eq {place next : Place} {front : List Char} (h : walk place front = some next)
    (back : List Char) : walk place (front ++ back) = walk next back := by
  rw [walk_append, h, Option.bind_some]

/-- A walk through two texts passes a place between them. -/
theorem exists_walk {place last : Place} {front back : List Char}
    (h : walk place (front ++ back) = some last) :
    ∃ next, walk place front = some next ∧ walk next back = some last := by
  rw [walk_append] at h
  exact Option.bind_eq_some_iff.mp h

/-- A character that is no punctuation changes nothing. -/
theorem advance_plain {c : Char} (h : c ∉ punctuation) (depth : Nat) :
    Place.advance ⟨none, depth⟩ c = some ⟨none, depth⟩ := by
  simp only [punctuation, List.mem_cons, List.not_mem_nil, or_false, not_or] at h
  simp [Place.advance, turn, QuoteMark.ofChar?, weigh, h]

/-- A connective goes on with an open expression. -/
theorem walk_spelling (connective : Connective) (depth : Nat) :
    walk ⟨none, depth + 1⟩ connective.spelling = some ⟨none, depth + 1⟩ := by
  cases connective <;> rfl

/-- Where no expression is open there is no connective. -/
theorem walk_spelling_zero (connective : Connective) (rest : List Char) :
    walk ⟨none, 0⟩ (connective.spelling ++ rest) = none := by
  cases connective <;> rfl

/-- What stands in a quote does not matter. -/
theorem walk_quoted (mark : QuoteMark) {name : List Char} (h : mark.char ∉ name) (depth : Nat)
    (rest : List Char) :
    walk ⟨none, depth⟩ (mark.char :: (name ++ mark.char :: rest)) = walk ⟨none, depth⟩ rest := by
  have hopen : Place.advance ⟨none, depth⟩ mark.char = some ⟨some mark, depth⟩ := by
    cases mark <;> simp [Place.advance, turn, QuoteMark.ofChar?, QuoteMark.char, weigh]
  have hclose : Place.advance ⟨some mark, depth⟩ mark.char = some ⟨none, depth⟩ := by
    simp only [Place.advance, turn, if_true]
  have hname : walk ⟨some mark, depth⟩ name = some ⟨some mark, depth⟩ := by
    induction name with
    | nil => rfl
    | cons c name ih =>
      have hc : c ≠ mark.char := (List.ne_of_not_mem_cons h).symm
      simp only [walk, Place.advance, turn, if_neg hc, Option.bind_some]
      exact ih (List.not_mem_of_not_mem_cons h)
  rw [walk, hopen, Option.bind_some, walk_append_eq hname, walk, hclose, Option.bind_some]

/-- A quote that stands twice opens and closes, closes and opens, or stands in the other quote. -/
theorem turn_char_twice (mark : QuoteMark) (quote : Option QuoteMark) :
    turn (turn quote mark.char) mark.char = quote := by
  rcases quote with _ | other
  · cases mark <;> rfl
  · cases mark <;> cases other <;> rfl

/-- Any other character leaves open what is open. -/
theorem turn_other {c : Char} (h : ∀ mark : QuoteMark, c ≠ mark.char) (quote : Option QuoteMark) :
    turn quote c = quote := by
  have hsingle : c ≠ '\'' := h .single
  have hdouble : c ≠ '"' := h .double
  cases quote with
  | none => rw [turn, QuoteMark.ofChar?, if_neg hsingle, if_neg hdouble]
  | some mark => rw [turn, if_neg (h mark)]

/-- A character that stands twice leaves open what is open. -/
theorem turn_twice (c : Char) (quote : Option QuoteMark) : turn (turn quote c) c = quote := by
  by_cases hmark : ∃ mark : QuoteMark, c = mark.char
  · obtain ⟨mark, rfl⟩ := hmark
    exact turn_char_twice mark quote
  · have hother : ∀ mark : QuoteMark, c ≠ mark.char := fun mark hc => hmark ⟨mark, hc⟩
    rw [turn_other hother, turn_other hother]

/-- Every character turns different states of quotes into different ones. -/
theorem turn_injective {c : Char} {first second : Option QuoteMark}
    (h : turn first c = turn second c) : first = second := by
  rw [← turn_twice c first, h, turn_twice]

/-- One step turns the quote as the character says. -/
theorem quote_advance {place next : Place} {c : Char} (h : place.advance c = some next) :
    next.quote = turn place.quote c := by
  rw [Place.advance] at h
  split at h
  case h_1 hnone =>
    split at h
    case isTrue => cases h
    case isFalse => cases h; rw [hnone]
  case h_2 mark hsome => cases h; rw [hsome]

/-- Walks through one text that end in the same quote have begun in the same one. -/
theorem quote_eq_of_walk {first second firstEnd secondEnd : Place} {text : List Char}
    (hfirst : walk first text = some firstEnd) (hsecond : walk second text = some secondEnd)
    (h : firstEnd.quote = secondEnd.quote) : first.quote = second.quote := by
  induction text generalizing first second with
  | nil => cases hfirst; cases hsecond; exact h
  | cons c text ih =>
    obtain ⟨firstNext, hfirstStep, hfirstRest⟩ := Option.bind_eq_some_iff.mp hfirst
    obtain ⟨secondNext, hsecondStep, hsecondRest⟩ := Option.bind_eq_some_iff.mp hsecond
    have hnext := ih hfirstRest hsecondRest
    rw [quote_advance hfirstStep, quote_advance hsecondStep] at hnext
    exact turn_injective hnext

/-- A step that can be taken can be taken with one expression more open. -/
theorem advance_succ {quote quoteNext : Option QuoteMark} {depth depthNext : Nat} {c : Char}
    (h : Place.advance ⟨quote, depth⟩ c = some ⟨quoteNext, depthNext⟩) :
    Place.advance ⟨quote, depth + 1⟩ c = some ⟨quoteNext, depthNext + 1⟩ := by
  cases quote with
  | some mark => cases h; rfl
  | none =>
    simp only [Place.advance] at h ⊢
    split at h
    case isTrue => cases h
    case isFalse hopen =>
      cases h
      have hsucc : ¬(depth + 1 = 0 ∧ c ∈ [')', '&', '|']) := fun h => Nat.succ_ne_zero _ h.1
      have hweigh : weigh (depth + 1) c = weigh depth c + 1 := by
        unfold weigh
        split
        case isTrue => rfl
        case isFalse =>
          split
          case isTrue hclose =>
            have hdepth : depth ≠ 0 := fun hzero => hopen ⟨hzero, by rw [hclose]; decide⟩
            omega
          case isFalse => rfl
      rw [if_neg hsucc, hweigh]

/-- A walk that can be taken can be taken with one expression more open. -/
theorem walk_succ {quote quoteEnd : Option QuoteMark} {depth depthEnd : Nat} {text : List Char}
    (h : walk ⟨quote, depth⟩ text = some ⟨quoteEnd, depthEnd⟩) :
    walk ⟨quote, depth + 1⟩ text = some ⟨quoteEnd, depthEnd + 1⟩ := by
  induction text generalizing quote depth with
  | nil => cases h; rfl
  | cons c text ih =>
    obtain ⟨⟨quoteNext, depthNext⟩, hstep, hrest⟩ := Option.bind_eq_some_iff.mp h
    rw [walk, advance_succ hstep, Option.bind_some]
    exact ih hrest

/-- A walk through the text leads back to where it began, at every depth. -/
def Closed (text : List Char) : Prop := ∀ depth, walk ⟨none, depth⟩ text = some ⟨none, depth⟩

/-- Closed texts in a row are closed. -/
theorem Closed.append {front back : List Char} (hfront : Closed front) (hback : Closed back) :
    Closed (front ++ back) := fun depth => by
  rw [walk_append_eq (hfront depth), hback depth]

/-- A text without punctuation is closed. -/
theorem closed_plain {text : List Char} (h : ∀ c ∈ text, c ∉ punctuation) : Closed text := by
  intro depth
  induction text with
  | nil => rfl
  | cons c text ih =>
    rw [walk, advance_plain (h c List.mem_cons_self), Option.bind_some]
    exact ih (fun other hother => h other (List.mem_cons_of_mem _ hother))

/-- Blanks are closed. -/
theorem closed_blank {blanks : List Char} (h : Blank blanks) : Closed blanks :=
  closed_plain (fun c hc hmem =>
    Bool.false_ne_true ((isBlank_punctuation c hmem).symm.trans (h c hc)))

/-- Bare names are closed. -/
theorem closed_bare {name : List Char} (h : IsBareName name) : Closed name :=
  closed_plain (fun c hc hmem =>
    Bool.false_ne_true ((isBare_punctuation c hmem).symm.trans (h.2 c hc)))

/-- References are closed. -/
theorem closed_reference {text : List Char} {name : String} (h : ReferenceText text name) :
    Closed text := by
  cases h with
  | bare hname =>
    have hdata : Closed ['d', 'a', 't', 'a', '.'] := closed_plain (by simp [punctuation])
    exact hdata.append (closed_bare hname)
  | quoted mark hbefore hname hbehind =>
    have hdata : Closed ['d', 'a', 't', 'a', '['] := closed_plain (by simp [punctuation])
    have hend : Closed [']'] := closed_plain (by simp [punctuation])
    refine hdata.append ((closed_blank hbefore).append (fun depth => ?_))
    rw [walk_quoted mark hname]
    exact ((closed_blank hbehind).append hend) depth

/-- A walk through a chain leads back where an expression is open, if its items are closed. -/
theorem walk_chained {α : Type} {connective : Connective} {item : List Char → α → Prop}
    {text : List Char} {values : List α} {depth : Nat}
    (hitem : ∀ text value, item text value → walk ⟨none, depth + 1⟩ text = some ⟨none, depth + 1⟩)
    (h : Chained connective item text values) :
    walk ⟨none, depth + 1⟩ text = some ⟨none, depth + 1⟩ := by
  induction h with
  | single hvalue => exact hitem _ _ hvalue
  | more hvalue hblank _ ih =>
    rw [walk_append_eq (hitem _ _ hvalue), walk_append_eq (closed_blank hblank _),
      walk_append_eq (walk_spelling _ _), ih]

/-- Atoms are closed. -/
theorem closed_atom {text : List Char} {found : Atom} (h : AtomText text found) : Closed text := by
  induction h using AtomText.induct with
  | reference hblank href => exact (closed_blank hblank).append (closed_reference href)
  | group hblank hinner hbehind =>
    refine (closed_blank hblank).append (fun depth => ?_)
    have hopen : Place.advance ⟨none, depth⟩ '(' = some ⟨none, depth + 1⟩ := by
      simp [Place.advance, turn, QuoteMark.ofChar?, weigh]
    have hclose : walk ⟨none, depth + 1⟩ [')'] = some ⟨none, depth⟩ := rfl
    have hclauses := walk_chained (fun _ _ hclause =>
      walk_chained (fun _ _ ⟨_, hatom⟩ => hatom (depth + 1)) hclause) hinner
    rw [walk, hopen, Option.bind_some, walk_append_eq hclauses,
      walk_append_eq (closed_blank hbehind _), hclose]

/-- The texts of atoms with connectives of either kind between them and blanks at the end, where no
atom nests deeper than a bound. -/
inductive Row (bound : Nat) : List Char → Prop where
  /-- One atom. -/
  | single {text blanks : List Char} {found : Atom} : AtomText text found → found.depth ≤ bound →
    Blank blanks → Row bound (text ++ blanks)
  /-- One atom, a connective and further atoms. -/
  | more {text blanks rest : List Char} {found : Atom} (connective : Connective) :
    AtomText text found → found.depth ≤ bound → Blank blanks → Row bound rest →
    Row bound (text ++ (blanks ++ (connective.spelling ++ rest)))

section Rows

variable {bound : Nat} {text rest : List Char}

/-- Two rows with a connective between them are one row. -/
theorem Row.append (connective : Connective) (h : Row bound text) (hrest : Row bound rest) :
    Row bound (text ++ (connective.spelling ++ rest)) := by
  induction h with
  | single hatom hdepth hblank =>
    rw [List.append_assoc]
    exact .more connective hatom hdepth hblank hrest
  | more other hatom hdepth hblank _ ih =>
    simp only [List.append_assoc]
    exact .more other hatom hdepth hblank ih

/-- A chain of rows is a row, with blanks behind it. -/
theorem row_of_chained {α : Type} {connective : Connective} {item : List Char → α → Prop}
    {values : List α} (hitem : ∀ text value blanks, item text value → Blank blanks →
      Row bound (text ++ blanks))
    (h : Chained connective item text values) {behind : List Char} (hbehind : Blank behind) :
    Row bound (text ++ behind) := by
  induction h with
  | single hvalue => exact hitem _ _ _ hvalue hbehind
  | more hvalue hblank _ ih =>
    have hrow := (hitem _ _ _ hvalue hblank).append connective ih
    simpa only [List.append_assoc] using hrow

/-- A text that spells a tree is a row of atoms that nest no deeper than the tree. -/
theorem Spells.row {tree : Disjunction} (h : Spells text tree) (hdepth : tree.depth ≤ bound) :
    Row bound text := by
  obtain ⟨body, blanks, rfl, hbody, hblank⟩ := h
  have hfits := Atom.clausesDepth_le_iff.mp hdepth
  refine row_of_chained (fun text clause blanks hclause hblank => ?_) (hbody.restrict hfits) hblank
  exact row_of_chained (fun text found blanks hatom hblank => .single hatom.1 hatom.2 hblank)
    (hclause.1.restrict hclause.2) hblank

/-- An atom with blanks behind it spells a tree that nests as deep as the atom. -/
theorem spells_atom {found : Atom} {blanks : List Char} (hatom : AtomText text found)
    (hdepth : found.depth ≤ bound) (hblank : Blank blanks) :
    Spells (text ++ blanks) [[found]] ∧ Disjunction.depth [[found]] ≤ bound := by
  refine ⟨⟨text, blanks, rfl, .single (.single hatom), hblank⟩, ?_⟩
  rw [Disjunction.depth, Atom.clausesDepth_le_iff]
  simpa only [List.forall_mem_singleton] using hdepth

/-- A row of atoms spells a tree that nests no deeper than the atoms. -/
theorem Row.exists_spells (h : Row bound text) :
    ∃ tree : Disjunction, Spells text tree ∧ tree.depth ≤ bound := by
  induction h with
  | single hatom hdepth hblank => exact ⟨_, spells_atom hatom hdepth hblank⟩
  | more connective hatom hdepth hblank _ ih =>
    obtain ⟨tree, htree, hbound⟩ := ih
    obtain ⟨hspells, hfits⟩ := spells_atom hatom hdepth hblank
    have hjoin := hspells.join connective htree
    rw [List.append_assoc] at hjoin
    exact ⟨_, hjoin, Disjunction.depth_join_le hspells.ne_nil hfits hbound⟩

/-- A text is read as a tree just where it is a row of atoms within the limit of groups. -/
theorem exists_treeOf_iff : (∃ tree, treeOf text = .ok tree) ↔ Row groupLimit text := by
  constructor
  · rintro ⟨tree, htree⟩
    obtain ⟨hspells, hdepth⟩ := treeOf_sound htree
    exact hspells.row hdepth
  · intro h
    obtain ⟨tree, htree, hdepth⟩ := h.exists_spells
    exact ⟨tree, treeOf_eq_ok_iff.mpr ⟨htree, hdepth⟩⟩

/-- A walk through a row leads back where an expression is open. -/
theorem walk_row (h : Row bound text) (depth : Nat) :
    walk ⟨none, depth + 1⟩ text = some ⟨none, depth + 1⟩ := by
  induction h with
  | single hatom _ hblank => exact ((closed_atom hatom).append (closed_blank hblank)) _
  | more connective hatom _ hblank _ ih =>
    rw [walk_append_eq (closed_atom hatom _), walk_append_eq (closed_blank hblank _),
      walk_append_eq (walk_spelling _ _), ih]

end Rows

section Cuts

variable {left right front tail : List Char} {connective : Connective}

/-- A connective outside of quotes and groups does not stand in a closed text: the closed text at
the head of a text ends before it. -/
theorem Closed.cut (h : Closed front) (heq : front ++ tail = left ++ (connective.spelling ++ right))
    (hwalk : walk ⟨none, 1⟩ left = some ⟨none, 1⟩) :
    ∃ more, left = front ++ more ∧ tail = more ++ (connective.spelling ++ right) ∧
      walk ⟨none, 1⟩ more = some ⟨none, 1⟩ := by
  rcases List.append_eq_append_iff.mp heq with ⟨more, hleft, htail⟩ | ⟨within, hfront, hrest⟩
  · refine ⟨more, hleft, htail, ?_⟩
    rwa [hleft, walk_append_eq (h 1)] at hwalk
  · cases within with
    | nil =>
      rw [List.append_nil] at hfront
      exact ⟨[], by rw [hfront, List.append_nil], hrest.symm, rfl⟩
    | cons c within =>
      have hzero := h 0
      rw [hfront] at hzero
      obtain ⟨⟨quote, depth⟩, hleft, hwithin⟩ := exists_walk hzero
      have hone := walk_succ hleft
      rw [hwalk] at hone
      cases hone
      have hstuck : walk ⟨none, 0⟩ (c :: within) = none := by
        cases connective <;> obtain ⟨rfl, -⟩ := List.cons.inj hrest <;> rfl
      rw [hstuck] at hwithin
      cases hwithin

/-- A connective is one character twice. -/
theorem exists_spelling (connective : Connective) :
    ∃ c ∈ punctuation, connective.spelling = [c, c] ∧ c ≠ 'd' ∧ c ≠ '(' := by
  cases connective
  · exact ⟨'&', by decide, rfl, by decide, by decide⟩
  · exact ⟨'|', by decide, rfl, by decide, by decide⟩

/-- Two connectives that overlap are the same, or the second one begins behind the first. -/
theorem cut_spelling {bound : Nat} {other : Connective} {rest : List Char} (hrow : Row bound rest)
    (heq : other.spelling ++ rest = left ++ (connective.spelling ++ right)) :
    (left = [] ∧ rest = right) ∨
      ∃ more, left = other.spelling ++ more ∧ rest = more ++ (connective.spelling ++ right) := by
  obtain ⟨c, -, hother, -, -⟩ := exists_spelling other
  match left with
  | [] =>
    obtain rfl : other = connective := eq_of_spelling_begins ⟨rest, heq⟩
    exact Or.inl ⟨rfl, List.append_cancel_left heq⟩
  | [first] =>
    obtain ⟨d, hd, hspelling, hletter, hopen⟩ := exists_spelling connective
    rw [hother, hspelling] at heq
    have hrest : rest = d :: right := (List.cons.inj (List.cons.inj heq).2).2
    subst hrest
    obtain ⟨tree, htree, -⟩ := hrow.exists_spells
    obtain ⟨head, tail, hskip, hhead⟩ := htree.skipBlanks_eq
    rw [skipBlanks_cons (isBlank_punctuation d hd)] at hskip
    cases hskip
    exact absurd hhead (not_or.mpr ⟨hletter, hopen⟩)
  | first :: second :: more =>
    rw [hother] at heq ⊢
    obtain ⟨hfirst, hbehind⟩ := List.cons.inj heq
    obtain ⟨hsecond, hrest⟩ := List.cons.inj hbehind
    exact Or.inr ⟨more, by rw [← hfirst, ← hsecond]; rfl, hrest⟩

/-- Where a row is cut at a connective outside of quotes and groups, both parts are rows. -/
theorem Row.cut {bound : Nat} {text : List Char} (h : Row bound text)
    (heq : text = left ++ (connective.spelling ++ right))
    (hwalk : walk ⟨none, 1⟩ left = some ⟨none, 1⟩) : Row bound left ∧ Row bound right := by
  induction h generalizing left with
  | @single text blanks found hatom _ hblank =>
    obtain ⟨more, -, hblanks, hwalkMore⟩ := (closed_atom hatom).cut heq hwalk
    obtain ⟨last, -, hnil, -⟩ :=
      (closed_blank hblank).cut ((List.append_nil blanks).trans hblanks) hwalkMore
    cases connective <;> simp [Connective.spelling] at hnil
  | @more text blanks rest found other hatom hdepth hblank hrest ih =>
    obtain ⟨more, rfl, hmore, hwalkMore⟩ := (closed_atom hatom).cut heq hwalk
    obtain ⟨behind, rfl, hbehind, hwalkBehind⟩ := (closed_blank hblank).cut hmore hwalkMore
    rcases cut_spelling hrest hbehind with ⟨rfl, rfl⟩ | ⟨last, rfl, hlast⟩
    · rw [List.append_nil]
      exact ⟨.single hatom hdepth hblank, hrest⟩
    · rw [walk_append_eq (walk_spelling _ _)] at hwalkBehind
      obtain ⟨hfirst, hsecond⟩ := ih hlast hwalkBehind
      exact ⟨.more other hatom hdepth hblank hfirst, hsecond⟩

/-- Of two texts with a connective between them that are a row together, one is a row just where
the other is. -/
theorem row_iff_of_joined {bound : Nat}
    (h : Row bound (left ++ (connective.spelling ++ right))) :
    Row bound left ↔ Row bound right := by
  constructor
  · intro hleft
    exact (h.cut rfl (walk_row hleft 0)).2
  · intro hright
    have hseam : ∀ depth, walk ⟨none, depth + 1⟩ (connective.spelling ++ right) =
        some ⟨none, depth + 1⟩ := by
      intro depth
      rw [walk_append_eq (walk_spelling _ _), walk_row hright]
    obtain ⟨⟨quote, depth⟩, hleft, hrest⟩ := exists_walk (walk_row h 0)
    obtain rfl : quote = none := quote_eq_of_walk hrest (hseam 0) rfl
    cases depth with
    | zero => rw [walk_spelling_zero] at hrest; cases hrest
    | succ depth =>
      rw [hseam] at hrest
      cases hrest
      exact (h.cut rfl hleft).1

end Cuts

/-- Joining two expressions of which just one is malformed gives a malformed one. -/
theorem malformed_concat {left right : Expression} (hleft : left.TextAgrees)
    (hright : right.TextAgrees) (connective : Connective)
    (h : left.malformed ≠ right.malformed) : (left.concat connective right).malformed = true := by
  have hjoined := hleft.concat hright connective
  cases hmalformed : (left.concat connective right).malformed with
  | true => rfl
  | false =>
    rw [hjoined.malformed_eq_false_iff, concat_text, toList_joined, exists_treeOf_iff]
      at hmalformed
    have hiff : left.malformed = false ↔ right.malformed = false := by
      rw [hleft.malformed_eq_false_iff, hright.malformed_eq_false_iff, exists_treeOf_iff,
        exists_treeOf_iff]
      exact row_iff_of_joined hmalformed
    have hsame : left.malformed = right.malformed := by
      cases hl : left.malformed with
      | false => exact (hiff.mp hl).symm
      | true =>
        cases hr : right.malformed with
        | true => rfl
        | false => rw [hiff.mpr hr] at hl; cases hl
    exact absurd hsame h

end AccessControl.Expression
