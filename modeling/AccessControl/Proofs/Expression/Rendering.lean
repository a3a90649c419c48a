import AccessControl.Expression

/-!
# The language of policy expressions

The grammar of expressions is stated here as relations between texts and trees, without reference to
how texts are read. A reference is a bare or a quoted name behind `data`, an atom is a reference or
an expression in parentheses, and clauses and expressions are chains of atoms and of clauses. The
grammar itself does not bound how deep groups nest; the depth of a tree is counted apart from it.
-/

namespace AccessControl

namespace Atom

mutual

/-- How deep groups nest in an atom. -/
def depth : Atom → Nat
  | .reference _ => 0
  | .group clauses => clausesDepth clauses + 1

/-- How deep groups nest in a clause. -/
def clauseDepth : List Atom → Nat
  | [] => 0
  | atom :: rest => max (depth atom) (clauseDepth rest)

/-- How deep groups nest in a list of clauses. -/
def clausesDepth : List (List Atom) → Nat
  | [] => 0
  | clause :: rest => max (clauseDepth clause) (clausesDepth rest)

end

/-- A clause nests no deeper than a bound if none of its atoms does. -/
theorem clauseDepth_le_iff {clause : List Atom} {bound : Nat} :
    clauseDepth clause ≤ bound ↔ ∀ atom ∈ clause, depth atom ≤ bound := by
  induction clause with
  | nil => simp [clauseDepth]
  | cons atom rest ih => simp only [clauseDepth, Nat.max_le, ih, List.forall_mem_cons]

/-- A list of clauses nests no deeper than a bound if none of their atoms does. -/
theorem clausesDepth_le_iff {clauses : List (List Atom)} {bound : Nat} :
    clausesDepth clauses ≤ bound ↔ ∀ clause ∈ clauses, ∀ atom ∈ clause, depth atom ≤ bound := by
  induction clauses with
  | nil => simp [clausesDepth]
  | cons clause rest ih =>
    simp only [clausesDepth, Nat.max_le, ih, clauseDepth_le_iff, List.forall_mem_cons]

end Atom

/-- How deep groups nest in an expression. -/
def Disjunction.depth (tree : Disjunction) : Nat := Atom.clausesDepth tree

namespace Expression

/-- A text of blanks alone. -/
def Blank (text : List Char) : Prop := ∀ c ∈ text, Text.isBlank c = true

/-- A name that can stand behind `data.` as it is. -/
def IsBareName (name : List Char) : Prop := name ≠ [] ∧ ∀ c ∈ name, isBare c = true

/-- The two quotes that names can stand in. -/
inductive QuoteMark where
  /-- The single quote. -/
  | single
  /-- The double quote. -/
  | double
  deriving DecidableEq

/-- The character of a quote. -/
def QuoteMark.char : QuoteMark → Char
  | .single => '\''
  | .double => '"'

/-- The texts of references, from `data` on. -/
inductive ReferenceText : List Char → String → Prop where
  /-- A bare name behind a point. -/
  | bare {name : List Char} : IsBareName name →
    ReferenceText ('d' :: 'a' :: 't' :: 'a' :: '.' :: name) (String.ofList name)
  /-- A quoted name in brackets, which holds anything but its own quote. -/
  | quoted (mark : QuoteMark) {before name behind : List Char} : Blank before →
    mark.char ∉ name → Blank behind →
    ReferenceText ('d' :: 'a' :: 't' :: 'a' :: '[' ::
        (before ++ mark.char :: (name ++ mark.char :: (behind ++ [']']))))
      (String.ofList name)

/-- The texts of items of a language with a connective between them, and the items in order. -/
inductive Chained {α : Type} (connective : Connective) (item : List Char → α → Prop) :
    List Char → List α → Prop where
  /-- One item alone. -/
  | single {text : List Char} {value : α} : item text value →
    Chained connective item text [value]
  /-- One item, the connective and further items. -/
  | more {text blanks rest : List Char} {value : α} {values : List α} : item text value →
    Blank blanks → Chained connective item rest values →
    Chained connective item (text ++ (blanks ++ (connective.spelling ++ rest))) (value :: values)

/-- The texts of atoms, with the blanks before them. -/
inductive AtomText : List Char → Atom → Prop where
  /-- A reference. -/
  | reference {blanks text : List Char} {name : String} : Blank blanks →
    ReferenceText text name → AtomText (blanks ++ text) (.reference name)
  /-- An expression in parentheses. -/
  | group {blanks inner behind : List Char} {clauses : List (List Atom)} : Blank blanks →
    Chained .or (Chained .and AtomText) inner clauses → Blank behind →
    AtomText (blanks ++ '(' :: (inner ++ (behind ++ [')']))) (.group clauses)

/-- The texts of expressions up to their last atom. -/
abbrev ClausesText : List Char → Disjunction → Prop := Chained .or (Chained .and AtomText)

/-- Whether a whole text spells a tree: a chain of clauses with blanks behind it. -/
def Spells (text : List Char) (tree : Disjunction) : Prop :=
  ∃ body blanks, text = body ++ blanks ∧ ClausesText body tree ∧ Blank blanks

section Chains

variable {α : Type} {connective : Connective} {item other : List Char → α → Prop}
  {text : List Char} {values : List α}

/-- A chain of a language is one of every wider language. -/
theorem Chained.imp (himp : ∀ text value, item text value → other text value)
    (h : Chained connective item text values) : Chained connective other text values := by
  induction h with
  | single hitem => exact .single (himp _ _ hitem)
  | more hitem hblank _ ih => exact .more (himp _ _ hitem) hblank ih

/-- What holds of every item of a language holds of the items of a chain. -/
theorem Chained.forall_mem {P : α → Prop} (himp : ∀ text value, item text value → P value)
    (h : Chained connective item text values) : ∀ value ∈ values, P value := by
  induction h with
  | single hitem => exact List.forall_mem_singleton.mpr (himp _ _ hitem)
  | more hitem _ _ ih => exact List.forall_mem_cons.mpr ⟨himp _ _ hitem, ih⟩

/-- The items of a chain can be narrowed down to what holds of all of them. -/
theorem Chained.restrict {P : α → Prop} (h : Chained connective item text values)
    (hP : ∀ value ∈ values, P value) :
    Chained connective (fun text value => item text value ∧ P value) text values := by
  induction h with
  | single hitem => exact .single ⟨hitem, hP _ List.mem_cons_self⟩
  | more hitem hblank _ ih =>
    exact .more ⟨hitem, hP _ List.mem_cons_self⟩ hblank
      (ih (fun value hvalue => hP value (List.mem_cons_of_mem _ hvalue)))

/-- A chain begins with the text of its first item. -/
theorem Chained.exists_first (h : Chained connective item text values) :
    ∃ first value rest, text = first ++ rest ∧ item first value := by
  cases h with
  | single hitem => exact ⟨text, _, [], (List.append_nil text).symm, hitem⟩
  | more hitem _ _ => exact ⟨_, _, _, rfl, hitem⟩

/-- Two chains with the connective between them are one chain. -/
theorem Chained.append {blanks rest : List Char} {others : List α}
    (hleft : Chained connective item text values) (hblank : Blank blanks)
    (hright : Chained connective item rest others) :
    Chained connective item (text ++ (blanks ++ (connective.spelling ++ rest)))
      (values ++ others) := by
  induction hleft with
  | single hitem => exact .more hitem hblank hright
  | more hitem hfirst _ ih =>
    simp only [List.append_assoc, List.cons_append]
    exact .more hitem hfirst ih

/-- No chain is empty. -/
theorem Chained.ne_nil (h : Chained connective item text values) : values ≠ [] := by
  cases h <;> exact List.cons_ne_nil _ _

end Chains

/-- Induction over the texts of atoms: what holds of references, and of a group as soon as it holds
of all atoms of the group, holds of every atom. -/
theorem AtomText.induct {motive : (text : List Char) → (atom : Atom) → AtomText text atom → Prop}
    (reference : ∀ {blanks text : List Char} {name : String} (hblank : Blank blanks)
      (href : ReferenceText text name), motive _ _ (.reference hblank href))
    (group : ∀ {blanks inner behind : List Char} {clauses : List (List Atom)}
      (hblank : Blank blanks)
      (hinner : Chained .or (Chained .and (fun text atom => ∃ h, motive text atom h)) inner clauses)
      (hbehind : Blank behind),
      motive _ _ (.group hblank
        (hinner.imp (fun _ _ hclause => hclause.imp (fun _ _ ⟨hatom, _⟩ => hatom))) hbehind))
    {text : List Char} {atom : Atom} (h : AtomText text atom) : motive text atom h := by
  refine @AtomText.rec motive
    (fun text clauses _ =>
      Chained .or (Chained .and (fun text atom => ∃ h, motive text atom h)) text clauses)
    (fun text clause _ => Chained .and (fun text atom => ∃ h, motive text atom h) text clause)
    ?reference ?group ?oneClause ?moreClauses ?oneAtom ?moreAtoms text atom h
  case reference => exact fun hblank href => reference hblank href
  case group => exact fun hblank _ hbehind ih => group hblank ih hbehind
  case oneClause => exact fun _ ih => .single ih
  case moreClauses => exact fun _ hblank _ ih ihrest => .more ih hblank ihrest
  case oneAtom => exact fun hatom ih => .single ⟨hatom, ih⟩
  case moreAtoms => exact fun hatom hblank _ ih ihrest => .more ⟨hatom, ih⟩ hblank ihrest

/-- The text of a reference begins with a letter. -/
theorem ReferenceText.exists_cons {text : List Char} {name : String} (h : ReferenceText text name) :
    ∃ rest, text = 'd' :: rest := by
  cases h <;> exact ⟨_, rfl⟩

/-- Behind its blanks, the text of an atom begins with a letter or a parenthesis. -/
theorem AtomText.exists_head {text : List Char} {atom : Atom} (h : AtomText text atom) :
    ∃ blanks c rest, Blank blanks ∧ text = blanks ++ c :: rest ∧ (c = 'd' ∨ c = '(') := by
  cases h with
  | reference hblank href =>
    obtain ⟨rest, rfl⟩ := href.exists_cons
    exact ⟨_, 'd', rest, hblank, rfl, Or.inl rfl⟩
  | group hblank _ _ => exact ⟨_, '(', _, hblank, rfl, Or.inr rfl⟩

end Expression

end AccessControl
