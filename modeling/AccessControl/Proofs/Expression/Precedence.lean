import AccessControl.Proofs.Expression.Completeness

/-!
# The meaning of expressions

Beside their trees, expressions have a meaning as boolean formulas in two connectives, of which
`&&` binds tighter than `||`, and parentheses bind tightest. How a text is written as a formula is
stated level by level, from the right end of the text, and does not mention trees. The readers
accept just the texts of the grammar whose groups keep to the limit, and what they accept has the
truth value of the formula.
-/

namespace AccessControl.Expression

/-- A boolean formula over the results of target policies. -/
inductive Formula where
  /-- The result of a target policy. -/
  | result (name : String)
  /-- Two formulas with a connective between them. -/
  | joined (connective : Connective) (left right : Formula)

/-- The truth value of a formula. A name without a result is false. -/
def Formula.value (results : NameMap Bool) : Formula → Bool
  | .result name => results.get? name == some true
  | .joined connective left right => connective.join (left.value results) (right.value results)

/-- The levels of precedence, from the tightest to the loosest. -/
inductive Precedence where
  /-- References and expressions in parentheses. -/
  | atom
  /-- What `&&` binds together. -/
  | conjunction
  /-- What `||` binds together. -/
  | disjunction

/-- How a text is written as a formula on a level of precedence. -/
inductive Formula.Written : Precedence → List Char → Formula → Prop where
  /-- A reference is the result of its name. -/
  | reference {blanks text : List Char} {name : String} : Blank blanks →
    ReferenceText text name → Written .atom (blanks ++ text) (.result name)
  /-- Parentheses make an atom of any formula. -/
  | group {blanks inner behind : List Char} {formula : Formula} : Blank blanks →
    Written .disjunction inner formula → Blank behind →
    Written .atom (blanks ++ '(' :: (inner ++ (behind ++ [')']))) formula
  /-- An atom alone is a conjunction. -/
  | ofAtom {text : List Char} {formula : Formula} : Written .atom text formula →
    Written .conjunction text formula
  /-- A conjunction goes on with one atom more. -/
  | and {text blanks rest : List Char} {left right : Formula} : Written .conjunction text left →
    Blank blanks → Written .atom rest right →
    Written .conjunction (text ++ (blanks ++ (Connective.and.spelling ++ rest)))
      (.joined .and left right)
  /-- A conjunction alone is a disjunction. -/
  | ofConjunction {text : List Char} {formula : Formula} : Written .conjunction text formula →
    Written .disjunction text formula
  /-- A disjunction goes on with one conjunction more. -/
  | or {text blanks rest : List Char} {left right : Formula} : Written .disjunction text left →
    Blank blanks → Written .conjunction rest right →
    Written .disjunction (text ++ (blanks ++ (Connective.or.spelling ++ rest)))
      (.joined .or left right)

/-- Whether a whole text is written as a formula, with blanks behind it. -/
def Formula.WrittenAs (formula : Formula) (text : List Char) : Prop :=
  ∃ body blanks, text = body ++ blanks ∧ Written .disjunction body formula ∧ Blank blanks

/-- A clause holds if both of its parts do. -/
theorem allHold_append (results : NameMap Bool) (left right : List Atom) :
    Atom.allHold results (left ++ right) =
      (Atom.allHold results left && Atom.allHold results right) := by
  induction left with
  | nil => rfl
  | cons atom rest ih => simp only [List.cons_append, Atom.allHold, ih, Bool.and_assoc]

/-- A disjunction holds if one of its parts does. -/
theorem anyHolds_append (results : NameMap Bool) (left right : List (List Atom)) :
    Atom.anyHolds results (left ++ right) =
      (Atom.anyHolds results left || Atom.anyHolds results right) := by
  induction left with
  | nil => rfl
  | cons clause rest ih => simp only [List.cons_append, Atom.anyHolds, ih, Bool.or_assoc]

/-- The text stands for an atom, a clause or a tree, as the level says, with the truth value of the
formula. -/
def Precedence.Agrees (text : List Char) (formula : Formula) : Precedence → Prop
  | .atom => ∃ found, AtomText text found ∧
      ∀ results, found.holds results = formula.value results
  | .conjunction => ∃ clause, Chained .and AtomText text clause ∧
      ∀ results, Atom.allHold results clause = formula.value results
  | .disjunction => ∃ tree, ClausesText text tree ∧
      ∀ results, tree.holds results = formula.value results

/-- Every text that is written as a formula stands for a tree with its truth value. -/
theorem Formula.Written.agrees {level : Precedence} {text : List Char} {formula : Formula}
    (h : Written level text formula) : level.Agrees text formula := by
  induction h with
  | @reference blanks text name hblank href =>
    refine ⟨.reference name, .reference hblank href, fun results => ?_⟩
    rw [Atom.holds, Formula.value]
    cases results.get? name with
    | none => rfl
    | some result => cases result <;> rfl
  | group hblank _ hbehind ih =>
    obtain ⟨tree, htree, hvalue⟩ := ih
    exact ⟨.group tree, .group hblank htree hbehind, hvalue⟩
  | ofAtom _ ih =>
    obtain ⟨found, hfound, hvalue⟩ := ih
    refine ⟨[found], .single hfound, fun results => ?_⟩
    rw [Atom.allHold, Atom.allHold, Bool.and_true, hvalue]
  | and _ hblank _ ihleft ihright =>
    obtain ⟨clause, hclause, hleft⟩ := ihleft
    obtain ⟨found, hfound, hright⟩ := ihright
    refine ⟨clause ++ [found], hclause.append hblank (.single hfound), fun results => ?_⟩
    rw [allHold_append, Atom.allHold, Atom.allHold, Bool.and_true, hleft, hright]
    rfl
  | ofConjunction _ ih =>
    obtain ⟨clause, hclause, hvalue⟩ := ih
    refine ⟨[clause], .single hclause, fun results => ?_⟩
    rw [Disjunction.holds, Atom.anyHolds, Atom.anyHolds, Bool.or_false, hvalue]
  | or _ hblank _ ihleft ihright =>
    obtain ⟨tree, htree, hleft⟩ := ihleft
    obtain ⟨clause, hclause, hright⟩ := ihright
    refine ⟨tree ++ [clause], htree.append hblank (.single hclause), fun results => ?_⟩
    rw [Disjunction.holds, anyHolds_append, Atom.anyHolds, Atom.anyHolds, Bool.or_false, hright]
    exact congrArg (· || _) (hleft results)

/-- A level of precedence rests on a tighter one, whose formulas its connective binds from the
left. -/
structure Precedence.Rests (connective : Connective) (tight loose : Precedence) : Prop where
  /-- A formula of the tighter level is one of the looser level. -/
  lift : ∀ {text : List Char} {formula : Formula}, Formula.Written tight text formula →
    Formula.Written loose text formula
  /-- A formula of the looser level goes on with one of the tighter level. -/
  join : ∀ {text blanks rest : List Char} {left right : Formula},
    Formula.Written loose text left → Blank blanks → Formula.Written tight rest right →
    Formula.Written loose (text ++ (blanks ++ (connective.spelling ++ rest)))
      (.joined connective left right)

/-- Conjunctions rest on atoms. -/
theorem conjunction_rests : Precedence.Rests .and .atom .conjunction := ⟨.ofAtom, .and⟩

/-- Disjunctions rest on conjunctions. -/
theorem disjunction_rests : Precedence.Rests .or .conjunction .disjunction := ⟨.ofConjunction, .or⟩

section Chains

variable {α : Type} {connective : Connective} {tight loose : Precedence}
  {text rest : List Char} {values : List α}

/-- A chain that goes on behind a formula is read from the left into one formula. -/
theorem exists_written_behind (hrests : Precedence.Rests connective tight loose)
    (h : Chained connective (fun text _ => ∃ formula, Formula.Written tight text formula)
      rest values) {blanks : List Char} {left : Formula}
    (hleft : Formula.Written loose text left) (hblank : Blank blanks) :
    ∃ formula, Formula.Written loose (text ++ (blanks ++ (connective.spelling ++ rest)))
      formula := by
  induction h generalizing text blanks left with
  | single hitem =>
    obtain ⟨right, hright⟩ := hitem
    exact ⟨_, hrests.join hleft hblank hright⟩
  | more hitem hbetween _ ih =>
    obtain ⟨right, hright⟩ := hitem
    have hmore := ih (hrests.join hleft hblank hright) hbetween
    simpa only [List.append_assoc] using hmore

/-- A chain is read from the left into one formula. -/
theorem exists_written (hrests : Precedence.Rests connective tight loose)
    (h : Chained connective (fun text _ => ∃ formula, Formula.Written tight text formula)
      text values) : ∃ formula, Formula.Written loose text formula := by
  cases h with
  | single hitem =>
    obtain ⟨formula, hformula⟩ := hitem
    exact ⟨formula, hrests.lift hformula⟩
  | more hitem hblank hrest =>
    obtain ⟨formula, hformula⟩ := hitem
    exact exists_written_behind hrests hrest (hrests.lift hformula) hblank

end Chains

/-- The clauses of an expression are written as a formula if the atoms are. -/
theorem exists_written_clauses {text : List Char} {tree : Disjunction}
    (h : Chained .or (Chained .and (fun text _ => ∃ formula, Formula.Written .atom text formula))
      text tree) : ∃ formula, Formula.Written .disjunction text formula :=
  exists_written disjunction_rests
    (h.imp (fun _ _ hclause => exists_written conjunction_rests hclause))

/-- Every atom is written as a formula. -/
theorem AtomText.exists_written {text : List Char} {found : Atom} (h : AtomText text found) :
    ∃ formula, Formula.Written .atom text formula := by
  induction h using AtomText.induct with
  | reference hblank href => exact ⟨_, .reference hblank href⟩
  | group hblank hinner hbehind =>
    obtain ⟨formula, hformula⟩ := exists_written_clauses
      (hinner.imp (fun _ _ hclause => hclause.imp (fun _ _ ⟨_, hatom⟩ => hatom)))
    exact ⟨formula, .group hblank hformula hbehind⟩

/-- Every text that spells a tree is written as a formula. -/
theorem Spells.exists_writtenAs {text : List Char} {tree : Disjunction} (h : Spells text tree) :
    ∃ formula : Formula, formula.WrittenAs text := by
  obtain ⟨body, blanks, rfl, hbody, hblank⟩ := h
  obtain ⟨formula, hformula⟩ := exists_written_clauses
    (hbody.imp (fun _ _ hclause => hclause.imp (fun _ _ hatom => hatom.exists_written)))
  exact ⟨formula, body, blanks, rfl, hformula, hblank⟩

/-- The tree that is read has the truth value of every formula that the text is written as. -/
theorem holds_eq_value {text : List Char} {tree : Disjunction} {formula : Formula}
    (htree : treeOf text = .ok tree) (h : formula.WrittenAs text) (results : NameMap Bool) :
    tree.holds results = formula.value results := by
  obtain ⟨body, blanks, rfl, hbody, hblank⟩ := h
  obtain ⟨other, hother, hvalue⟩ := hbody.agrees
  have hread := treeOf_complete ⟨body, blanks, rfl, hother, hblank⟩
  rw [htree] at hread
  rcases Nat.lt_or_ge groupLimit other.depth with hdeep | hfits
  · cases hread.2 hdeep
  · cases hread.1 hfits
    exact hvalue results

/-- The texts that are read as a tree are the renderings of this tree with groups nested at most 64
deep, deeper renderings are refused for their depth, and the value of what is read is that of the
formula that the text is written as, for any results. -/
theorem parse_exact (text : String) :
    (∀ tree, (parse text).tree = .ok tree ↔ Spells text.toList tree ∧ tree.depth ≤ 64) ∧
      (∀ tree, Spells text.toList tree → 64 < tree.depth →
        (parse text).tree = .error (.tooDeep 64)) ∧
      ∀ tree, (parse text).tree = .ok tree →
        (∃ formula : Formula, formula.WrittenAs text.toList) ∧
          ∀ (formula : Formula) (results : NameMap Bool), formula.WrittenAs text.toList →
            (parse text).evaluate results = .ok (formula.value results) := by
  refine ⟨fun tree => treeOf_eq_ok_iff, fun tree h => (treeOf_complete h).2, fun tree htree => ?_⟩
  refine ⟨(treeOf_sound htree).1.exists_writtenAs, fun formula results hformula => ?_⟩
  rw [evaluate, htree, ← holds_eq_value htree hformula results]
  rfl

/-- A text with both connectives, a group and a quoted name. -/
theorem parse_exact_mixed :
    Spells "data.a || (data.b)&&data[ 'c d' ] ".toList
        [[.reference "a"], [.group [[.reference "b"]], .reference "c d"]] ∧
      ∃ formula : Formula, formula.WrittenAs "data.a || (data.b)&&data[ 'c d' ] ".toList ∧
        (parse "data.a || (data.b)&&data[ 'c d' ] ").evaluate (NameMap.ofList [("a", true)]) =
          .ok (formula.value (NameMap.ofList [("a", true)])) := by
  have htree : (parse "data.a || (data.b)&&data[ 'c d' ] ").tree =
      .ok [[.reference "a"], [.group [[.reference "b"]], .reference "c d"]] := by
    decide +kernel
  obtain ⟨hspells, -, hvalue⟩ := parse_exact "data.a || (data.b)&&data[ 'c d' ] "
  obtain ⟨⟨formula, hformula⟩, hevaluate⟩ := hvalue _ htree
  exact ⟨((hspells _).mp htree).1, formula, hformula, hevaluate formula _ hformula⟩

end AccessControl.Expression
