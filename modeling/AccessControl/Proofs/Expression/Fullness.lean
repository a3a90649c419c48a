import AccessControl.Proofs.Expression.Agreement

/-!
# No expression is empty

A clause without atoms holds whatever the results are, and an expression without clauses takes a
clause away from what it is joined with. Neither can come about: whatever is read has a clause and
in each clause an atom, in its groups too, and joining keeps this. So there are always two clauses
at the seam, and an expression holds neither without a true result nor fails where all results that
it refers to are true.
-/

namespace AccessControl

namespace Atom

variable {results : NameMap Bool}

/-- Whether every group in an atom has a clause, and every clause in it an atom. -/
inductive Full : Atom → Prop where
  /-- A reference. -/
  | reference (name : String) : Full (.reference name)
  /-- A group of clauses. -/
  | group {clauses : List (List Atom)} : clauses ≠ [] → (∀ clause ∈ clauses, clause ≠ []) →
    (∀ clause ∈ clauses, ∀ atom ∈ clause, Full atom) → Full (.group clauses)

/-- A group refers to the names that its atoms refer to. -/
theorem mem_names_group {clauses : List (List Atom)} {clause : List Atom} {atom : Atom}
    {name : String} (hclause : clause ∈ clauses) (hatom : atom ∈ clause)
    (hname : name ∈ names atom) : name ∈ names (.group clauses) := by
  rw [names, clausesNames_eq_flatMap]
  exact List.mem_flatMap.mpr ⟨atom, List.mem_flatten_of_mem hclause hatom, hname⟩

/-- A full atom does not hold where no result is true that it refers to. -/
theorem Full.holds_eq_false {atom : Atom} (h : atom.Full)
    (hresults : ∀ name ∈ names atom, results.get? name ≠ some true) :
    holds results atom = false := by
  induction h with
  | reference name =>
    have hname : results.get? name ≠ some true := hresults name (List.mem_singleton.mpr rfl)
    rw [holds]
    cases hresult : results.get? name with
    | none => rfl
    | some value =>
      rw [hresult] at hname
      exact Bool.eq_false_iff.mpr (fun hvalue => hname (congrArg some hvalue))
  | @group clauses hne hclauses _ ih =>
    rw [holds, anyHolds_eq_any, List.any_eq_false]
    intro clause hclause hholds
    obtain ⟨atom, hatom⟩ := List.exists_mem_of_ne_nil clause (hclauses clause hclause)
    have hfalse : holds results atom = false := ih clause hclause atom hatom
      (fun name hname => hresults name (mem_names_group hclause hatom hname))
    rw [allHold_eq_all, List.all_eq_true] at hholds
    rw [hholds atom hatom] at hfalse
    cases hfalse

/-- A full atom holds where all results are true that it refers to. -/
theorem Full.holds_eq_true {atom : Atom} (h : atom.Full)
    (hresults : ∀ name ∈ names atom, results.get? name = some true) :
    holds results atom = true := by
  induction h with
  | reference name =>
    rw [holds, hresults name (List.mem_singleton.mpr rfl), Option.getD_some]
  | @group clauses hne hclauses _ ih =>
    rw [holds, anyHolds_eq_any, List.any_eq_true]
    obtain ⟨clause, hclause⟩ := List.exists_mem_of_ne_nil clauses hne
    refine ⟨clause, hclause, ?_⟩
    rw [allHold_eq_all, List.all_eq_true]
    exact fun atom hatom => ih clause hclause atom hatom
      (fun name hname => hresults name (mem_names_group hclause hatom hname))

end Atom

namespace Disjunction

/-- Whether an expression and every group in it has a clause, and every clause an atom. -/
structure Full (tree : Disjunction) : Prop where
  /-- There is a clause. -/
  ne_nil : tree ≠ []
  /-- There is an atom in every clause. -/
  clause_ne_nil : ∀ clause ∈ tree, clause ≠ []
  /-- The groups are full. -/
  atoms : ∀ clause ∈ tree, ∀ atom ∈ clause, atom.Full

/-- A full expression in parentheses is a full atom. -/
theorem Full.group {tree : Disjunction} (h : tree.Full) : (Atom.group tree).Full :=
  .group h.ne_nil h.clause_ne_nil h.atoms

/-- A single clause is a full expression if it has an atom and its groups are full. -/
theorem full_singleton {clause : List Atom} (hne : clause ≠ []) (h : ∀ atom ∈ clause, atom.Full) :
    Full [clause] where
  ne_nil := List.cons_ne_nil _ _
  clause_ne_nil := List.forall_mem_singleton.mpr hne
  atoms := List.forall_mem_singleton.mpr h

/-- Clauses side by side are a full expression if both parts are. -/
theorem Full.append {left right : Disjunction} (hleft : left.Full) (hright : right.Full) :
    Full (left ++ right) where
  ne_nil := List.append_ne_nil_of_left_ne_nil hleft.ne_nil right
  clause_ne_nil := List.forall_mem_append.mpr ⟨hleft.clause_ne_nil, hright.clause_ne_nil⟩
  atoms := List.forall_mem_append.mpr ⟨hleft.atoms, hright.atoms⟩

/-- Expressions with a clause have one at the seam on either side, and `and` makes one of both. -/
theorem exists_seam {left right : Disjunction} (hleft : left ≠ []) (hright : right ≠ []) :
    ∃ front last first back, left = front ++ [last] ∧ right = first :: back ∧
      join .and left right = front ++ (last ++ first) :: back := by
  obtain ⟨front, last, rfl⟩ := (List.eq_nil_or_concat left).resolve_left hleft
  obtain ⟨first, back, rfl⟩ := List.exists_cons_of_ne_nil hright
  rw [List.concat_eq_append]
  exact ⟨front, last, first, back, rfl, rfl, seam_append front back last first⟩

/-- Joining full expressions gives a full one. -/
theorem Full.join (connective : Connective) {left right : Disjunction} (hleft : left.Full)
    (hright : right.Full) : (join connective left right).Full := by
  cases connective with
  | or => exact hleft.append hright
  | and =>
    obtain ⟨front, last, first, back, rfl, rfl, hjoin⟩ := exists_seam hleft.ne_nil hright.ne_nil
    obtain ⟨hfront, hlast⟩ := List.forall_mem_append.mp hleft.clause_ne_nil
    obtain ⟨hfrontAtoms, hlastAtoms⟩ := List.forall_mem_append.mp hleft.atoms
    obtain ⟨-, hback⟩ := List.forall_mem_cons.mp hright.clause_ne_nil
    obtain ⟨hfirstAtoms, hbackAtoms⟩ := List.forall_mem_cons.mp hright.atoms
    have hseam : last ++ first ≠ [] :=
      List.append_ne_nil_of_left_ne_nil (hlast last (List.mem_singleton.mpr rfl)) first
    rw [hjoin]
    exact {
      ne_nil := by simp
      clause_ne_nil := List.forall_mem_append.mpr
        ⟨hfront, List.forall_mem_cons.mpr ⟨hseam, hback⟩⟩
      atoms := List.forall_mem_append.mpr ⟨hfrontAtoms, List.forall_mem_cons.mpr
        ⟨List.forall_mem_append.mpr ⟨List.forall_mem_singleton.mp hlastAtoms, hfirstAtoms⟩,
          hbackAtoms⟩⟩ }

end Disjunction

namespace Expression

/-- The expressions that are built from any texts and any references by joining. -/
inductive Built : Expression → Prop where
  /-- The expression of a text. -/
  | parse (text : String) : Built (.parse text)
  /-- A reference to any name. -/
  | referTo (name : String) : Built (.referTo name)
  /-- Two expressions that were built, joined. -/
  | concat {left right : Expression} (connective : Connective) : Built left → Built right →
    Built (left.concat connective right)

/-- A chain of chains of full atoms is a full expression. -/
theorem full_of_chained {text : List Char} {tree : Disjunction}
    (h : Chained .or (Chained .and (fun _ atom => atom.Full)) text tree) : tree.Full where
  ne_nil := h.ne_nil
  clause_ne_nil := h.forall_mem (fun _ _ hclause => hclause.ne_nil)
  atoms := h.forall_mem (fun _ _ hclause => hclause.forall_mem (fun _ _ hatom => hatom))

/-- What the text of an atom stands for is full. -/
theorem AtomText.full {text : List Char} {atom : Atom} (h : AtomText text atom) : atom.Full := by
  induction h using AtomText.induct with
  | reference => exact .reference _
  | group _ hinner _ =>
    exact (full_of_chained
      (hinner.imp (fun _ _ hclause => hclause.imp (fun _ _ ⟨_, hatom⟩ => hatom)))).group

/-- What a text spells is full. -/
theorem Spells.full {text : List Char} {tree : Disjunction} (h : Spells text tree) : tree.Full := by
  obtain ⟨_, _, _, hbody, _⟩ := h
  exact full_of_chained (hbody.imp (fun _ _ hclause => hclause.imp (fun _ _ hatom => hatom.full)))

/-- Joining two expressions that can be read joins their trees. -/
theorem tree_concat {left right : Expression} {first second : Disjunction}
    (hfirst : left.tree = .ok first) (hsecond : right.tree = .ok second) (connective : Connective) :
    (left.concat connective right).tree = .ok (first.join connective second) := by
  rw [concat, hfirst, hsecond]

/-- Every expression that was built and can be read is full. -/
theorem Built.full {expression : Expression} (h : expression.Built) {tree : Disjunction}
    (htree : expression.tree = .ok tree) : tree.Full := by
  induction h generalizing tree with
  | parse text => exact (treeOf_sound htree).1.full
  | referTo name =>
    cases htree
    exact Disjunction.full_singleton (List.cons_ne_nil _ _)
      (List.forall_mem_singleton.mpr (.reference name))
  | @concat left right connective _ _ ihleft ihright =>
    rw [Expression.concat] at htree
    split at htree
    case h_1 first second hfirst hsecond =>
      cases htree
      exact (ihleft hfirst).join connective (ihright hsecond)
    case h_2 => exact (treeOf_sound htree).1.full

/-- An expression that was built and can be read has a clause, and every clause an atom, in its
groups too. Joining it by `and` with another one makes one clause of its last one and the first one
of the other, and loses none. It does not hold where no result is true that it refers to, and holds
where all of them are. -/
theorem full_of_built {expression : Expression} (h : expression.Built) {tree : Disjunction}
    (htree : expression.tree = .ok tree) :
    tree.Full ∧
      (∀ (other : Expression) (second : Disjunction), other.Built → other.tree = .ok second →
        ∃ front last first back, tree = front ++ [last] ∧ second = first :: back ∧
          (expression.concat .and other).tree = .ok (front ++ (last ++ first) :: back)) ∧
      (∀ results : NameMap Bool, (∀ name ∈ expression.references, results.get? name ≠ some true) →
        expression.evaluate results = .ok false) ∧
      ∀ results : NameMap Bool, (∀ name ∈ expression.references, results.get? name = some true) →
        expression.evaluate results = .ok true := by
  have hfull : tree.Full := h.full htree
  have hvalue : ∀ results, expression.evaluate results = .ok (tree.holds results) := by
    intro results
    rw [evaluate, htree]
    rfl
  refine ⟨hfull, fun other second hother hsecond => ?_, fun results hresults => ?_,
    fun results hresults => ?_⟩
  · obtain ⟨front, last, first, back, hleft, hright, hjoin⟩ :=
      Disjunction.exists_seam hfull.ne_nil (hother.full hsecond).ne_nil
    exact ⟨front, last, first, back, hleft, hright,
      (tree_concat htree hsecond .and).trans (congrArg Except.ok hjoin)⟩
  · have hfalse : tree.holds results = false := hfull.group.holds_eq_false
      (fun name hname => hresults name ((mem_references_iff htree).mpr hname))
    rw [hvalue, hfalse]
  · have htrue : tree.holds results = true := hfull.group.holds_eq_true
      (fun name hname => hresults name ((mem_references_iff htree).mpr hname))
    rw [hvalue, htrue]

/-- Two halves that complete each other's group, joined by `and` with an expression of two
clauses. -/
theorem full_of_built_halves :
    let expression := (parse "data.x || (data.a").concat .and (parse "data.b)")
    let other := (parse "data.c").concat .or (referTo "d e")
    let tree : Disjunction :=
      [[.reference "x"], [.group [[.reference "a", .reference "b"]]]]
    let second : Disjunction := [[.reference "c"], [.reference "d e"]]
    let joined : Disjunction := [[.reference "x"],
      [.group [[.reference "a", .reference "b"]], .reference "c"], [.reference "d e"]]
    expression.Built ∧ expression.tree = .ok tree ∧ other.Built ∧ other.tree = .ok second ∧
      tree.Full ∧ (expression.concat .and other).tree = .ok joined ∧
      expression.evaluate (.ofList [("a", false), ("c", true)]) = .ok false ∧
      expression.evaluate (.ofList [("a", true), ("b", true), ("x", true)]) = .ok true := by
  intro expression other tree second joined
  have hbuilt : expression.Built := .concat .and (.parse _) (.parse _)
  have hother : other.Built := .concat .or (.parse _) (.referTo _)
  have htree : expression.tree = .ok tree := by decide +kernel
  have hsecond : other.tree = .ok second := by decide +kernel
  obtain ⟨hfull, hseam, hfalse, htrue⟩ := full_of_built hbuilt htree
  obtain ⟨front, last, first, back, hleft, hright, hjoin⟩ := hseam other second hother hsecond
  have hends : tree.take 1 ++ tree.drop 1 = front ++ [last] := hleft
  obtain ⟨rfl, hlast⟩ := List.append_inj' hends rfl
  obtain ⟨rfl, rfl⟩ := List.cons.inj hright
  obtain rfl := List.singleton_inj.mp hlast
  exact ⟨hbuilt, htree, hother, hsecond, hfull, hjoin, hfalse _ (by decide +kernel),
    htrue _ (by decide +kernel)⟩

end Expression

end AccessControl
