import AccessControl.Proofs.Expression.Fullness

/-!
# Truth values depend on references alone

The names that an expression refers to are all that its truth value depends on: results under other
names make no difference, and neither does it make one whether a result is false or missing. Every
atom counts, however deep its group and on whichever side of a seam it came to stand, so joining
expressions puts their names together.
-/

namespace AccessControl

namespace Atom

variable {first second : NameMap Bool}

mutual

/-- An atom has the same truth value over results that agree on its names. -/
theorem holds_congr : (atom : Atom) →
    (∀ name ∈ names atom, (first.get? name).getD false = (second.get? name).getD false) →
      holds first atom = holds second atom
  | .reference name, h => h name (List.mem_singleton.mpr rfl)
  | .group clauses, h => anyHolds_congr clauses h

/-- A clause has the same truth value over results that agree on its names. -/
theorem allHold_congr : (clause : List Atom) →
    (∀ name ∈ clauseNames clause, (first.get? name).getD false = (second.get? name).getD false) →
      allHold first clause = allHold second clause
  | [], _ => rfl
  | atom :: rest, h => by
    obtain ⟨hatom, hrest⟩ := List.forall_mem_append.mp h
    rw [allHold, allHold, holds_congr atom hatom, allHold_congr rest hrest]

/-- A list of clauses has the same truth value over results that agree on its names. -/
theorem anyHolds_congr : (clauses : List (List Atom)) →
    (∀ name ∈ clausesNames clauses, (first.get? name).getD false = (second.get? name).getD false) →
      anyHolds first clauses = anyHolds second clauses
  | [], _ => rfl
  | clause :: rest, h => by
    obtain ⟨hclause, hrest⟩ := List.forall_mem_append.mp h
    rw [anyHolds, anyHolds, allHold_congr clause hclause, anyHolds_congr rest hrest]

end

end Atom

/-- Joined expressions refer to the names of both, unless there is no seam on the left. -/
theorem Disjunction.names_join (connective : Connective) {left right : Disjunction}
    (hleft : left ≠ []) : (join connective left right).names = left.names ++ right.names := by
  simp only [names, Atom.clausesNames_eq_flatMap, flatten_join connective hleft,
    List.flatMap_append]

namespace Expression

/-- An expression has the same value over results that agree on the names that it refers to. -/
theorem evaluate_congr {expression : Expression} {first second : NameMap Bool}
    (h : ∀ name ∈ expression.references,
      (first.get? name).getD false = (second.get? name).getD false) :
    expression.evaluate first = expression.evaluate second := by
  rw [evaluate, evaluate]
  cases htree : expression.tree with
  | error cause => rfl
  | ok tree =>
    have hholds : tree.holds first = tree.holds second := Atom.anyHolds_congr tree
      (fun name hname => h name ((mem_references_iff htree).mpr hname))
    rw [Except.map, Except.map, hholds]

/-- Joined expressions refer to the names that one of them refers to, if both can be read. -/
theorem mem_references_concat_iff {left right : Expression} (hleft : left.Built)
    (hreadLeft : left.malformed = false) (hreadRight : right.malformed = false)
    (connective : Connective) (name : String) :
    name ∈ (left.concat connective right).references ↔
      name ∈ left.references ∨ name ∈ right.references := by
  obtain ⟨first, hfirst⟩ := malformed_eq_false_iff.mp hreadLeft
  obtain ⟨second, hsecond⟩ := malformed_eq_false_iff.mp hreadRight
  rw [mem_references_iff (tree_concat hfirst hsecond connective), mem_references_iff hfirst,
    mem_references_iff hsecond, Disjunction.names_join connective (hleft.full hfirst).ne_nil,
    List.mem_append]

end Expression

end AccessControl
