import AccessControl.Proofs.Expression.Precedence
import AccessControl.Proofs.Expression.Support
import AccessControl.Proofs.Policy.Decision

/-!
# Decisions of merged policies

A merged policy has the target policies of both sides and the joined expression. Where neither side
declares a name that the other one declares or refers to, each half of the joined expression has the
truth value that it has in its own policy. Alternatives stay side by side, and so a policy that is
merged by `or` grants what either side grants. A policy that is merged by `and` joins only the
clauses at the seam: it grants what both sides grant and nothing that neither grants, but only sides
without alternatives make it grant just what both do.
-/

namespace AccessControl

namespace Disjunction

/-- By `or` either side is enough. -/
theorem holds_join_or (left right : Disjunction) (results : NameMap Bool) :
    (join .or left right).holds results = (left.holds results || right.holds results) :=
  Expression.anyHolds_append results left right

/-- By `and` a clause before the seam is enough, or one behind it, or both at the seam. -/
theorem holds_join_and (front back : Disjunction) (last first : List Atom)
    (results : NameMap Bool) :
    (join .and (front ++ [last]) (first :: back)).holds results =
      (front.holds results ||
        ((Atom.allHold results last && Atom.allHold results first) || back.holds results)) := by
  rw [join, seam_append, holds, Expression.anyHolds_append, Atom.anyHolds,
    Expression.allHold_append]
  rfl

end Disjunction

/-- Whether an expression is a single clause: it can be read and has no `||` at its top. -/
def Expression.IsClause (expression : Expression) : Prop :=
  ∃ clause, expression.tree = .ok [clause]

namespace Policy

/-- A policy does not know the target policies of another one: it declares none of their names and
refers to none. -/
def Ignores (policy other : Policy) : Prop :=
  ∀ name ∈ other.targets.names,
    name ∉ policy.targets.names ∧ name ∉ policy.expression.references

instance (policy other : Policy) : Decidable (policy.Ignores other) :=
  inferInstanceAs (Decidable (∀ name ∈ other.targets.names, _))

/-- Two policies that do not know the target policies of each other. -/
structure Apart (left right : Policy) : Prop where
  /-- The left one does not know those of the right one. -/
  leftIgnores : left.Ignores right
  /-- The right one does not know those of the left one. -/
  rightIgnores : right.Ignores left

variable {left right : Policy}

/-- A merged policy has the results of the right one, and those of the left one under other
names. -/
theorem get?_results_merge (connective : Connective) (attributes : Attributes) (name : String) :
    ((left.merge connective right).results attributes).get? name =
      ((right.results attributes).get? name).or ((left.results attributes).get? name) := by
  simp only [results, merge, NameMap.get?_mapValues, NameMap.get?_union, Option.map_or]

/-- There is no result of another policy under a name that a policy refers to without knowing the
target policies of the other one. -/
theorem Ignores.get?_results {policy other : Policy} (h : policy.Ignores other) {name : String}
    (hname : name ∈ policy.expression.references) (attributes : Attributes) :
    (other.results attributes).get? name = none := by
  have hforeign : other.targets.get? name = none := by
    by_contra hdeclared
    exact (h name (NameMap.mem_names_iff.mpr hdeclared)).2 hname
  rw [results, NameMap.get?_mapValues, hforeign, Option.map_none]

/-- A policy grants where its tree holds over any results that agree with those of its target
policies on the names that it refers to. -/
theorem check_of_agree {policy : Policy} {tree : Disjunction} {attributes : Attributes}
    {results : NameMap Bool} (htree : policy.expression.tree = .ok tree)
    (h : ∀ name ∈ policy.expression.references,
      results.get? name = (policy.results attributes).get? name) :
    policy.check attributes = tree.holds results := by
  rw [check_of_tree htree]
  exact (Atom.anyHolds_congr tree (fun name hname =>
    congrArg (·.getD false) (h name ((Expression.mem_references_iff htree).mpr hname)))).symm

/-- Where two policies do not know the target policies of each other, their trees have over the
merged results the truth values that they have by themselves. -/
theorem Apart.checks (h : left.Apart right) {first second : Disjunction}
    (hfirst : left.expression.tree = .ok first) (hsecond : right.expression.tree = .ok second)
    (connective : Connective) (attributes : Attributes) :
    let merged := left.merge connective right
    left.check attributes = first.holds (merged.results attributes) ∧
      right.check attributes = second.holds (merged.results attributes) ∧
      merged.check attributes =
        (first.join connective second).holds (merged.results attributes) := by
  refine ⟨check_of_agree hfirst (fun name hname => ?_),
    check_of_agree hsecond (fun name hname => ?_), check_of_tree ?_ attributes⟩
  · rw [get?_results_merge, h.leftIgnores.get?_results hname, Option.none_or]
  · rw [get?_results_merge, h.rightIgnores.get?_results hname, Option.or_none]
  · rw [merge, Expression.concat, hfirst, hsecond]

/-- A policy that was built and whose expression can be read has a clause. -/
theorem Built.tree_ne_nil {policy : Policy} (h : policy.Built) {tree : Disjunction}
    (htree : policy.expression.tree = .ok tree) : tree ≠ [] :=
  (Expression.treeOf_sound (h.textAgrees ▸ htree)).1.ne_nil

/-- What policies merged by `and` grant, in terms of the clauses before the seam, at the seam and
behind it. A single clause stands at the seam. -/
theorem Apart.exists_check_and (h : left.Apart right) (hleft : left.Built) (hright : right.Built)
    {first second : Disjunction} (hfirst : left.expression.tree = .ok first)
    (hsecond : right.expression.tree = .ok second) (attributes : Attributes) :
    ∃ before last next behind : Bool, left.check attributes = (before || last) ∧
      right.check attributes = (next || behind) ∧
      (left.merge .and right).check attributes = (before || ((last && next) || behind)) ∧
      (first.length = 1 → before = false) ∧ (second.length = 1 → behind = false) := by
  obtain ⟨front, last, rfl⟩ :=
    (List.eq_nil_or_concat first).resolve_left (hleft.tree_ne_nil hfirst)
  obtain ⟨next, back, rfl⟩ := List.exists_cons_of_ne_nil (hright.tree_ne_nil hsecond)
  obtain ⟨hone, hother, hmerged⟩ := h.checks hfirst hsecond .and attributes
  rw [List.concat_eq_append, Disjunction.holds_join_and] at hmerged
  rw [List.concat_eq_append, Disjunction.holds, Expression.anyHolds_append, Atom.anyHolds,
    Atom.anyHolds, Bool.or_false] at hone
  refine ⟨_, _, _, _, hone, hother, hmerged, fun hlength => ?_, fun hlength => ?_⟩
  · obtain rfl : front = [] := by simpa using hlength
    rfl
  · obtain rfl : back = [] := by simpa using hlength
    rfl

/-- Merging two policies that can be read and do not know the target policies of each other: by `or`
the merged policy grants just what either grants. By `and` it grants what both grant, and nothing
that neither grants; if both expressions are single clauses, without an alternative at their top, it
grants just what both grant. -/
theorem check_merge (hleft : left.Built) (hright : right.Built)
    (hreadLeft : left.expression.malformed = false)
    (hreadRight : right.expression.malformed = false) (h : left.Apart right)
    (attributes : Attributes) :
    (left.merge .or right).check attributes =
        (left.check attributes || right.check attributes) ∧
      ((left.check attributes && right.check attributes) = true →
        (left.merge .and right).check attributes = true) ∧
      ((left.merge .and right).check attributes = true →
        (left.check attributes || right.check attributes) = true) ∧
      (left.expression.IsClause → right.expression.IsClause →
        (left.merge .and right).check attributes =
          (left.check attributes && right.check attributes)) := by
  obtain ⟨first, hfirst⟩ := Expression.malformed_eq_false_iff.mp hreadLeft
  obtain ⟨second, hsecond⟩ := Expression.malformed_eq_false_iff.mp hreadRight
  obtain ⟨before, last, next, behind, hone, hother, hmerged, hbefore, hbehind⟩ :=
    h.exists_check_and hleft hright hfirst hsecond attributes
  refine ⟨?_, ?_, ?_, ?_⟩
  · obtain ⟨hone, hother, hmerged⟩ := h.checks hfirst hsecond .or attributes
    rw [hmerged, Disjunction.holds_join_or, hone, hother]
  · rw [hone, hother, hmerged]
    cases before <;> cases last <;> cases next <;> cases behind <;> decide
  · rw [hone, hother, hmerged]
    cases before <;> cases last <;> cases next <;> cases behind <;> decide
  · rintro ⟨clause, hclause⟩ ⟨other, hclause'⟩
    obtain rfl : [clause] = first := Except.ok.inj (hclause.symm.trans hfirst)
    obtain rfl : [other] = second := Except.ok.inj (hclause'.symm.trans hsecond)
    rw [hone, hother, hmerged, hbefore rfl, hbehind rfl, Bool.false_or, Bool.false_or,
      Bool.or_false, Bool.or_false]

/-- Two policies with alternatives on both sides, of which the outer ones hold and those at the seam
do not, and two policies whose alternatives stand in parentheses. -/
theorem check_merge_outer :
    let grants : TargetSpec := ⟨[], .all, .permit⟩
    let denies : TargetSpec := ⟨["1 == 1"], .any, .deny⟩
    let first := NameMap.ofList [("a", grants), ("b", denies)]
    let second := NameMap.ofList [("c", denies), ("d", grants)]
    let left := group ⟨"data.a || data.b", first⟩ .empty true
    let right := group ⟨"data.c || data['d'] || data.none", second⟩ .empty true
    let leftGroup := group ⟨"(data.a || data.b)", first⟩ .empty true
    let rightGroup := group ⟨"data.c && (data.c || data.d)", second⟩ .empty true
    left.Built ∧ right.Built ∧ left.expression.malformed = false ∧
      right.expression.malformed = false ∧ left.Apart right ∧
      (left.check {} && right.check {}) = true ∧ (left.merge .and right).check {} = true ∧
      leftGroup.expression.IsClause ∧ rightGroup.expression.IsClause ∧
      leftGroup.check {} = true ∧ (leftGroup.merge .and rightGroup).check {} = false := by
  intro grants denies first second left right leftGroup rightGroup
  have hleft : left.Built := .group _ _ _
  have hright : right.Built := .group _ _ _
  have hapart : left.Apart right := ⟨by decide +kernel, by decide +kernel⟩
  have hgroups : leftGroup.Apart rightGroup := ⟨by decide +kernel, by decide +kernel⟩
  have hread : left.expression.malformed = false ∧ right.expression.malformed = false := by
    decide +kernel
  have hboth : (left.check {} && right.check {}) = true := by decide +kernel
  have hleftClause : leftGroup.expression.IsClause :=
    ⟨[.group [[.reference "a"], [.reference "b"]]], by decide +kernel⟩
  have hrightClause : rightGroup.expression.IsClause :=
    ⟨[.reference "c", .group [[.reference "c"], [.reference "d"]]], by decide +kernel⟩
  have hmerged := (check_merge (.group _ _ _) (.group _ _ _)
    (by decide +kernel) (by decide +kernel) hgroups {}).2.2.2 hleftClause hrightClause
  refine ⟨hleft, hright, hread.1, hread.2, hapart, hboth,
    (check_merge hleft hright hread.1 hread.2 hapart {}).2.1 hboth, hleftClause, hrightClause,
    by decide +kernel, hmerged.trans ?_⟩
  decide +kernel

end Policy

end AccessControl
