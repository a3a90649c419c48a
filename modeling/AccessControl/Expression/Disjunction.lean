import AccessControl.NameMap

/-!
# Trees of policy expressions

Policies and their expressions are joined by two connectives; inside a rule these are refused. An
expression is an alternative of clauses, a clause a conjunction of atoms, and an atom a reference to
a target policy or a group in parentheses. Two expressions are joined at their seam: by `or` the
clauses of both stand side by side, and by `and` the last clause of the left one and the first
clause of the right one become one clause, as they do where the texts are written one behind the
other.
-/

namespace AccessControl

/-- A boolean connective. -/
inductive Connective where
  /-- Both sides. -/
  | and
  /-- At least one side. -/
  | or
  deriving DecidableEq, Repr

namespace Connective

/-- The characters of a connective. -/
def spelling : Connective → List Char
  | .and => ['&', '&']
  | .or => ['|', '|']

/-- The text of a connective. -/
def symbol (connective : Connective) : String := String.ofList connective.spelling

/-- The truth value of two joined ones. -/
def join : Connective → Bool → Bool → Bool
  | .and, left, right => left && right
  | .or, left, right => left || right

end Connective

/-- The smallest part of an expression that has a truth value. -/
inductive Atom where
  /-- The result of a target policy, by name. -/
  | reference (name : String)
  /-- An expression in parentheses: its clauses. -/
  | group (clauses : List (List Atom))

/-- An expression as its clauses, of which one has to hold; a clause is a list of atoms, which all
have to hold. -/
abbrev Disjunction := List (List Atom)

namespace Atom

mutual

/-- Whether two atoms are equal. -/
def decEq : (left right : Atom) → Decidable (left = right)
  | .reference left, .reference right =>
    if h : left = right then isTrue (h ▸ rfl) else isFalse (fun heq => h (by injection heq))
  | .group left, .group right =>
    match decEqClauses left right with
    | isTrue h => isTrue (h ▸ rfl)
    | isFalse h => isFalse (fun heq => h (by injection heq))
  | .reference _, .group _ | .group _, .reference _ => isFalse (fun heq => by cases heq)

/-- Whether two clauses are equal. -/
def decEqAtoms : (left right : List Atom) → Decidable (left = right)
  | [], [] => isTrue rfl
  | a :: as, b :: bs =>
    match decEq a b, decEqAtoms as bs with
    | isTrue h, isTrue hs => isTrue (by rw [h, hs])
    | isFalse h, _ => isFalse (fun heq => h (by injection heq))
    | _, isFalse hs => isFalse (fun heq => hs (by injection heq))
  | [], _ :: _ | _ :: _, [] => isFalse (fun heq => by cases heq)

/-- Whether two lists of clauses are equal. -/
def decEqClauses : (left right : List (List Atom)) → Decidable (left = right)
  | [], [] => isTrue rfl
  | a :: as, b :: bs =>
    match decEqAtoms a b, decEqClauses as bs with
    | isTrue h, isTrue hs => isTrue (by rw [h, hs])
    | isFalse h, _ => isFalse (fun heq => h (by injection heq))
    | _, isFalse hs => isFalse (fun heq => hs (by injection heq))
  | [], _ :: _ | _ :: _, [] => isFalse (fun heq => by cases heq)

end

instance : DecidableEq Atom := decEq

mutual

/-- The truth value of an atom, given those of the target policies. A name without one is false. -/
def holds (results : NameMap Bool) : Atom → Bool
  | .reference name => (results.get? name).getD false
  | .group clauses => anyHolds results clauses

/-- Whether every atom of a clause holds. -/
def allHold (results : NameMap Bool) : List Atom → Bool
  | [] => true
  | atom :: rest => holds results atom && allHold results rest

/-- Whether some clause holds. -/
def anyHolds (results : NameMap Bool) : List (List Atom) → Bool
  | [] => false
  | clause :: rest => allHold results clause || anyHolds results rest

end

mutual

/-- The names that an atom refers to, in the order of the text. -/
def names : Atom → List String
  | .reference name => [name]
  | .group clauses => clausesNames clauses

/-- The names that a clause refers to. -/
def clauseNames : List Atom → List String
  | [] => []
  | atom :: rest => names atom ++ clauseNames rest

/-- The names that a list of clauses refers to. -/
def clausesNames : List (List Atom) → List String
  | [] => []
  | clause :: rest => clauseNames clause ++ clausesNames rest

end

/-- A clause holds where each of its atoms does. -/
theorem allHold_eq_all (results : NameMap Bool) (clause : List Atom) :
    allHold results clause = clause.all (holds results) := by
  induction clause with
  | nil => rfl
  | cons atom rest ih => rw [allHold, List.all_cons, ih]

/-- A list of clauses holds where one of them does. -/
theorem anyHolds_eq_any (results : NameMap Bool) (clauses : List (List Atom)) :
    anyHolds results clauses = clauses.any (allHold results) := by
  induction clauses with
  | nil => rfl
  | cons clause rest ih => rw [anyHolds, List.any_cons, ih]

/-- A clause refers to the names that its atoms refer to. -/
theorem clauseNames_eq_flatMap (clause : List Atom) :
    clauseNames clause = clause.flatMap names := by
  induction clause with
  | nil => rfl
  | cons atom rest ih => rw [clauseNames, List.flatMap_cons, ih]

/-- A list of clauses refers to the names that the atoms of its clauses refer to. -/
theorem clausesNames_eq_flatMap (clauses : List (List Atom)) :
    clausesNames clauses = clauses.flatten.flatMap names := by
  induction clauses with
  | nil => rfl
  | cons clause rest ih =>
    rw [clausesNames, List.flatten_cons, List.flatMap_append, clauseNames_eq_flatMap, ih]

end Atom

namespace Disjunction

/-- The truth value of an expression, given those of the target policies. -/
def holds (tree : Disjunction) (results : NameMap Bool) : Bool := Atom.anyHolds results tree

/-- The names that an expression refers to, in the order of the text. -/
def names (tree : Disjunction) : List String := Atom.clausesNames tree

/-- The clauses of two expressions where the last clause of the left one goes on with the first
clause of the right one, which is dropped if the left one has no clause. -/
def seam : Disjunction → Disjunction → Disjunction
  | [], right => right.tail
  | left, [] => left
  | [last], first :: rest => (last ++ first) :: rest
  | clause :: left, right => clause :: seam left right

/-- Two expressions joined by a connective. -/
def join (connective : Connective) (left right : Disjunction) : Disjunction :=
  match connective with
  | .or => left ++ right
  | .and => seam left right

end Disjunction

end AccessControl
