import AccessControl.Expression.Grammar

/-!
# Policy expressions

An expression is kept as its text, word for word, and the tree that the text spells. A text that
spells no tree still makes an expression, which has an error in place of a truth value. Where two
expressions are joined, the texts are joined and so are the trees. If one of the trees is missing,
the joined text is read anew, for two halves can complete each other.
-/

namespace AccessControl

/-- Outcomes are equal if both failed alike or both succeeded alike. -/
instance decidableEqExcept {ε α : Type} [DecidableEq ε] [DecidableEq α] : DecidableEq (Except ε α)
  | .error first, .error second => decidable_of_iff (first = second) (by simp)
  | .ok first, .ok second => decidable_of_iff (first = second) (by simp)
  | .error _, .ok _ => isFalse (by simp)
  | .ok _, .error _ => isFalse (by simp)

/-- A policy expression. -/
structure Expression where
  /-- The text as written. -/
  text : String
  /-- What the text spells, or why it spells nothing. -/
  tree : Except ExpressionError Disjunction
  deriving DecidableEq

namespace Expression

/-- The expression of a text. -/
def parse (text : String) : Expression := ⟨text, treeOf text.toList⟩

/-- The expression that refers to one target policy. -/
def referTo (name : String) : Expression := ⟨"data." ++ name, .ok [[.reference name]]⟩

/-- Two expressions joined by a connective. -/
def concat (left : Expression) (connective : Connective) (right : Expression) : Expression :=
  let text := left.text ++ connective.symbol ++ right.text
  match left.tree, right.tree with
  | .ok first, .ok second => ⟨text, .ok (first.join connective second)⟩
  | _, _ => parse text

/-- Why the text spells nothing, if it does not. -/
def error? (expression : Expression) : Option ExpressionError :=
  match expression.tree with
  | .error cause => some cause
  | .ok _ => none

/-- The names that the expression refers to, ascending and each once. -/
def references (expression : Expression) : List String :=
  match expression.tree with
  | .error _ => []
  | .ok tree => (NameMap.ofList (tree.names.map (fun name => (name, ())))).names

/-- The names that an expression with a tree refers to are those in the tree. -/
theorem mem_references_iff {expression : Expression} {tree : Disjunction}
    (h : expression.tree = .ok tree) {name : String} :
    name ∈ expression.references ↔ name ∈ tree.names := by
  rw [references, h]
  dsimp only
  rw [NameMap.mem_names_ofList]
  constructor
  · rintro ⟨entry, hentry, rfl⟩
    obtain ⟨other, hother, rfl⟩ := List.mem_map.mp hentry
    exact hother
  · exact fun hname => ⟨(name, ()), List.mem_map.mpr ⟨name, hname, rfl⟩, rfl⟩

/-- The truth value of the expression, given those of the target policies. -/
def evaluate (expression : Expression) (results : NameMap Bool) : Except ExpressionError Bool :=
  expression.tree.map (fun tree => tree.holds results)

end Expression

end AccessControl
