import AccessControl.Proofs.Number.Transitivity
import AccessControl.Rule.Evaluation

/-!
# The six relations between two values

Two numbers or two texts have an order, and all six relations between them are read off it. Equality
is decided apart from the order, and agrees with it. Between any other two values equality is the
only thing that can be asked for; the four relations of the order fault with the kinds of both.
-/

namespace AccessControl

namespace Relation

/-- Whether a relation holds between values that are ordered in this way. -/
def ofOrdering : Relation → Ordering → Bool
  | .less, ordering => ordering.isLT
  | .greater, ordering => ordering.isGT
  | .atMost, ordering => ordering.isLE
  | .atLeast, ordering => ordering.isGE
  | .equal, ordering => ordering == .eq
  | .unequal, ordering => !(ordering == .eq)

/-- The relation between the same values in exchanged places. -/
def converse : Relation → Relation
  | .less => .greater
  | .greater => .less
  | .atMost => .atLeast
  | .atLeast => .atMost
  | .equal => .equal
  | .unequal => .unequal

/-- Whether a relation asks for the order of two values. -/
def IsOrder : Relation → Prop
  | .less | .greater | .atMost | .atLeast => True
  | .equal | .unequal => False

/-- Whether truth values of the six relations fit together. -/
structure Coherent (truth : Relation → Bool) : Prop where
  /-- Exactly one of less, equal and greater is true. -/
  one : [truth .less, truth .equal, truth .greater].count true = 1
  /-- At most is less or equal. -/
  atMost : truth .atMost = (truth .less || truth .equal)
  /-- At least is greater or equal. -/
  atLeast : truth .atLeast = (truth .greater || truth .equal)
  /-- Unequal is the negation of equal. -/
  unequal : truth .unequal = !truth .equal

/-- The relations that are read off one order fit together. -/
theorem coherent_ofOrdering (ordering : Ordering) :
    Coherent (fun relation => relation.ofOrdering ordering) := by
  cases ordering <;> exact ⟨rfl, rfl, rfl, rfl⟩

/-- Values in exchanged places have the converse relations. -/
theorem ofOrdering_swap (relation : Relation) (ordering : Ordering) :
    relation.ofOrdering ordering.swap = relation.converse.ofOrdering ordering := by
  cases relation <;> cases ordering <;> rfl

end Relation

namespace Json

variable {x y : Json} {ordering : Ordering}

/-- Whether two values are two numbers or two texts. -/
def Ordered (x y : Json) : Prop := x.kind = y.kind ∧ (x.kind = .number ∨ x.kind = .string)

/-- Two numbers and two texts have an order. -/
theorem Ordered.exists_order (h : Ordered x y) : ∃ ordering, x.order y = .ok ordering := by
  obtain ⟨hkind, hfirst⟩ := h
  cases x with
  | number a =>
    cases y with
    | number b => exact ⟨_, rfl⟩
    | null | bool | string | array | object => cases hkind
  | string a =>
    cases y with
    | string b => exact ⟨_, rfl⟩
    | null | bool | number | array | object => cases hkind
  | null | bool | array | object => rcases hfirst with hfirst | hfirst <;> cases hfirst

/-- No other values have an order. -/
theorem order_of_not_ordered (h : ¬Ordered x y) :
    x.order y = .error (.incomparable x.kind y.kind) := by
  unfold order
  split
  case h_1 => exact absurd ⟨rfl, Or.inl rfl⟩ h
  case h_2 => exact absurd ⟨rfl, Or.inr rfl⟩ h
  case h_3 => rfl

/-- Values in exchanged places have the opposite order. -/
theorem order_swap (h : x.order y = .ok ordering) : y.order x = .ok ordering.swap := by
  unfold order at h
  split at h
  case h_1 a b =>
    cases h
    exact congrArg Except.ok (a.swap_order b).symm
  case h_2 a b =>
    cases h
    exact congrArg Except.ok Std.OrientedOrd.eq_swap
  case h_3 => cases h

/-- Values that have an order are equal in rules where they are equal in the order. -/
theorem equals_of_order (h : x.order y = .ok ordering) : x.equals y = (ordering == .eq) := by
  unfold order at h
  split at h
  case h_1 a b =>
    cases h
    rfl
  case h_2 a b =>
    cases h
    have hsame : (a == b) = (compare a b == .eq) :=
      Bool.eq_iff_iff.mpr (by rw [beq_iff_eq, beq_iff_eq, Std.LawfulEqOrd.compare_eq_iff_eq])
    rw [← hsame]
    rfl
  case h_3 => cases h

end Json

namespace Relation

variable {x y : Json}

/-- The relations between values that have an order are read off it. -/
theorem holds_of_order {ordering : Ordering} (h : x.order y = .ok ordering) (relation : Relation) :
    relation.holds x y = .ok (relation.ofOrdering ordering) := by
  cases relation with
  | equal | unequal => simp only [holds, ofOrdering, Json.equals_of_order h]
  | less | greater | atMost | atLeast =>
    rw [holds, h]
    rfl

/-- Values that have no order cannot be asked for it. -/
theorem holds_of_not_ordered (h : ¬Json.Ordered x y) {relation : Relation}
    (horder : relation.IsOrder) :
    relation.holds x y = .error (.incomparable x.kind y.kind) := by
  have hnone := Json.order_of_not_ordered h
  cases relation with
  | equal | unequal => exact horder.elim
  | less | greater | atMost | atLeast =>
    rw [holds, hnone]
    rfl

end Relation

end AccessControl
