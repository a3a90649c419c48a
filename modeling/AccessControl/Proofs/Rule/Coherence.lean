import AccessControl.Proofs.Rule.Between
import AccessControl.Proofs.Rule.Relations

/-!
# Coherence of the comparison operators

The rules that put the six comparison operators between the same two operand texts agree with each
other. Between two numbers or two texts all of them have truth values, which fit together, and they
have the converse ones where the operands are exchanged. Between other values only the two operators
of equality have truth values, which are opposite; the four operators of the order fault.
-/

namespace AccessControl.Rule

variable {registry : Registry} {attributes : Attributes} {left right : String} {x y : Json}

/-- Where one operator of a relation stands between two operand texts whose values have an order,
the truth value is read off that order. -/
theorem between_of_order (hleft : Operand.HasValue registry attributes left x)
    (hright : Operand.HasValue registry attributes right y) {ordering : Ordering}
    (horder : x.order y = .ok ordering) {relation : Relation} {sign : String}
    (hsign : sign ∈ relation.spellings) :
    between registry attributes left sign right = .ok (relation.ofOrdering ordering) := by
  rw [between_of_values hleft hright hsign, Relation.holds_of_order horder]
  rfl

/-- For all operand texts that have values, over every registry and for every request. Between two
numbers or two texts the rules with the six comparison operators, in every spelling, have truth
values. Exactly one of less, equal and greater is true, the others follow from these, and the
operands in exchanged places have the converse relations. Between any other two values the rules of
equality have opposite truth values, and those of the order fault with the kinds of the values. -/
theorem coherent_of_values (hleft : Operand.HasValue registry attributes left x)
    (hright : Operand.HasValue registry attributes right y) :
    (x.Ordered y → ∃ truth : Relation → Bool, Relation.Coherent truth ∧
        ∀ relation : Relation, ∀ sign ∈ relation.spellings,
          between registry attributes left sign right = .ok (truth relation) ∧
            between registry attributes right sign left = .ok (truth relation.converse)) ∧
      (¬x.Ordered y →
        (∃ same : Bool,
            (∀ sign ∈ Relation.equal.spellings,
              between registry attributes left sign right = .ok same) ∧
            ∀ sign ∈ Relation.unequal.spellings,
              between registry attributes left sign right = .ok (!same)) ∧
          ∀ relation : Relation, relation.IsOrder → ∀ sign ∈ relation.spellings,
            between registry attributes left sign right =
              .error (.faulted (left ++ sign ++ right) (.incomparable x.kind y.kind))) := by
  constructor
  · intro hordered
    obtain ⟨ordering, horder⟩ := hordered.exists_order
    refine ⟨_, Relation.coherent_ofOrdering ordering, fun relation sign hsign => ⟨?_, ?_⟩⟩
    · exact between_of_order hleft hright horder hsign
    · rw [between_of_order hright hleft (Json.order_swap horder) hsign, Relation.ofOrdering_swap]
  · intro hnone
    refine ⟨⟨x.equals y, ?_, ?_⟩, ?_⟩
    · intro sign hsign
      rw [between_of_values hleft hright hsign]
      rfl
    · intro sign hsign
      rw [between_of_values hleft hright hsign]
      rfl
    · intro relation hrelation sign hsign
      rw [between_of_values hleft hright hsign, Relation.holds_of_not_ordered hnone hrelation]
      rfl

/-- A negative integer is less than one beyond the signed integers, and neither has an order with a
truth value. -/
theorem coherent_of_values_mixed :
    let attributes : Attributes :=
      { user := .object [("a", .number (.integer (-1) (by decide))),
          ("b", .number (.integer 18446744073709551615 (by decide))), ("c", .bool true)] }
    Operand.HasValue .empty attributes "user.a" (.number (.integer (-1) (by decide))) ∧
      Operand.HasValue .empty attributes "user.b"
        (.number (.integer 18446744073709551615 (by decide))) ∧
      Operand.HasValue .empty attributes "user.c" (.bool true) ∧
      (∃ truth : Relation → Bool, Relation.Coherent truth ∧ truth .less = true ∧
        ∀ relation : Relation, ∀ sign ∈ relation.spellings,
          between .empty attributes "user.a" sign "user.b" = .ok (truth relation)) ∧
      between .empty attributes "user.a" "<" "user.c" =
        .error (.faulted "user.a<user.c" (.incomparable .number .boolean)) := by
  intro attributes
  have haname : Token.IsName "a" := ⟨⟨'a', [], rfl, rfl, List.forall_mem_nil _⟩, rfl⟩
  have hbname : Token.IsName "b" := ⟨⟨'b', [], rfl, rfl, List.forall_mem_nil _⟩, rfl⟩
  have hcname : Token.IsName "c" := ⟨⟨'c', [], rfl, rfl, List.forall_mem_nil _⟩, rfl⟩
  have ha : Operand.HasValue .empty attributes "user.a"
      (.number (.integer (-1) (by decide))) :=
    Operand.hasValue_field .user haname rfl
  have hb : Operand.HasValue .empty attributes "user.b"
      (.number (.integer 18446744073709551615 (by decide))) :=
    Operand.hasValue_field .user hbname rfl
  have hc : Operand.HasValue .empty attributes "user.c" (.bool true) :=
    Operand.hasValue_field .user hcname rfl
  have hless : between .empty attributes "user.a" "<" "user.b" = .ok true := by decide +kernel
  obtain ⟨truth, hcoherent, htruth⟩ := (coherent_of_values ha hb).1 ⟨rfl, Or.inl rfl⟩
  refine ⟨ha, hb, hc, ⟨truth, hcoherent, ?_, fun relation sign hsign =>
    (htruth relation sign hsign).1⟩, ?_⟩
  · exact Except.ok.inj ((htruth .less "<" (List.mem_singleton.mpr rfl)).1.symm.trans hless)
  · exact ((coherent_of_values ha hc).2 (fun h => by cases h.1)).2 .less trivial "<"
      (List.mem_singleton.mpr rfl)

end AccessControl.Rule
