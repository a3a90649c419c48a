import AccessControl.Proofs.Rule.Coherence
import AccessControl.Proofs.Rule.Thresholds

/-!
# Numbers in rules

Rules compare two integers exactly, whichever of the signed and the unsigned integers they are. An
integer and a double are compared as doubles. This keeps equality and the order of three numbers
transitive in every mix of the kinds but one: two different integers around a double that is nearest
to both of them. There the double hides how the integers differ.
-/

namespace AccessControl

/-- Integers of 64 bits are compared exactly, with and without a sign: in the order of numbers, in
the equality and the order of values, and by all relations. -/
theorem Number.compare_integers_exact {a b : Int} (ha : Fits a) (hb : Fits b) :
    (integer a ha).order (integer b hb) = compare a b ∧
      Json.equals (.number (integer a ha)) (.number (integer b hb)) = decide (a = b) ∧
      Json.order (.number (integer a ha)) (.number (integer b hb)) = .ok (compare a b) ∧
      ∀ relation : Relation, relation.holds (.number (integer a ha)) (.number (integer b hb)) =
        .ok (relation.ofIntegers a b) := by
  have hexact : (integer a ha).order (integer b hb) = compare a b := order_integer ha hb
  have horder : Json.order (.number (integer a ha)) (.number (integer b hb)) =
      .ok (compare a b) := congrArg Except.ok hexact
  refine ⟨hexact, ?_, horder, Relation.holds_of_compare hexact⟩
  rw [Json.equals_of_order horder]
  exact Relation.ofOrdering_compare .equal a b

/-- The least signed integer is less than the greatest unsigned one, and this is not equal to its
predecessor, although the same double is nearest to both. -/
theorem Number.compare_integers_exact_limits :
    Fits (-9223372036854775808) ∧ Fits 18446744073709551615 ∧ Fits 18446744073709551614 ∧
      (integer (-9223372036854775808) (by decide)).order
        (integer 18446744073709551615 (by decide)) = .lt ∧
      Json.equals (.number (integer 18446744073709551615 (by decide)))
        (.number (integer 18446744073709551614 (by decide))) = false :=
  ⟨by decide, by decide, by decide, (compare_integers_exact (by decide) (by decide)).1,
    (compare_integers_exact (by decide) (by decide)).2.1⟩

namespace Rule

variable {registry : Registry} {attributes : Attributes}

/-- What a rule says of two operand texts with numbers is read off the order of these. -/
theorem between_numbers_iff {left right : String} {x y : Number}
    (hleft : Operand.HasValue registry attributes left (.number x))
    (hright : Operand.HasValue registry attributes right (.number y)) {relation : Relation}
    {sign : String} (hsign : sign ∈ relation.spellings) :
    between registry attributes left sign right = .ok true ↔
      relation.ofOrdering (x.order y) = true := by
  have horder : Json.order (.number x) (.number y) = .ok (x.order y) := rfl
  rw [between_of_order hleft hright horder hsign, Except.ok.injEq]

/-- For all operand texts with numbers, integers and doubles in any mix. Where the first is equal to
the middle one and this to the last one, the first is equal to the last one, unless these are two
different integers that are rounded to the middle one, a double. Where the first is at most the
middle one and this at most the last one, the first is at most the last one, unless they are such
integers and the first is the greater one. In the exceptions it is not. -/
theorem transitive_unless_blurred {first middle last : String} {x y z : Number}
    (hfirst : Operand.HasValue registry attributes first (.number x))
    (hmiddle : Operand.HasValue registry attributes middle (.number y))
    (hlast : Operand.HasValue registry attributes last (.number z)) :
    (between registry attributes first "==" middle = .ok true →
      between registry attributes middle "==" last = .ok true →
      (between registry attributes first "==" last = .ok true ↔
        ¬Number.Blurred x y z ∧ ¬Number.Blurred z y x)) ∧
    (between registry attributes first "<=" middle = .ok true →
      between registry attributes middle "<=" last = .ok true →
      (between registry attributes first "<=" last = .ok true ↔ ¬Number.Blurred x y z)) := by
  have hequal : "==" ∈ Relation.equal.spellings := List.mem_cons_self
  have hatMost : "<=" ∈ Relation.atMost.spellings := List.mem_cons_self
  rw [between_numbers_iff hfirst hmiddle hequal, between_numbers_iff hmiddle hlast hequal,
    between_numbers_iff hfirst hlast hequal, between_numbers_iff hfirst hmiddle hatMost,
    between_numbers_iff hmiddle hlast hatMost, between_numbers_iff hfirst hlast hatMost]
  simp only [Relation.ofOrdering, beq_iff_eq]
  exact ⟨Number.order_eq_iff_not_blurred, Number.isLE_order_iff_not_blurred⟩

/-- The double `2 ^ 53` is nearest to the integer after it, and counts as equal to it. That integer
is equal to itself and at most the integer after it. -/
theorem transitive_unless_blurred_even :
    let attributes : Attributes :=
      { user := .object [("a", .number (.integer 9007199254740993 (by decide))),
          ("b", .number (.double (.ofInt 9007199254740992 (by decide)))),
          ("c", .number (.integer 9007199254740994 (by decide)))] }
    let a : Number := .integer 9007199254740993 (by decide)
    let b : Number := .double (.ofInt 9007199254740992 (by decide))
    let c : Number := .integer 9007199254740994 (by decide)
    Operand.HasValue .empty attributes "user.a" (.number a) ∧
      Operand.HasValue .empty attributes "user.b" (.number b) ∧
      Operand.HasValue .empty attributes "user.c" (.number c) ∧
      between .empty attributes "user.a" "==" "user.b" = .ok true ∧
      between .empty attributes "user.b" "==" "user.a" = .ok true ∧
      between .empty attributes "user.a" "==" "user.a" = .ok true ∧
      between .empty attributes "user.a" "<=" "user.b" = .ok true ∧
      between .empty attributes "user.b" "<=" "user.c" = .ok true ∧
      between .empty attributes "user.a" "<=" "user.c" = .ok true := by
  intro attributes a b c
  have haname : Token.IsName "a" := ⟨⟨'a', [], rfl, rfl, List.forall_mem_nil _⟩, rfl⟩
  have hbname : Token.IsName "b" := ⟨⟨'b', [], rfl, rfl, List.forall_mem_nil _⟩, rfl⟩
  have hcname : Token.IsName "c" := ⟨⟨'c', [], rfl, rfl, List.forall_mem_nil _⟩, rfl⟩
  have ha : Operand.HasValue .empty attributes "user.a" (.number a) :=
    Operand.hasValue_field .user haname rfl
  have hb : Operand.HasValue .empty attributes "user.b" (.number b) :=
    Operand.hasValue_field .user hbname rfl
  have hc : Operand.HasValue .empty attributes "user.c" (.number c) :=
    Operand.hasValue_field .user hcname rfl
  have hab : between .empty attributes "user.a" "==" "user.b" = .ok true := by decide +kernel
  have hba : between .empty attributes "user.b" "==" "user.a" = .ok true := by decide +kernel
  have hab' : between .empty attributes "user.a" "<=" "user.b" = .ok true := by decide +kernel
  have hbc' : between .empty attributes "user.b" "<=" "user.c" = .ok true := by decide +kernel
  have hsame : ¬Number.Blurred a b a := fun h => absurd h.lt (by decide)
  have hascending : ¬Number.Blurred a b c := fun h => absurd h.lt (by decide)
  exact ⟨ha, hb, hc, hab, hba,
    ((transitive_unless_blurred ha hb ha).1 hab hba).mpr ⟨hsame, hsame⟩, hab', hbc',
    ((transitive_unless_blurred ha hb hc).2 hab' hbc').mpr hascending⟩

/-- The integer after `2 ^ 53` is equal to the double `2 ^ 53` and this to the integer `2 ^ 53`, but
the integers are not equal, and the first is not at most the last. -/
theorem not_transitive_around_double :
    let attributes : Attributes :=
      { user := .object [("a", .number (.integer 9007199254740993 (by decide))),
          ("b", .number (.double (.ofInt 9007199254740992 (by decide)))),
          ("c", .number (.integer 9007199254740992 (by decide)))] }
    between .empty attributes "user.a" "==" "user.b" = .ok true ∧
      between .empty attributes "user.b" "==" "user.c" = .ok true ∧
      between .empty attributes "user.a" "==" "user.c" = .ok false ∧
      between .empty attributes "user.a" "<=" "user.b" = .ok true ∧
      between .empty attributes "user.b" "<=" "user.c" = .ok true ∧
      between .empty attributes "user.a" "<=" "user.c" = .ok false :=
  ⟨by decide +kernel, by decide +kernel, by decide +kernel, by decide +kernel, by decide +kernel,
    by decide +kernel⟩

end Rule

end AccessControl
