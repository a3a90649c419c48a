import AccessControl.Number
import AccessControl.Proofs.Double.Monotone

/-!
# The order of integers among numbers

Two integers are always compared exactly. Where neither both are signed nor both are unsigned, one
is negative and the other positive, and rounding keeps the signs. An integer is compared with the
double nearest to another integer as the two integers are, unless it has the same nearest double.
-/

namespace AccessControl.Number

variable {a b : Int}

/-- The numbers that have 64 bits are those that have a nearest double. -/
theorem Fits.natAbs_le (h : Fits a) : a.natAbs ≤ 18446744073709551616 := by
  obtain ⟨hlow, hhigh⟩ := h
  omega

/-- The magnitude of an integer of 64 bits is one. -/
theorem Fits.natAbs (h : Fits a) : Fits a.natAbs := by
  obtain ⟨hlow, hhigh⟩ := h
  exact ⟨by omega, by omega⟩

/-- Numbers of different signs do not have the same nearest double. -/
theorem toDouble_ne (ha : Fits a) (hb : Fits b) (hneg : a < 0) (hpos : 0 ≤ b) :
    (integer a ha).toDouble ≠ (integer b hb).toDouble := by
  intro h
  have hsign : decide (a < 0) = decide (b < 0) := congrArg Double.negative h
  rw [decide_eq_true hneg, decide_eq_false (Int.not_lt.mpr hpos)] at hsign
  cases hsign

/-- The nearest doubles of integers are compared as the integers, unless they are the same. -/
theorem order_toDouble (ha : Fits a) (hb : Fits b) :
    (integer a ha).toDouble.order (integer b hb).toDouble =
      if (integer a ha).toDouble = (integer b hb).toDouble then .eq else compare a b :=
  Double.order_ofInt ha.natAbs_le hb.natAbs_le

/-- Natural numbers are compared as integers alike. -/
theorem compare_natCast (m n : Nat) : compare (m : Int) (n : Int) = compare m n := by
  simp only [compare, compareOfLessAndEq, Int.ofNat_lt, Int.natCast_inj]

/-- Only an integer with 64 bits and a sign has a signed value, which is its own. -/
theorem signed?_integer_eq_some_iff (ha : Fits a) :
    (integer a ha).signed? = some b ↔ Signed a ∧ a = b := by
  rw [signed?, Option.ite_none_right_eq_some, Option.some.injEq]

/-- Only an integer from zero on has an unsigned value, which is its own. -/
theorem unsigned?_integer_eq_some_iff {n : Nat} (ha : Fits a) :
    (integer a ha).unsigned? = some n ↔ 0 ≤ a ∧ a = n := by
  rw [unsigned?, Option.ite_none_right_eq_some, Option.some.injEq]
  omega

/-- Integers are compared exactly. -/
theorem order_integer (ha : Fits a) (hb : Fits b) :
    (integer a ha).order (integer b hb) = compare a b := by
  rw [order]
  split
  case h_1 hfirst hsecond =>
    rw [((signed?_integer_eq_some_iff ha).mp hfirst).2,
      ((signed?_integer_eq_some_iff hb).mp hsecond).2]
  case h_2 hsigned =>
    split
    case h_1 m n hfirst hsecond =>
      rw [((unsigned?_integer_eq_some_iff ha).mp hfirst).2,
        ((unsigned?_integer_eq_some_iff hb).mp hsecond).2, compare_natCast]
    case h_2 hunsigned =>
      have hmixed : ¬(Signed a ∧ Signed b) := fun h =>
        hsigned a b ((signed?_integer_eq_some_iff ha).mpr ⟨h.1, rfl⟩)
          ((signed?_integer_eq_some_iff hb).mpr ⟨h.2, rfl⟩)
      have hsome : ¬(0 ≤ a ∧ 0 ≤ b) := fun h =>
        hunsigned a.toNat b.toNat
          ((unsigned?_integer_eq_some_iff ha).mpr ⟨h.1, (Int.toNat_of_nonneg h.1).symm⟩)
          ((unsigned?_integer_eq_some_iff hb).mpr ⟨h.2, (Int.toNat_of_nonneg h.2).symm⟩)
      rw [order_toDouble, if_neg]
      rcases lt_or_ge a 0 with hneg | hpos
      · have hpos : 0 ≤ b := by
          simp only [Fits, Signed] at ha hb hmixed
          omega
        exact toDouble_ne ha hb hneg hpos
      · exact (toDouble_ne hb ha (by omega) hpos).symm

/-- A double is compared with every number by the values of doubles. -/
theorem order_of_double_left (x : Double) (y : Number) :
    (double x).order y = x.order y.toDouble := rfl

/-- Every number is compared with a double by the values of doubles. -/
theorem order_of_double_right (x : Number) (y : Double) :
    x.order (double y) = x.toDouble.order y := by
  rw [order]
  split
  case h_1 hsecond => cases hsecond
  case h_2 =>
    split
    case h_1 hsecond => cases hsecond
    case h_2 => rfl

/-- An integer is compared with the double nearest to another one as the integers are, unless it has
the same nearest double. -/
theorem order_double (ha : Fits a) (hb : Fits b) :
    (integer a ha).order (.double (integer b hb).toDouble) =
      if (integer a ha).toDouble = (integer b hb).toDouble then .eq else compare a b := by
  rw [order_of_double_right, order_toDouble]

end AccessControl.Number
