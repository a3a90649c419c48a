import AccessControl.Proofs.Number.Order

/-!
# The order of numbers of both kinds

Numbers that are exchanged have the opposite order. A number that is not greater than another one is
not rounded to a greater double either. So the order is transitive as long as comparing the first
number with the last one sees no more than the doubles do. It sees more where both are integers: a
double is equal to every integer that is rounded to it, and of two such integers the greater one may
come first.
-/

namespace AccessControl

namespace Double

/-- Doubles of one value are the same, unless they are zeros. -/
theorem eq_of_signedUnits {x y : Double} (h : x.signedUnits = y.signedUnits)
    (hzero : x.signedUnits ≠ 0) : x = y := by
  obtain ⟨negative, units, _⟩ := x
  obtain ⟨negative', units', _⟩ := y
  simp only [signedUnits] at h hzero
  rw [Double.mk.injEq]
  cases negative with
  | false =>
    cases negative' with
    | false => exact ⟨rfl, by simpa using h⟩
    | true =>
      simp only [Bool.false_eq_true, if_false, if_true] at h hzero
      omega
  | true =>
    cases negative' with
    | false =>
      simp only [Bool.false_eq_true, if_false, if_true] at h hzero
      omega
    | true => exact ⟨rfl, by simpa using h⟩

/-- Only zero is rounded to a zero. -/
theorem eq_zero_of_signedUnits_ofInt {a : Int} (h : a.natAbs ≤ 18446744073709551616)
    (hzero : (ofInt a h).signedUnits = 0) : a = 0 := by
  by_contra hne
  have hunits := unitsOf_pos hne
  rw [signedUnits_ofInt] at hzero
  split at hzero <;> omega

end Double

namespace Number

/-- Numbers that are exchanged have the opposite order. -/
theorem swap_order (x y : Number) : (x.order y).swap = y.order x := by
  cases x with
  | integer a ha =>
    cases y with
    | integer b hb =>
      rw [order_integer, order_integer]
      exact Std.OrientedOrd.eq_swap.symm
    | double y =>
      rw [order_of_double_right, order_of_double_left]
      exact Std.OrientedOrd.eq_swap.symm
  | double x =>
    rw [order_of_double_left, order_of_double_right]
    exact Std.OrientedOrd.eq_swap.symm

/-- Numbers are equal in the order just where neither is greater than the other. -/
theorem order_eq_iff (x y : Number) :
    x.order y = .eq ↔ (x.order y).isLE = true ∧ (y.order x).isLE = true := by
  rw [← swap_order x y]
  cases x.order y <;> decide

/-- A greater integer, a double that it is rounded to, and a smaller integer that is rounded to the
same double. -/
inductive Blurred : Number → Number → Number → Prop where
  /-- The integers differ, and their nearest doubles do not. -/
  | rounded {greater smaller : Int} {middle : Double} (hgreater : Fits greater)
    (hsmaller : Fits smaller) : smaller < greater →
    (integer greater hgreater).toDouble = middle → (integer smaller hsmaller).toDouble = middle →
    Blurred (integer greater hgreater) (.double middle) (integer smaller hsmaller)

/-- The first of the integers is the greater one. -/
theorem Blurred.lt {a b : Int} {ha : Fits a} {hb : Fits b} {middle : Number}
    (h : Blurred (integer a ha) middle (integer b hb)) : b < a := by
  cases h with
  | rounded _ _ hlt _ _ => exact hlt

/-- The value of the double that a number is rounded to. -/
def roundedUnits (x : Number) : Int := x.toDouble.signedUnits

/-- A double is compared with every number by the values of the doubles, in either order. -/
theorem isLE_order_iff_of_double {x y : Number} {d : Double} (h : x = .double d ∨ y = .double d) :
    (x.order y).isLE = true ↔ x.roundedUnits ≤ y.roundedUnits := by
  rcases h with rfl | rfl
  · exact Std.isLE_compare
  · rw [order_of_double_right]
    exact Std.isLE_compare

/-- A number that is not greater than another one is not rounded to a greater double. -/
theorem roundedUnits_le {x y : Number} (h : (x.order y).isLE = true) :
    x.roundedUnits ≤ y.roundedUnits := by
  cases x with
  | double x => exact (isLE_order_iff_of_double (Or.inl rfl)).mp h
  | integer a ha =>
    cases y with
    | double y => exact (isLE_order_iff_of_double (Or.inr rfl)).mp h
    | integer b hb =>
      rw [order_integer, Std.isLE_compare] at h
      exact Double.signedUnits_ofInt_mono ha.natAbs_le hb.natAbs_le h

/-- Integers that a double does not tell apart, since it is neither less than the first nor greater
than the second, are both rounded to the double if the first is the greater one. -/
theorem blurred_of_lt {a b : Int} {middle : Double} {ha : Fits a} {hb : Fits b} (hlt : b < a)
    (hfirst : (integer a ha).roundedUnits ≤ middle.signedUnits)
    (hlast : middle.signedUnits ≤ (integer b hb).roundedUnits) :
    Blurred (integer a ha) (.double middle) (integer b hb) := by
  have hmono : (integer b hb).roundedUnits ≤ (integer a ha).roundedUnits :=
    Double.signedUnits_ofInt_mono hb.natAbs_le ha.natAbs_le (Int.le_of_lt hlt)
  have hunits : (integer a ha).roundedUnits = (integer b hb).roundedUnits := by omega
  have hsame : (integer a ha).toDouble = (integer b hb).toDouble :=
    (Double.ofInt_eq_iff ha.natAbs_le hb.natAbs_le).mpr hunits
  have hnonzero : (integer a ha).roundedUnits ≠ 0 := by
    intro hzero
    have hgreater : a = 0 := Double.eq_zero_of_signedUnits_ofInt ha.natAbs_le hzero
    have hsmaller : b = 0 :=
      Double.eq_zero_of_signedUnits_ofInt hb.natAbs_le (hunits.symm.trans hzero)
    omega
  have hmiddle : (integer a ha).toDouble = middle :=
    Double.eq_of_signedUnits (show (integer a ha).roundedUnits = middle.signedUnits by omega)
      hnonzero
  exact .rounded ha hb hlt hmiddle (hsame.symm.trans hmiddle)

/-- Of three numbers in order, the first is not greater than the last, unless they are two integers
that are rounded to the double between them, and the first is the greater one. -/
theorem isLE_order_iff_not_blurred {x y z : Number} (hxy : (x.order y).isLE = true)
    (hyz : (y.order z).isLE = true) : (x.order z).isLE = true ↔ ¬Blurred x y z := by
  have hunits : x.roundedUnits ≤ z.roundedUnits :=
    Int.le_trans (roundedUnits_le hxy) (roundedUnits_le hyz)
  cases x with
  | double x =>
    exact iff_of_true ((isLE_order_iff_of_double (Or.inl rfl)).mpr hunits) (fun h => by cases h)
  | integer a ha =>
    cases z with
    | double z =>
      exact iff_of_true ((isLE_order_iff_of_double (Or.inr rfl)).mpr hunits) (fun h => by cases h)
    | integer c hc =>
      cases y with
      | integer b hb =>
        rw [order_integer, Std.isLE_compare] at hxy hyz ⊢
        exact iff_of_true (Int.le_trans hxy hyz) (fun h => by cases h)
      | double y =>
        rw [order_integer, Std.isLE_compare, ← Int.not_lt, not_iff_not]
        exact ⟨fun hlt => blurred_of_lt hlt (roundedUnits_le hxy) (roundedUnits_le hyz),
          Blurred.lt⟩

/-- Of three numbers of which the first two and the last two are equal, the first is equal to the
last, unless they are two different integers that are rounded to the double between them. -/
theorem order_eq_iff_not_blurred {x y z : Number} (hxy : x.order y = .eq) (hyz : y.order z = .eq) :
    x.order z = .eq ↔ ¬Blurred x y z ∧ ¬Blurred z y x := by
  obtain ⟨hxy, hyx⟩ := (order_eq_iff x y).mp hxy
  obtain ⟨hyz, hzy⟩ := (order_eq_iff y z).mp hyz
  rw [order_eq_iff, isLE_order_iff_not_blurred hxy hyz, isLE_order_iff_not_blurred hzy hyx]

end Number

end AccessControl
