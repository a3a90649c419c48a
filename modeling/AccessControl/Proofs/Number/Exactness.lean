import AccessControl.Number.Arithmetic
import Mathlib.Data.Rat.Floor

/-!
# Exact arithmetic

The exact results of operators are those on rational numbers. An operator on two numbers has an
integer for a result just where both are signed integers of 64 bits and the exact result is one,
with a single exception: the remainder of the least signed integer by minus one, which is zero, is
calculated with doubles. So doubles never make an integer again, and no result wraps.
-/

namespace AccessControl

/-- A rational number without its fraction: the next integer toward zero. -/
def wholePart (x : ℚ) : ℤ := if 0 ≤ x then ⌊x⌋ else ⌈x⌉

/-- The exact result of an operator on rational numbers. There is none for a divisor of zero; the
remainder is what a division without its fraction leaves. -/
def Operator.rational? (operator : Operator) (x y : ℚ) : Option ℚ :=
  match operator with
  | .plus => some (x + y)
  | .minus => some (x - y)
  | .times => some (x * y)
  | .over => if y = 0 then none else some (x / y)
  | .modulo => if y = 0 then none else some (x - y * wholePart (x / y))

/-- The quotient by a natural number without its fraction is the one toward zero. -/
theorem wholePart_div_natCast (a : ℤ) (n : ℕ) : wholePart ((a : ℚ) / n) = a.tdiv n := by
  rcases Nat.eq_zero_or_pos n with rfl | hpos
  · simp [wholePart]
  have hn : (0 : ℚ) < n := by exact_mod_cast hpos
  rw [wholePart]
  split
  case isTrue hquotient =>
    have ha : 0 ≤ a := by
      have hnum : (0 : ℚ) ≤ a := by
        rwa [le_div_iff₀ hn, zero_mul] at hquotient
      exact_mod_cast hnum
    rw [Rat.floor_intCast_div_natCast, Int.tdiv_eq_ediv_of_nonneg ha]
  case isFalse hquotient =>
    have ha : 0 ≤ -a := by
      have hnum : (a : ℚ) < 0 := by
        rwa [not_le, div_lt_iff₀ hn, zero_mul] at hquotient
      have hneg : a < 0 := by exact_mod_cast hnum
      omega
    rw [Rat.ceil_intCast_div_natCast, ← Int.tdiv_eq_ediv_of_nonneg ha, Int.neg_tdiv, neg_neg]

/-- The quotient of two integers without its fraction is the one toward zero. -/
theorem wholePart_div (a b : ℤ) : wholePart ((a : ℚ) / b) = a.tdiv b := by
  obtain ⟨n, rfl | rfl⟩ := b.eq_nat_or_neg
  · exact wholePart_div_natCast a n
  · have hsigns : (a : ℚ) / ((-(n : ℤ) : ℤ) : ℚ) = ((-a : ℤ) : ℚ) / n := by
      push_cast
      rw [div_neg, neg_div]
    rw [hsigns, wholePart_div_natCast, Int.neg_tdiv, Int.tdiv_neg]

namespace Number

variable {a b : ℤ}

/-- The quotient toward zero of a signed integer is signed, but for that of the least one by minus
one. -/
theorem signed_tdiv_iff (ha : Signed a) :
    Signed (a.tdiv b) ↔ ¬(a = -9223372036854775808 ∧ b = -1) := by
  have hle : (a.tdiv b).natAbs ≤ a.natAbs := Int.natAbs_tdiv_le_natAbs a b
  obtain ⟨hlow, hhigh⟩ := ha
  constructor
  · rintro ⟨-, hquotient⟩ ⟨rfl, rfl⟩
    exact absurd hquotient (by decide)
  · intro hmixed
    by_cases hleast : a = -9223372036854775808
    · subst hleast
      have hdivisor : b ≠ -1 := fun h => hmixed ⟨rfl, h⟩
      by_cases hone : b = 1
      · rw [hone, Int.tdiv_one]
        exact ⟨hlow, hhigh⟩
      · have hnatAbs : (Int.tdiv (-9223372036854775808) b).natAbs =
            9223372036854775808 / b.natAbs := Int.natAbs_tdiv _ b
        have hhalf : 9223372036854775808 / b.natAbs ≤ 4611686018427387904 := by
          rcases Nat.eq_zero_or_pos b.natAbs with hzero | hpos
          · rw [hzero, Nat.div_zero]
            exact Nat.zero_le _
          · exact Nat.div_le_of_le_mul (by omega)
        exact ⟨by omega, by omega⟩
    · exact ⟨by omega, by omega⟩

/-- Only signed integers have a signed value, which is their own. -/
theorem signed?_eq_some_iff {x : Number} :
    x.signed? = some a ↔ ∃ h : Signed a, x = .integer a h.fits := by
  cases x with
  | integer value fits =>
    rw [signed?, Option.ite_none_right_eq_some, Option.some.injEq]
    constructor
    · rintro ⟨hsigned, rfl⟩
      exact ⟨hsigned, rfl⟩
    · rintro ⟨hsigned, hvalue⟩
      cases hvalue
      exact ⟨hsigned, rfl⟩
  | double value =>
    constructor
    · intro h
      cases h
    · rintro ⟨_, hvalue⟩
      cases hvalue

/-- An integer is the number of a signed integer just where it is that integer. -/
theorem ofSigned?_eq_integer_iff {fits : Fits b} :
    ofSigned? a = some (.integer b fits) ↔ Signed b ∧ a = b := by
  rw [ofSigned?]
  split
  case isTrue hsigned =>
    rw [Option.some.injEq, integer.injEq]
    exact ⟨fun h => ⟨h ▸ hsigned, h⟩, fun h => h.2⟩
  case isFalse hgreat =>
    constructor
    · intro h
      cases h
    · rintro ⟨hsigned, rfl⟩
      exact absurd hsigned hgreat

/-- Negating a number gives an integer only where the number is the signed integer of which it is
the exact negative. -/
theorem eq_neg_of_negate {x : Number} {fits : Fits b} (h : x.negate = .integer b fits) :
    ∃ a, ∃ ha : Signed a, x = .integer a ha.fits ∧ b = -a := by
  rw [negate] at h
  split at h
  case h_1 negated hnegated =>
    subst h
    obtain ⟨a, hsigned, hvalue⟩ := Option.bind_eq_some_iff.mp hnegated
    obtain ⟨ha, hx⟩ := signed?_eq_some_iff.mp hsigned
    exact ⟨a, ha, hx, (ofSigned?_eq_integer_iff.mp hvalue).2.symm⟩
  case h_2 => cases h

end Number

namespace Operator

variable {operator : Operator} {a b z : ℤ}

/-- A quotient of integers is exactly an integer where it leaves no remainder. -/
theorem rational?_over_iff (hb : b ≠ 0) :
    rational? .over a b = some (z : ℚ) ↔ a.tmod b = 0 ∧ a.tdiv b = z := by
  have hne : (b : ℚ) ≠ 0 := Int.cast_ne_zero.mpr hb
  rw [rational?, if_neg hne, Option.some.injEq, div_eq_iff hne]
  norm_cast
  constructor
  · rintro rfl
    exact ⟨Int.mul_tmod_left z b, Int.mul_tdiv_cancel z hb⟩
  · rintro ⟨hrest, rfl⟩
    exact (Int.tdiv_mul_cancel_of_tmod_eq_zero hrest).symm

/-- The exact remainder of integers is the one of the division toward zero. -/
theorem rational?_modulo_iff (hb : b ≠ 0) :
    rational? .modulo a b = some (z : ℚ) ↔ a.tmod b = z := by
  have hne : (b : ℚ) ≠ 0 := Int.cast_ne_zero.mpr hb
  rw [rational?, if_neg hne, wholePart_div, Option.some.injEq, Int.tmod_def]
  norm_cast

/-- The result on signed integers is an integer just where the exact result is this integer, signed
too. The remainder of the least signed integer by minus one is missed. -/
theorem onIntegers_eq_integer_iff (ha : Number.Signed a) (hb : operator.divides = true → b ≠ 0)
    {fits : Number.Fits z} :
    operator.onIntegers a b = some (.integer z fits) ↔
      Number.Signed z ∧ operator.rational? a b = some (z : ℚ) ∧
        ¬(operator = .modulo ∧ a = -9223372036854775808 ∧ b = -1) := by
  cases operator
  case plus | minus | times =>
    rw [onIntegers, Number.ofSigned?_eq_integer_iff, rational?, Option.some.injEq]
    norm_cast
    simp
  · rw [onIntegers, rational?_over_iff (hb rfl)]
    split
    case isTrue hrest =>
      rw [Number.ofSigned?_eq_integer_iff]
      simp [hrest]
    case isFalse hrest => simp [hrest]
  · have hquotient : Number.Signed (a.tdiv b) ↔ ¬(a = -9223372036854775808 ∧ b = -1) :=
      Number.signed_tdiv_iff ha
    rw [onIntegers, rational?_modulo_iff (hb rfl)]
    split
    case isTrue hsigned =>
      rw [Number.ofSigned?_eq_integer_iff]
      simp [hquotient.mp hsigned]
    case isFalse hgreat =>
      have hmissed : a = -9223372036854775808 ∧ b = -1 := not_not.mp (mt hquotient.mpr hgreat)
      simp [hmissed]

/-- Doubles are no integers. -/
theorem calculateRounded_ne_integer {x y : Number} {fits : Number.Fits z} :
    operator.calculateRounded x y ≠ .ok (.integer z fits) := by
  intro h
  rw [calculateRounded] at h
  split at h
  · cases h
  · split at h <;> cases h

/-- An operator on two signed integers gives an integer just where the exact result is this integer,
signed too. The remainder of the least signed integer by minus one is missed. -/
theorem calculate_signed_iff (ha : Number.Signed a) (hb : Number.Signed b)
    {fits : Number.Fits z} :
    operator.calculate (.integer a ha.fits) (.integer b hb.fits) = .ok (.integer z fits) ↔
      Number.Signed z ∧ operator.rational? a b = some (z : ℚ) ∧
        ¬(operator = .modulo ∧ a = -9223372036854775808 ∧ b = -1) := by
  have hfirst : (Number.integer a ha.fits).signed? = some a :=
    Number.signed?_eq_some_iff.mpr ⟨ha, rfl⟩
  have hsecond : (Number.integer b hb.fits).signed? = some b :=
    Number.signed?_eq_some_iff.mpr ⟨hb, rfl⟩
  rw [calculate, hfirst, hsecond]
  dsimp only
  split
  case isTrue hdivision =>
    simp only [Bool.and_eq_true, beq_iff_eq] at hdivision
    obtain ⟨hdivides, rfl⟩ := hdivision
    cases operator <;> simp [divides, rational?] at hdivides ⊢
  case isFalse hdivision =>
    have hdivisor : operator.divides = true → b ≠ 0 := fun hdivides hzero =>
      hdivision (by rw [hdivides, hzero]; rfl)
    have hexact : operator.onIntegers a b = some (.integer z fits) ↔ _ :=
      onIntegers_eq_integer_iff ha hdivisor
    rw [← hexact]
    split
    case h_1 number hnumber => rw [hnumber, Except.ok.injEq, Option.some.injEq]
    case h_2 hnone =>
      rw [hnone]
      exact ⟨fun h => absurd h calculateRounded_ne_integer, fun h => by cases h⟩

/-- The remainder of the least signed integer by minus one is calculated with doubles. It is zero,
and has the sign of the dividend. -/
theorem calculate_modulo_least (hx : Number.Fits (-9223372036854775808)) (hy : Number.Fits (-1)) :
    calculate .modulo (.integer _ hx) (.integer _ hy) = .ok (.double (.zero true)) := by
  have hclosed : calculate .modulo (.integer (-9223372036854775808) (by decide))
      (.integer (-1) (by decide)) = .ok (.double (.zero true)) := by
    decide +kernel
  exact hclosed

/-- An operator on two numbers gives an integer only where both are signed integers. -/
theorem exists_signed_of_calculate {x y : Number} {fits : Number.Fits z}
    (h : operator.calculate x y = .ok (.integer z fits)) :
    ∃ a b, ∃ ha : Number.Signed a, ∃ hb : Number.Signed b,
      x = .integer a ha.fits ∧ y = .integer b hb.fits := by
  rw [calculate] at h
  split at h
  case h_1 a b hx hy =>
    obtain ⟨ha, hfirst⟩ := Number.signed?_eq_some_iff.mp hx
    obtain ⟨hb, hsecond⟩ := Number.signed?_eq_some_iff.mp hy
    exact ⟨a, b, ha, hb, hfirst, hsecond⟩
  case h_2 => exact absurd h calculateRounded_ne_integer

end Operator

end AccessControl
