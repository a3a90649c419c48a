import AccessControl.Double.Text
import Mathlib.Tactic.Ring

/-!
# Rounding to doubles

Rounding depends on nothing but the ratio of its arguments, leaves the magnitudes of doubles alone,
and does not get below a power of two that the exact quotient reaches. So the powers of ten that are
decided without being computed are decided as rounding would decide them, and a decimal is read by
its value alone, however that is spread over coefficient and exponent.
-/

namespace AccessControl.Double

/-- The rounded quotient is that of every equal ratio with a common factor. -/
theorem nearestQuotient_mul_mul {num den factor : Nat} (h : 0 < factor) :
    nearestQuotient (num * factor) (den * factor) = nearestQuotient num den := by
  have hlt : 2 * (num % den * factor) < den * factor ↔ 2 * (num % den) < den := by
    rw [← Nat.mul_assoc]
    exact Nat.mul_lt_mul_right h
  have heq : 2 * (num % den * factor) = den * factor ↔ 2 * (num % den) = den := by
    rw [← Nat.mul_assoc]
    exact Nat.mul_left_inj (Nat.ne_of_gt h)
  simp only [nearestQuotient, Nat.mul_div_mul_right _ _ h, Nat.mul_mod_mul_right, hlt, heq]

/-- The nearest magnitude is that of every equal ratio with a common factor. -/
theorem nearestUnits_mul_mul {num den factor : Nat} (h : 0 < factor) :
    nearestUnits (num * factor) (den * factor) = nearestUnits num den := by
  simp only [nearestUnits, Nat.mul_div_mul_right _ _ h]
  rw [Nat.mul_right_comm, nearestQuotient_mul_mul h]

/-- The nearest magnitude depends on the ratio alone. -/
theorem nearestUnits_congr {num den num' den' : Nat} (hden : 0 < den) (hden' : 0 < den')
    (h : num * den' = num' * den) : nearestUnits num den = nearestUnits num' den' := by
  rw [← nearestUnits_mul_mul hden', h, Nat.mul_comm den den', nearestUnits_mul_mul hden]

/-- Rounding a quotient does not get below its whole part. -/
theorem div_le_nearestQuotient (num den : Nat) : num / den ≤ nearestQuotient num den := by
  simp only [nearestQuotient]
  split
  · exact Nat.le_refl _
  · exact Nat.le_succ _

/-- A whole quotient is left alone. -/
theorem nearestQuotient_mul {den : Nat} (h : 0 < den) (quotient : Nat) :
    nearestQuotient (quotient * den) den = quotient := by
  simp only [nearestQuotient, Nat.mul_div_cancel _ h, Nat.mul_mod_left, Nat.mul_zero, h, true_or,
    if_true]

/-- A magnitude with 53 binary digits is left alone. -/
theorem nearestUnits_mul {units den : Nat} (hden : 0 < den) (h : spacing units ∣ units) :
    nearestUnits (units * den) den = units := by
  obtain ⟨count, hcount⟩ := h
  have hstep : 0 < den * spacing units := Nat.mul_pos hden (powerOfTwo_pos _)
  have hsplit : units * den = count * (den * spacing units) := by
    rw [Nat.mul_comm den, ← Nat.mul_assoc, Nat.mul_comm count, ← hcount]
  simp only [nearestUnits, Nat.mul_div_cancel _ hden]
  rw [hsplit, nearestQuotient_mul hstep, Nat.mul_comm count, ← hcount]

/-- Rounding does not get below a power of two that the exact quotient reaches. -/
theorem powerOfTwo_le_nearestUnits {num den k : Nat} (hden : 0 < den)
    (h : powerOfTwo k * den ≤ num) : powerOfTwo k ≤ nearestUnits num den := by
  have hquotient : 2 ^ k ≤ num / den := (Nat.le_div_iff_mul_le hden).mpr h
  have hpos : num / den ≠ 0 := Nat.ne_of_gt (Nat.lt_of_lt_of_le (Nat.two_pow_pos k) hquotient)
  have hlog : k ≤ (num / den).log2 := (Nat.le_log2 hpos).mpr hquotient
  have hstep : 0 < 2 ^ ((num / den).log2 - 52) := Nat.two_pow_pos _
  have hleading : 2 ^ (num / den).log2 =
      2 ^ ((num / den).log2 - ((num / den).log2 - 52)) * 2 ^ ((num / den).log2 - 52) := by
    rw [← Nat.pow_add]
    congr 1
    omega
  have hsteps : 2 ^ ((num / den).log2 - ((num / den).log2 - 52)) ≤
      num / (den * 2 ^ ((num / den).log2 - 52)) := by
    rw [← Nat.div_div_eq_div_mul, Nat.le_div_iff_mul_le hstep, ← hleading]
    exact Nat.log2_self_le hpos
  calc 2 ^ k ≤ 2 ^ (num / den).log2 := Nat.pow_le_pow_right (by decide) hlog
    _ = 2 ^ ((num / den).log2 - ((num / den).log2 - 52)) * 2 ^ ((num / den).log2 - 52) := hleading
    _ ≤ nearestUnits num den :=
      Nat.mul_le_mul_right _ (Nat.le_trans hsteps (div_le_nearestQuotient _ _))

/-- Less than half a unit is rounded to zero. -/
theorem nearestUnits_eq_zero {num den : Nat} (h : 2 * num < den) : nearestUnits num den = 0 := by
  have hquotient : num / den = 0 := Nat.div_eq_of_lt (by omega)
  have hstep : spacing 0 = 1 := by decide
  simp only [nearestUnits, hquotient, hstep, Nat.mul_one, nearestQuotient,
    Nat.mod_eq_of_lt (show num < den by omega), h, true_or, if_true]

/-- What is nearest to a quotient is its rounding. -/
theorem round_of_nearest {num den units : Nat} (h : nearestUnits num den = units)
    (representable : Representable units) (negative : Bool) :
    round negative num den = some ⟨negative, units, representable⟩ := by
  subst h
  exact dif_pos representable.1

/-- There is no rounding beyond the largest double. -/
theorem round_of_limit_le {num den : Nat} (h : limit ≤ nearestUnits num den) (negative : Bool) :
    round negative num den = none := dif_neg (Nat.not_lt.mpr h)

/-- The magnitude nearest to a decimal. -/
def nearestDecimal (decimal : Decimal) : Nat :=
  nearestUnits (decimal.coefficient * 10 ^ decimal.exponent.toNat * one)
    (10 ^ (-decimal.exponent).toNat)

/-- A power of two is not greater than a power of ten with at least a third of its exponent. -/
theorem powerOfTwo_le_ten_pow {j k : Nat} (h : j ≤ 3 * k) : powerOfTwo j ≤ 10 ^ k :=
  calc 2 ^ j ≤ 2 ^ (3 * k) := Nat.pow_le_pow_right (by decide) h
    _ = 8 ^ k := Nat.pow_mul 2 3 k
    _ ≤ 10 ^ k := Nat.pow_le_pow_left (by decide) k

/-- Powers of two are multiplied by adding their exponents. -/
theorem powerOfTwo_add (j k : Nat) : powerOfTwo (j + k) = powerOfTwo j * powerOfTwo k :=
  Nat.pow_add 2 j k

/-- The limit is `2 ^ 1024`. -/
theorem limit_eq : limit = powerOfTwo 1024 * one := by rw [limit, one, ← powerOfTwo_add]

/-- Decimals with a power of ten that is too great are beyond the largest double. -/
theorem limit_le_nearestDecimal {decimal : Decimal} (hcoefficient : decimal.coefficient ≠ 0)
    (h : 400 < decimal.exponent) : limit ≤ nearestDecimal decimal := by
  have hzero : (-decimal.exponent).toNat = 0 := by omega
  have hpower : powerOfTwo 1024 ≤ 10 ^ decimal.exponent.toNat :=
    powerOfTwo_le_ten_pow (by omega)
  have hscaled : powerOfTwo 1024 ≤ decimal.coefficient * 10 ^ decimal.exponent.toNat :=
    Nat.le_trans hpower (Nat.le_mul_of_pos_left _ (Nat.pos_of_ne_zero hcoefficient))
  have hlimit : limit * 10 ^ (-decimal.exponent).toNat ≤
      decimal.coefficient * 10 ^ decimal.exponent.toNat * one := by
    rw [hzero, Nat.pow_zero, Nat.mul_one, limit_eq]
    exact Nat.mul_le_mul_right one hscaled
  exact powerOfTwo_le_nearestUnits (Nat.pow_pos (by decide)) hlimit

/-- Decimals with a power of ten that is too small are rounded to zero. -/
theorem nearestDecimal_eq_zero {decimal : Decimal}
    (h : decimal.exponent < -(400 + decimal.coefficient.log2 : Int)) :
    nearestDecimal decimal = 0 := by
  have hzero : decimal.exponent.toNat = 0 := by omega
  have hcoefficient : decimal.coefficient < powerOfTwo (decimal.coefficient.log2 + 1) :=
    Nat.lt_log2_self
  refine nearestUnits_eq_zero ?_
  rw [hzero, Nat.pow_zero, Nat.mul_one]
  calc 2 * (decimal.coefficient * one)
      < 2 * (powerOfTwo (decimal.coefficient.log2 + 1) * one) :=
        Nat.mul_lt_mul_of_pos_left
          (Nat.mul_lt_mul_of_pos_right hcoefficient (powerOfTwo_pos 1074)) (by decide)
    _ = powerOfTwo (1 + (decimal.coefficient.log2 + 1 + 1074)) := by
        rw [powerOfTwo_add 1, powerOfTwo_add (decimal.coefficient.log2 + 1), one]
        rfl
    _ ≤ 10 ^ (-decimal.exponent).toNat := powerOfTwo_le_ten_pow (by omega)

/-- A decimal is read as the nearest double, also where its power of ten is not computed. -/
theorem ofDecimal_eq_round (negative : Bool) (decimal : Decimal) :
    ofDecimal negative decimal =
      round negative (decimal.coefficient * 10 ^ decimal.exponent.toNat * one)
        (10 ^ (-decimal.exponent).toNat) := by
  rw [ofDecimal]
  split
  case isTrue hcoefficient =>
    refine (round_of_nearest ?_ representable_zero negative).symm
    rw [hcoefficient, Nat.zero_mul, Nat.zero_mul]
    exact nearestUnits_eq_zero (Nat.pow_pos (by decide))
  case isFalse hcoefficient =>
    split
    case isTrue hgreat =>
      exact (round_of_limit_le (limit_le_nearestDecimal hcoefficient hgreat) negative).symm
    case isFalse =>
      split
      case isTrue hsmall =>
        exact (round_of_nearest (nearestDecimal_eq_zero hsmall) representable_zero negative).symm
      case isFalse => rfl

/-- A decimal is read as the double whose magnitude is nearest to it. -/
theorem ofDecimal_of_nearest {decimal : Decimal} {units : Nat} (h : nearestDecimal decimal = units)
    (representable : Representable units) (negative : Bool) :
    ofDecimal negative decimal = some ⟨negative, units, representable⟩ := by
  rw [ofDecimal_eq_round]
  exact round_of_nearest h representable negative

/-- Zeros at the end of the coefficient count as much as in the power of ten. -/
theorem nearestDecimal_mul_pow (coefficient zeros : Nat) (exponent : Int) :
    nearestDecimal ⟨coefficient * 10 ^ zeros, exponent⟩ =
      nearestDecimal ⟨coefficient, exponent + zeros⟩ := by
  refine nearestUnits_congr (Nat.pow_pos (by decide)) (Nat.pow_pos (by decide)) ?_
  have hpowers : zeros + exponent.toNat + (-(exponent + zeros)).toNat =
      (exponent + zeros).toNat + (-exponent).toNat := by omega
  calc coefficient * 10 ^ zeros * 10 ^ exponent.toNat * one * 10 ^ (-(exponent + zeros)).toNat
      = coefficient * 10 ^ (zeros + exponent.toNat + (-(exponent + zeros)).toNat) * one := by ring
    _ = coefficient * 10 ^ (exponent + zeros).toNat * one * 10 ^ (-exponent).toNat := by
        rw [hpowers]
        ring

end AccessControl.Double
