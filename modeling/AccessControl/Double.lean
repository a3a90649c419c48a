/-!
# Finite binary64 numbers as exact values

A double is a sign and a whole number of units of `2 ^ (-1074)`, the smallest positive value. Every
operation is computed exactly and then rounded once, to the nearest double, a tie going to the even
one; a result beyond the largest double is no result. So a double is never an infinity or a
not-a-number, and no machine float is involved.
-/

namespace AccessControl

namespace Double

/-- A power of two. -/
def powerOfTwo (exponent : Nat) : Nat := Nat.pow 2 exponent

/-- A quotient rounded to the nearest whole number; a half goes to the even neighbour. -/
def nearestQuotient (num den : Nat) : Nat :=
  let quotient := num / den
  let twice := 2 * (num % den)
  if twice < den ∨ (twice = den ∧ quotient % 2 = 0) then quotient else quotient + 1

/-- The distance of neighbouring doubles at a magnitude, in units: 53 binary digits are kept. -/
def spacing (whole : Nat) : Nat := powerOfTwo (whole.log2 - 52)

/-- The magnitude nearest to a quotient of units among those with 53 binary digits. -/
def nearestUnits (num den : Nat) : Nat :=
  let step := spacing (num / den)
  nearestQuotient num (den * step) * step

/-- The first magnitude too large to be a double, in units: it is `2 ^ 1024`. -/
def limit : Nat := powerOfTwo 2098

/-- The units of one. -/
def one : Nat := powerOfTwo 1074

/-- Magnitudes that are doubles: below the limit, with at most 53 significant binary digits. -/
def Representable (units : Nat) : Prop := units < limit ∧ spacing units ∣ units

instance (units : Nat) : Decidable (Representable units) :=
  inferInstanceAs (Decidable (units < limit ∧ spacing units ∣ units))

/-- Powers of two are positive. -/
theorem powerOfTwo_pos (exponent : Nat) : 0 < powerOfTwo exponent := Nat.two_pow_pos exponent

/-- A greater exponent gives a greater power of two. -/
theorem powerOfTwo_lt {j k : Nat} (h : j < k) : powerOfTwo j < powerOfTwo k :=
  Nat.pow_lt_pow_right (by omega) h

/-- Rounding does not exceed a whole number that the exact quotient does not exceed. -/
theorem nearestQuotient_le {num den bound : Nat} (h : num ≤ bound * den) :
    nearestQuotient num den ≤ bound := by
  rcases Nat.eq_zero_or_pos den with hden | hden
  · subst hden
    have hnum : num = 0 := by omega
    simp [nearestQuotient, hnum]
  · have hle : num / den ≤ bound := Nat.div_le_of_le_mul (by rw [Nat.mul_comm]; exact h)
    simp only [nearestQuotient]
    split
    · exact hle
    · rename_i hround
      have hsplit : den * (num / den) + num % den = num := Nat.div_add_mod num den
      rcases Nat.lt_or_eq_of_le hle with hlt | heq
      · exact hlt
      · rw [heq, Nat.mul_comm] at hsplit
        have : num % den = 0 := by omega
        omega

/-- Rounding to 53 digits does not exceed a power of two that the exact quotient does not exceed. -/
theorem nearestUnits_le {num den k : Nat} (h : num ≤ powerOfTwo k * den) :
    nearestUnits num den ≤ powerOfTwo k := by
  simp only [powerOfTwo, Nat.pow_eq] at h ⊢
  have hexp : (num / den).log2 - 52 ≤ k := by
    have hw : num / den ≤ 2 ^ k := by
      rcases Nat.eq_zero_or_pos den with hden | hden
      · simp [hden]
      · exact Nat.div_le_of_le_mul (by rw [Nat.mul_comm]; exact h)
    by_cases hzero : num / den = 0
    · simp [hzero]
    · have : (num / den).log2 < k + 1 := (Nat.log2_lt hzero).mpr
        (Nat.lt_of_le_of_lt hw (Nat.pow_lt_pow_right (by omega) (by omega)))
      omega
  have hpow : 2 ^ k = 2 ^ (k - ((num / den).log2 - 52)) * 2 ^ ((num / den).log2 - 52) := by
    rw [← Nat.pow_add]; congr 1; omega
  simp only [nearestUnits, spacing, powerOfTwo, Nat.pow_eq]
  rw [hpow]
  refine Nat.mul_le_mul_right _ (nearestQuotient_le ?_)
  rw [Nat.mul_comm den, ← Nat.mul_assoc, ← hpow]
  exact h

/-- A magnitude of at most `2 ^ 53` steps of a power of two keeps 53 binary digits. -/
theorem spacing_dvd_mul {count exponent : Nat} (h : count ≤ powerOfTwo 53) :
    spacing (count * powerOfTwo exponent) ∣ count * powerOfTwo exponent := by
  simp only [powerOfTwo, Nat.pow_eq] at h ⊢
  rcases Nat.lt_or_eq_of_le h with hlt | heq
  · by_cases hzero : count * 2 ^ exponent = 0
    · simp [hzero]
    · have hbound : count * 2 ^ exponent < 2 ^ (exponent + 53) := by
        rw [Nat.pow_add, Nat.mul_comm (2 ^ exponent)]
        exact Nat.mul_lt_mul_of_pos_right hlt (Nat.two_pow_pos exponent)
      have hlog := (Nat.log2_lt hzero).mpr hbound
      exact Nat.dvd_trans (Nat.pow_dvd_pow 2 (by omega)) (Nat.dvd_mul_left _ _)
  · have hpow : count * 2 ^ exponent = 2 ^ (53 + exponent) := by rw [heq, Nat.pow_add]
    rw [hpow, spacing, powerOfTwo, Nat.pow_eq, Nat.log2_two_pow]
    exact Nat.pow_dvd_pow 2 (by omega)

/-- What rounding gives has 53 binary digits. -/
theorem spacing_dvd_nearestUnits (num den : Nat) :
    spacing (nearestUnits num den) ∣ nearestUnits num den := by
  simp only [nearestUnits]
  refine spacing_dvd_mul ?_
  rcases Nat.eq_zero_or_pos den with hden | hden
  · subst hden
    simp only [powerOfTwo, Nat.pow_eq]
    simp only [nearestQuotient, Nat.zero_mul, Nat.div_zero]
    split <;> omega
  · refine nearestQuotient_le ?_
    have hlog : num / den < 2 ^ ((num / den).log2 + 1) := Nat.lt_log2_self
    have hpow : 2 ^ ((num / den).log2 + 1) ≤ 2 ^ 53 * 2 ^ ((num / den).log2 - 52) := by
      rw [← Nat.pow_add]
      exact Nat.pow_le_pow_right (by omega) (by omega)
    have hlt : num < 2 ^ 53 * 2 ^ ((num / den).log2 - 52) * den :=
      (Nat.div_lt_iff_lt_mul hden).mp (Nat.lt_of_lt_of_le hlog hpow)
    simp only [spacing, powerOfTwo, Nat.pow_eq]
    rw [Nat.mul_comm den, ← Nat.mul_assoc]
    exact Nat.le_of_lt hlt

end Double

/-- A finite binary64 number. Zero has both signs. -/
structure Double where
  /-- The sign: set for the numbers below zero and for one of the two zeros. -/
  negative : Bool
  /-- The magnitude in units of `2 ^ (-1074)`. -/
  units : Nat
  /-- The magnitude is one of those that have 53 binary digits. -/
  representable : Double.Representable units
  deriving DecidableEq

namespace Double

/-- Zero is below the limit. -/
theorem limit_pos : 0 < limit := powerOfTwo_pos 2098

/-- Zero is a double. -/
theorem representable_zero : Representable 0 := ⟨limit_pos, Nat.dvd_zero _⟩

/-- Zero of a sign. -/
def zero (negative : Bool) : Double := ⟨negative, 0, representable_zero⟩

instance : Inhabited Double := ⟨zero false⟩

/-- The double nearest to a quotient of units, if that is not beyond the largest double. -/
def round (negative : Bool) (num den : Nat) : Option Double :=
  if h : nearestUnits num den < limit then
    some ⟨negative, nearestUnits num den, h, spacing_dvd_nearestUnits num den⟩
  else none

/-- Rounding keeps the bound of a number scaled by a power of two. -/
theorem nearestUnits_mul_pow_le {n bits exponent : Nat} (h : n ≤ powerOfTwo bits) :
    nearestUnits (n * powerOfTwo exponent) 1 ≤ powerOfTwo (bits + exponent) :=
  nearestUnits_le (by
    simp only [powerOfTwo, Nat.pow_eq]
    rw [Nat.mul_one, Nat.pow_add]
    exact Nat.mul_le_mul_right _ h)

/-- The nearest double to an integer of 64 bits is below the limit. -/
theorem representable_ofNat {n : Nat} (h : n ≤ 18446744073709551616) :
    Representable (nearestUnits (n * one) 1) := by
  have hbits : n ≤ powerOfTwo 64 := h
  refine ⟨Nat.lt_of_le_of_lt (nearestUnits_mul_pow_le hbits) ?_, spacing_dvd_nearestUnits _ _⟩
  exact powerOfTwo_lt (by omega)

/-- The double nearest to a 64-bit integer of either kind. -/
def ofInt (n : Int) (h : n.natAbs ≤ 18446744073709551616) : Double :=
  ⟨decide (n < 0), nearestUnits (n.natAbs * one) 1, representable_ofNat h⟩

/-- The exact value in units. Both zeros have the value zero. -/
def signedUnits (x : Double) : Int := if x.negative then -(x.units : Int) else x.units

/-- The order of the exact values. -/
def order (x y : Double) : Ordering := compare x.signedUnits y.signedUnits

/-- Whether the value is zero, of either sign. -/
def isZero (x : Double) : Bool := x.units == 0

/-- The number of the opposite sign. -/
def neg (x : Double) : Double := { x with negative := !x.negative }

/-- The rounded sum. An exact sum of zero is negative only if both summands are. -/
def add (x y : Double) : Option Double :=
  let sum := x.signedUnits + y.signedUnits
  if sum = 0 then some (zero (x.negative && y.negative)) else round (decide (sum < 0)) sum.natAbs 1

/-- The rounded difference. -/
def sub (x y : Double) : Option Double := x.add y.neg

/-- The rounded product. -/
def mul (x y : Double) : Option Double := round (x.negative != y.negative) (x.units * y.units) one

/-- The rounded quotient; the divisor is not zero. -/
def div (x y : Double) : Option Double := round (x.negative != y.negative) (x.units * one) y.units

/-- What is left of `x` after taking away `y` as often as it fits into it, with the sign of `x`;
the divisor is not zero. The exact remainder is a double, so rounding leaves it alone. -/
def rem (x y : Double) : Option Double := round x.negative (x.units % y.units) 1

end Double

end AccessControl
