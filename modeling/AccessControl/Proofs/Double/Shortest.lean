import AccessControl.Proofs.Double.Rounding
import Mathlib.Data.List.TakeWhile

/-!
# The digits of doubles

The decimal digits of a whole number spell it, and zeros at their end can be left to the power of
ten. The digits with which a double is written stand for a decimal that the double is nearest to:
either they were tested for that, or they are the exact expansion.
-/

namespace AccessControl

namespace Decimal

/-- Digits behind a value so far make it greater by their places. -/
theorem foldl_digitValue (digits : List Char) (value : Nat) :
    digits.foldl (fun value digit => 10 * value + digitValue digit) value =
      value * 10 ^ digits.length + valueOf digits := by
  induction digits generalizing value with
  | nil => simp [valueOf]
  | cons digit digits ih =>
    rw [valueOf, List.foldl_cons, List.foldl_cons, ih, ih (10 * 0 + digitValue digit),
      List.length_cons, Nat.pow_succ']
    ring

/-- What two lists of digits spell together. -/
theorem valueOf_append (front back : List Char) :
    valueOf (front ++ back) = valueOf front * 10 ^ back.length + valueOf back := by
  rw [valueOf, List.foldl_append, foldl_digitValue, ← valueOf]

/-- Zeros spell nothing. -/
theorem valueOf_replicate_zero (zeros : Nat) : valueOf (List.replicate zeros '0') = 0 := by
  induction zeros with
  | zero => rfl
  | succ zeros ih =>
    rw [List.replicate_succ', valueOf_append, ih]
    rfl

/-- Zeros before digits do not count. -/
theorem valueOf_zeros_append (zeros : Nat) (digits : List Char) :
    valueOf (List.replicate zeros '0' ++ digits) = valueOf digits := by
  rw [valueOf_append, valueOf_replicate_zero, Nat.zero_mul, Nat.zero_add]

/-- Zeros behind digits move them by as many places. -/
theorem valueOf_append_zeros (digits : List Char) (zeros : Nat) :
    valueOf (digits ++ List.replicate zeros '0') = valueOf digits * 10 ^ zeros := by
  rw [valueOf_append, valueOf_replicate_zero, List.length_replicate, Nat.add_zero]

/-- The digit of a number below ten stands for the number. -/
theorem digitValue_digitChar : ∀ digit < 10, digitValue (Nat.digitChar digit) = digit := by
  decide

/-- The decimal digits of a number spell it. -/
theorem valueOf_toDigits (number : Nat) : valueOf (Nat.toDigits 10 number) = number := by
  induction number using Nat.strongRecOn with
  | ind number ih =>
    rw [Nat.toDigits_eq_if (by decide)]
    split
    case isTrue hlt => exact (Nat.zero_add _).trans (digitValue_digitChar number hlt)
    case isFalse hle =>
      have hdigit := digitValue_digitChar (number % 10) (Nat.mod_lt _ (by decide))
      rw [valueOf_append, ih (number / 10) (by omega), List.length_singleton, Nat.pow_one,
        valueOf, List.foldl_cons, List.foldl_nil, hdigit]
      omega

/-- Zeros are digits. -/
theorem isDigit_of_mem_zeros {zeros : Nat} {c : Char} (h : c ∈ List.replicate zeros '0') :
    c.isDigit = true := by
  rw [List.eq_of_mem_replicate h]
  decide

/-- Digits without the zeros at their end, and these zeros. -/
theorem exists_zeros (digits : List Char) :
    ∃ zeros, digits =
      (digits.reverse.dropWhile (· == '0')).reverse ++ List.replicate zeros '0' := by
  refine ⟨(digits.reverse.takeWhile (· == '0')).length, ?_⟩
  have hzero : ∀ c ∈ digits.reverse.takeWhile (· == '0'), c = '0' := fun c hc =>
    beq_iff_eq.mp (List.mem_takeWhile_imp (p := (· == '0')) hc)
  have hzeros : digits.reverse.takeWhile (· == '0') =
      List.replicate (digits.reverse.takeWhile (· == '0')).length '0' :=
    List.eq_replicate_iff.mpr ⟨rfl, hzero⟩
  calc digits
      = (digits.reverse.takeWhile (· == '0') ++ digits.reverse.dropWhile (· == '0')).reverse := by
        rw [List.takeWhile_append_dropWhile, List.reverse_reverse]
    _ = (digits.reverse.dropWhile (· == '0')).reverse ++
          (digits.reverse.takeWhile (· == '0')).reverse := List.reverse_append
    _ = _ := by
        conv_lhs => rw [hzeros, List.reverse_replicate]

end Decimal

namespace Double

/-- A unit is `5 ^ 1074` times `10 ^ (-1074)`. -/
theorem one_mul_unitCoefficient {places : Nat} (h : places = 1074) :
    one * unitCoefficient = 10 ^ places := by
  rw [one, unitCoefficient, ← h]
  exact (Nat.mul_pow 2 5 places).symm

/-- The magnitude nearest to a decimal of at least `10 ^ (-1074)`, by whole numbers. -/
theorem nearestDecimal_scaled (coefficient drop : Nat) :
    nearestDecimal ⟨coefficient, (drop : Int) - 1074⟩ =
      nearestUnits (coefficient * 10 ^ drop) unitCoefficient := by
  obtain ⟨places, hplaces⟩ : ∃ places : Nat, places = 1074 := ⟨_, rfl⟩
  have hpowers : ((drop : Int) - 1074).toNat + places =
      drop + (-((drop : Int) - 1074)).toNat := by omega
  refine nearestUnits_congr (Nat.pow_pos (by decide)) unitCoefficient_pos ?_
  calc coefficient * 10 ^ ((drop : Int) - 1074).toNat * one * unitCoefficient
      = coefficient * 10 ^ (((drop : Int) - 1074).toNat + places) := by
        rw [Nat.pow_add, Nat.mul_assoc, one_mul_unitCoefficient hplaces, Nat.mul_assoc]
    _ = coefficient * 10 ^ drop * 10 ^ (-((drop : Int) - 1074)).toNat := by
        rw [hpowers, Nat.pow_add, Nat.mul_assoc]

namespace Digits

/-- The decimal that digits stand for. -/
def toDecimal (number : Digits) : Decimal :=
  ⟨Decimal.valueOf number.digits, number.exponent - (number.digits.length - 1 : Nat)⟩

/-- Digits that can be written: there is one, and all are decimal digits. -/
structure Proper (number : Digits) : Prop where
  /-- There is a digit. -/
  ne_nil : number.digits ≠ []
  /-- All are decimal digits. -/
  isDigit : ∀ c ∈ number.digits, c.isDigit = true

/-- The digits of a coefficient are those of its decimal expansion up to zeros at its end. -/
theorem exists_ofScaled_digits {coefficient : Nat} (h : coefficient ≠ 0) (drop : Nat) :
    (ofScaled coefficient drop).Proper ∧ ∃ zeros : Nat,
      coefficient = Decimal.valueOf (ofScaled coefficient drop).digits * 10 ^ zeros ∧
        (ofScaled coefficient drop).toDecimal.exponent = (drop : Int) - 1074 + zeros := by
  obtain ⟨zeros, hzeros⟩ := Decimal.exists_zeros (Nat.toDigits 10 coefficient)
  have hvalue : coefficient = Decimal.valueOf (ofScaled coefficient drop).digits * 10 ^ zeros := by
    rw [ofScaled, ← Decimal.valueOf_append_zeros, ← hzeros, Decimal.valueOf_toDigits]
  have hne : (ofScaled coefficient drop).digits ≠ [] := by
    intro hnil
    rw [hnil] at hvalue
    exact h (hvalue.trans (Nat.zero_mul _))
  have hpos : 0 < (ofScaled coefficient drop).digits.length := List.length_pos_iff.mpr hne
  have hlength : (Nat.toDigits 10 coefficient).length =
      (ofScaled coefficient drop).digits.length + zeros := by
    conv_lhs => rw [hzeros]
    rw [List.length_append, List.length_replicate, ofScaled]
  refine ⟨⟨hne, fun c hc => ?_⟩, zeros, hvalue, ?_⟩
  · have hmem : c ∈ Nat.toDigits 10 coefficient := by
      rw [hzeros]
      exact List.mem_append_left _ hc
    exact Nat.isDigit_of_mem_toDigits (by decide) (by decide) hmem
  · have hexponent : (ofScaled coefficient drop).exponent =
        (drop : Int) - 1074 + ((Nat.toDigits 10 coefficient).length - 1 : Nat) := rfl
    simp only [toDecimal, hexponent]
    omega

/-- The magnitude nearest to the digits of a scaled coefficient. -/
theorem nearestDecimal_ofScaled {coefficient : Nat} (h : coefficient ≠ 0) (drop : Nat) :
    nearestDecimal (ofScaled coefficient drop).toDecimal =
      nearestUnits (coefficient * 10 ^ drop) unitCoefficient := by
  obtain ⟨-, zeros, hvalue, hexponent⟩ := exists_ofScaled_digits h drop
  have hdecimal : (ofScaled coefficient drop).toDecimal =
      ⟨Decimal.valueOf (ofScaled coefficient drop).digits, (drop : Int) - 1074 + zeros⟩ := by
    rw [← hexponent]
    rfl
  rw [hdecimal, ← nearestDecimal_mul_pow, ← hvalue, nearestDecimal_scaled]

/-- What is left after dropping digits reads back. -/
theorem exists_of_shortened? {units drop : Nat} {number : Digits}
    (h : shortened? units drop = some number) :
    ∃ coefficient, number = ofScaled coefficient drop ∧
      readsBack units coefficient drop = true := by
  rw [shortened?] at h
  obtain ⟨coefficient, hfind, rfl⟩ := Option.map_eq_some_iff.mp h
  exact ⟨coefficient, rfl, List.find?_some (p := fun c => readsBack units c drop) hfind⟩

/-- The digits with which a magnitude is written are those of a scaled coefficient to which the
magnitude is nearest. -/
theorem exists_shortest {units : Nat} (h : Representable units) :
    ∃ coefficient drop, shortest units = ofScaled coefficient drop ∧
      nearestUnits (coefficient * 10 ^ drop) unitCoefficient = units := by
  simp only [shortest]
  generalize (Nat.toDigits 10 (units * unitCoefficient)).length = width
  cases hsome : (List.range 17).findSome? (fun count =>
      shortened? units (width - (count + 1))) with
  | none =>
    refine ⟨units * unitCoefficient, 0, rfl, ?_⟩
    rw [Nat.pow_zero, Nat.mul_one]
    exact nearestUnits_mul unitCoefficient_pos h.2
  | some number =>
    obtain ⟨count, -, hnumber⟩ := List.exists_of_findSome?_eq_some hsome
    obtain ⟨coefficient, hscaled, hreads⟩ := exists_of_shortened? hnumber
    exact ⟨coefficient, _, hscaled, beq_iff_eq.mp hreads⟩

/-- A magnitude that is not zero is written with digits that stand for a decimal that it is nearest
to. -/
theorem nearestDecimal_shortest {units : Nat} (h : Representable units) (hne : units ≠ 0) :
    (shortest units).Proper ∧ nearestDecimal (shortest units).toDecimal = units := by
  obtain ⟨coefficient, drop, hshortest, hnearest⟩ := exists_shortest h
  have hcoefficient : coefficient ≠ 0 := by
    intro hzero
    rw [hzero, Nat.zero_mul, nearestUnits_eq_zero unitCoefficient_pos] at hnearest
    exact hne hnearest.symm
  rw [hshortest, nearestDecimal_ofScaled hcoefficient]
  exact ⟨(exists_ofScaled_digits hcoefficient drop).1, hnearest⟩

end Digits

end Double

end AccessControl
