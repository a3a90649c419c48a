import AccessControl.Proofs.Double.Rounding
import Mathlib.Data.Nat.Log

/-!
# Rounding keeps the order

A greater number is never rounded to a smaller double. So the nearest doubles of two integers are
either the same or in the order of the integers, and comparing them tells the integers apart unless
rounding has made them one.
-/

namespace AccessControl.Double

/-- Rounding adds at most one to the whole part of a quotient. -/
theorem nearestQuotient_le_succ (num den : Nat) : nearestQuotient num den ≤ num / den + 1 := by
  simp only [nearestQuotient]
  split
  · exact Nat.le_succ _
  · exact Nat.le_refl _

/-- A greater quotient is not rounded to less. -/
theorem nearestQuotient_mono {num num' : Nat} (h : num ≤ num') (den : Nat) :
    nearestQuotient num den ≤ nearestQuotient num' den := by
  have hdiv : num / den ≤ num' / den := Nat.div_le_div_right h
  rcases Nat.lt_or_eq_of_le hdiv with hlt | heq
  · calc nearestQuotient num den ≤ num / den + 1 := nearestQuotient_le_succ num den
      _ ≤ num' / den := hlt
      _ ≤ nearestQuotient num' den := div_le_nearestQuotient num' den
  · have hmod : num % den ≤ num' % den := by
      have hsplit := Nat.div_add_mod num den
      have hsplit' := Nat.div_add_mod num' den
      rw [← heq] at hsplit'
      omega
    simp only [nearestQuotient, ← heq]
    split <;> split <;> omega

/-- A greater ratio is not rounded to a smaller magnitude. -/
theorem nearestUnits_mono {num num' den : Nat} (hden : 0 < den) (h : num ≤ num') :
    nearestUnits num den ≤ nearestUnits num' den := by
  have hdiv : num / den ≤ num' / den := Nat.div_le_div_right h
  have hlog : (num / den).log2 ≤ (num' / den).log2 := by
    rw [Nat.log2_eq_log_two, Nat.log2_eq_log_two]
    exact Nat.log_mono_right hdiv
  rcases Nat.lt_or_eq_of_le hlog with hlt | heq
  · have hnonzero : num' / den ≠ 0 := by
      intro hzero
      rw [hzero] at hlt
      exact Nat.not_lt_zero _ hlt
    have hbelow : num ≤ powerOfTwo (num' / den).log2 * den :=
      Nat.le_of_lt ((Nat.div_lt_iff_lt_mul hden).mp
        (Nat.lt_of_lt_of_le Nat.lt_log2_self (Nat.pow_le_pow_right (by decide) hlt)))
    have habove : powerOfTwo (num' / den).log2 * den ≤ num' :=
      (Nat.le_div_iff_mul_le hden).mp (Nat.log2_self_le hnonzero)
    exact Nat.le_trans (nearestUnits_le hbelow) (powerOfTwo_le_nearestUnits hden habove)
  · have hstep : spacing (num / den) = spacing (num' / den) := by rw [spacing, spacing, heq]
    simp only [nearestUnits, hstep]
    exact Nat.mul_le_mul_right _ (nearestQuotient_mono h _)

variable {a b : Int}

/-- The magnitude of the double nearest to an integer. -/
def unitsOf (value : Int) : Nat := nearestUnits (value.natAbs * one) 1

/-- The magnitudes are in the order of those of the integers. -/
theorem unitsOf_mono (h : a.natAbs ≤ b.natAbs) : unitsOf a ≤ unitsOf b :=
  nearestUnits_mono Nat.one_pos (Nat.mul_le_mul_right one h)

/-- Only zero is rounded to zero. -/
theorem unitsOf_pos (h : a ≠ 0) : 0 < unitsOf a := by
  have hone : powerOfTwo 1074 * 1 ≤ a.natAbs * one := by
    rw [Nat.mul_one]
    exact Nat.le_mul_of_pos_left one (Int.natAbs_pos.mpr h)
  exact Nat.lt_of_lt_of_le (powerOfTwo_pos 1074) (powerOfTwo_le_nearestUnits Nat.one_pos hone)

/-- The value of the double nearest to an integer has the sign of the integer. -/
theorem signedUnits_ofInt (h : a.natAbs ≤ 18446744073709551616) :
    (ofInt a h).signedUnits = if a < 0 then -(unitsOf a : Int) else unitsOf a := by
  rw [signedUnits, ofInt]
  by_cases hneg : a < 0
  · simp only [hneg, decide_true, if_true]
    rfl
  · simp only [hneg, decide_false, Bool.false_eq_true, if_false]
    rfl

/-- The nearest doubles of integers are in their order or the same. -/
theorem signedUnits_ofInt_mono (ha : a.natAbs ≤ 18446744073709551616)
    (hb : b.natAbs ≤ 18446744073709551616) (h : a ≤ b) :
    (ofInt a ha).signedUnits ≤ (ofInt b hb).signedUnits := by
  rw [signedUnits_ofInt, signedUnits_ofInt]
  by_cases hneg : b < 0
  · have hle : unitsOf b ≤ unitsOf a := unitsOf_mono (by omega)
    rw [if_pos hneg, if_pos (by omega)]
    omega
  · rw [if_neg hneg]
    by_cases hneg' : a < 0
    · rw [if_pos hneg']
      omega
    · have hle : unitsOf a ≤ unitsOf b := unitsOf_mono (by omega)
      rw [if_neg hneg']
      omega

/-- The doubles nearest to integers are the same if their values are. -/
theorem ofInt_eq_iff (ha : a.natAbs ≤ 18446744073709551616)
    (hb : b.natAbs ≤ 18446744073709551616) :
    ofInt a ha = ofInt b hb ↔ (ofInt a ha).signedUnits = (ofInt b hb).signedUnits := by
  refine ⟨fun h => congrArg signedUnits h, fun h => ?_⟩
  have hpos : ∀ value : Int, value < 0 → 0 < unitsOf value := fun value hvalue =>
    unitsOf_pos (Int.ne_of_lt hvalue)
  rw [signedUnits_ofInt, signedUnits_ofInt] at h
  have hsign : a < 0 ↔ b < 0 := by
    constructor
    · intro hneg
      have hunits := hpos a hneg
      by_contra hneg'
      rw [if_pos hneg, if_neg hneg'] at h
      omega
    · intro hneg'
      have hunits := hpos b hneg'
      by_contra hneg
      rw [if_neg hneg, if_pos hneg'] at h
      omega
  have hunits : unitsOf a = unitsOf b := by
    by_cases hneg : a < 0
    · rw [if_pos hneg, if_pos (hsign.mp hneg)] at h
      omega
    · rw [if_neg hneg, if_neg (fun hneg' => hneg (hsign.mpr hneg'))] at h
      omega
  rw [ofInt, ofInt, Double.mk.injEq]
  exact ⟨decide_eq_decide.mpr hsign, hunits⟩

/-- Comparing the nearest doubles of two integers compares the integers, unless these have the same
nearest double. -/
theorem order_ofInt (ha : a.natAbs ≤ 18446744073709551616)
    (hb : b.natAbs ≤ 18446744073709551616) :
    (ofInt a ha).order (ofInt b hb) = if ofInt a ha = ofInt b hb then .eq else compare a b := by
  rw [order]
  split
  case isTrue h => rw [h, compare_eq_iff_eq]
  case isFalse h =>
    rw [ofInt_eq_iff] at h
    rcases lt_trichotomy a b with hlt | rfl | hgt
    · have hle := signedUnits_ofInt_mono ha hb (Int.le_of_lt hlt)
      rw [compare_lt_iff_lt.mpr hlt, compare_lt_iff_lt]
      omega
    · exact absurd rfl h
    · have hle := signedUnits_ofInt_mono hb ha (Int.le_of_lt hgt)
      rw [compare_gt_iff_gt.mpr hgt, compare_gt_iff_gt]
      omega

/-- The double nearest to the opposite of a positive integer has the opposite sign. -/
theorem neg_ofInt (h : a.natAbs ≤ 18446744073709551616) (hpos : 0 < a) :
    (ofInt a h).neg = ofInt (-a) (by rwa [Int.natAbs_neg]) := by
  have hsign : decide (-a < 0) = !decide (a < 0) := by
    rw [decide_eq_true (show -a < 0 by omega), decide_eq_false (show ¬a < 0 by omega)]
    rfl
  simp only [neg, ofInt, hsign, Int.natAbs_neg]

end AccessControl.Double
