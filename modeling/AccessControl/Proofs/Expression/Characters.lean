import AccessControl.Expression

/-!
# Blanks, names and punctuation

No blank character belongs to a bare name, so that a bare name ends where blanks begin, and the
punctuation of expressions belongs to neither. The ranges of the two tables are compared with each
other once; the rest is arithmetic of code points.
-/

namespace AccessControl.Expression

/-- A character of a list of ranges lies in one of them. -/
theorem exists_range {ranges : List (Nat × Nat)} {code : Nat}
    (h : ranges.any (fun range => range.1 ≤ code && code ≤ range.2) = true) :
    ∃ range ∈ ranges, range.1 ≤ code ∧ code ≤ range.2 := by
  obtain ⟨range, hmem, hrange⟩ := List.any_eq_true.mp h
  simp only [Bool.and_eq_true, decide_eq_true_eq] at hrange
  exact ⟨range, hmem, hrange⟩

/-- No range of blanks meets one of alphanumeric characters. -/
theorem blankRanges_apart : ∀ blank ∈ Text.blankRanges, ∀ other ∈ Text.alphanumericRanges,
    blank.2 < other.1 ∨ other.2 < blank.1 := by
  decide +kernel

/-- The dollar sign, the digits, the capital letters, the underscore and the small letters of
ASCII. -/
def asciiRanges : List (Nat × Nat) :=
  [(0x24, 0x24), (0x30, 0x39), (0x41, 0x5A), (0x5F, 0x5F), (0x61, 0x7A)]

/-- No range of blanks meets the letters and digits of ASCII, the underscore or the dollar sign. -/
theorem blankRanges_apart_ascii : ∀ blank ∈ Text.blankRanges,
    ∀ other ∈ asciiRanges, blank.2 < other.1 ∨ other.2 < blank.1 := by
  decide +kernel

/-- The letters and digits of ASCII, the underscore and the dollar sign lie in five ranges. -/
theorem ascii_range {c : Char} (h : c.isAlphanum = true ∨ c = '_' ∨ c = '$') :
    ∃ range ∈ asciiRanges, range.1 ≤ c.toNat ∧ c.toNat ≤ range.2 := by
  simp only [asciiRanges, List.mem_cons, List.not_mem_nil, or_false, exists_eq_or_imp,
    exists_eq_left]
  rcases h with halphanum | rfl | rfl
  · have hkinds : (c.isUpper || c.isLower || c.isDigit) = true := halphanum
    simp only [Bool.or_eq_true] at hkinds
    rcases hkinds with (hupper | hlower) | hdigit
    · have hrange : 'A'.val ≤ c.val ∧ c.val ≤ 'Z'.val := of_decide_eq_true hupper
      simp only [UInt32.le_iff_toNat_le] at hrange
      exact Or.inr (Or.inr (Or.inl hrange))
    · have hrange : 'a'.val ≤ c.val ∧ c.val ≤ 'z'.val :=
        (Bool.and_eq_true_iff.mp hlower).imp of_decide_eq_true of_decide_eq_true
      simp only [UInt32.le_iff_toNat_le] at hrange
      exact Or.inr (Or.inr (Or.inr (Or.inr hrange)))
    · exact Or.inr (Or.inl (Char.isDigit_iff_toNat.mp hdigit))
  · decide
  · decide

/-- No blank character belongs to a bare name. -/
theorem isBare_of_isBlank {c : Char} (h : Text.isBlank c = true) : isBare c = false := by
  obtain ⟨blank, hblank, hle⟩ := exists_range h
  cases hbare : isBare c with
  | false => rfl
  | true =>
    simp only [isBare, Text.isAlphanumeric, Bool.or_eq_true, beq_iff_eq] at hbare
    rcases hbare with ((hbare | hbare) | hbare) | hbare
    case inl.inl.inr =>
      obtain ⟨other, hother, hrange⟩ := exists_range hbare
      have hapart := blankRanges_apart blank hblank other hother
      omega
    all_goals
      have hascii : c.isAlphanum = true ∨ c = '_' ∨ c = '$' := by
        simp only [hbare, true_or, or_true]
      obtain ⟨other, hother, hrange⟩ := ascii_range hascii
      have hapart := blankRanges_apart_ascii blank hblank other hother
      omega

/-- The connectives, parentheses and quotes of expressions. -/
def punctuation : List Char := ['(', ')', '&', '|', '\'', '"']

/-- No punctuation belongs to a bare name. -/
theorem isBare_punctuation : ∀ c ∈ punctuation, isBare c = false := by
  simp only [punctuation, List.forall_mem_cons, List.not_mem_nil, false_implies, implies_true,
    and_true]
  decide +kernel

/-- No punctuation is blank. -/
theorem isBlank_punctuation : ∀ c ∈ punctuation, Text.isBlank c = false := by
  simp only [punctuation, List.forall_mem_cons, List.not_mem_nil, false_implies, implies_true,
    and_true]
  decide +kernel

end AccessControl.Expression
