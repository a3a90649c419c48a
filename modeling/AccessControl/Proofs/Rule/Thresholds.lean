import AccessControl.Proofs.Rule.Binding
import AccessControl.Proofs.Rule.Relations
import AccessControl.Proofs.Rule.Rereading
import AccessControl.Proofs.Rule.Seams

/-!
# Integer thresholds

A rule may compare an attribute with an integer that is written in it. An integer below `2 ^ 63` in
magnitude is meant exactly, and comparing it with an integer is exact. What is written without a
sign and does not fit a signed integer of 64 bits is a double. So a threshold from `2 ^ 63` on, and
`-2 ^ 63`, which is the negative of one, is compared as an integer would be, but for the attributes
that have the same nearest double: they count as equal to it.
-/

namespace AccessControl

namespace Number

variable {a b : Int}

/-- The number that an integer stands for where it is written in a rule. -/
def asThreshold (value : Int) (fits : Fits value) : Number :=
  if value.natAbs < 9223372036854775808 then .integer value fits
  else .double (integer value fits).toDouble

/-- Equal integers stand for the same number. -/
theorem asThreshold_congr {ha : Fits a} {hb : Fits b} (h : a = b) :
    asThreshold a ha = asThreshold b hb := by
  subst h
  rfl

/-- An integer is compared with a threshold as with the integer that is written, unless the
threshold is a double and nearest to both. -/
theorem order_asThreshold (ha : Fits a) (hb : Fits b) :
    (integer a ha).order (asThreshold b hb) =
      if 9223372036854775808 ≤ b.natAbs ∧ (integer a ha).toDouble = (integer b hb).toDouble then .eq
      else compare a b := by
  rw [asThreshold]
  split
  case isTrue hsmall =>
    rw [if_neg (fun h => Nat.not_le.mpr hsmall h.1), order_integer]
  case isFalse hgreat =>
    simp only [Nat.not_lt.mp hgreat, true_and]
    exact order_double ha hb

/-- From zero on, what an integer stands for can be written in a rule. -/
theorem isLiteral_asThreshold (fits : Fits a) (h : 0 ≤ a) : (asThreshold a fits).IsLiteral := by
  rw [asThreshold]
  split
  case isTrue hsmall =>
    refine ⟨h, ?_⟩
    simp only [Signed]
    omega
  case isFalse => exact decide_eq_false (Int.not_lt.mpr h)

/-- The negative of what a positive integer stands for is what its negative stands for. -/
theorem negate_asThreshold (fits : Fits a) (fits' : Fits (-a)) (h : 0 < a) :
    (asThreshold a fits).negate = asThreshold (-a) fits' := by
  rw [asThreshold, asThreshold, Int.natAbs_neg]
  split
  case isTrue hsmall =>
    have hsigned : Signed a := by
      simp only [Signed]
      omega
    have hsigned' : Signed (-a) := by
      simp only [Signed]
      omega
    simp only [negate, signed?, if_pos hsigned, Option.bind_some, ofSigned?, dif_pos hsigned']
  case isFalse =>
    have hneg : (integer a fits).toDouble.neg = (integer (-a) fits').toDouble :=
      Double.neg_ofInt fits.natAbs_le h
    simp only [negate, signed?, Option.bind_none]
    rw [← hneg]
    rfl

end Number

/-- The numeral of a natural number stands for the threshold. -/
theorem Token.Numeral.value?_ofNat {n : Nat} (fits : Number.Fits n) :
    (ofNat n).value? = some (.asThreshold n fits) := by
  rw [Number.asThreshold, Int.natAbs_natCast]
  split
  case isTrue hsmall =>
    have hsigned : Number.Signed n := by
      simp only [Number.Signed]
      omega
    exact value?_ofNat_of_signed hsigned
  case isFalse hgreat =>
    have hsigned : ¬Number.Signed n := by
      simp only [Number.Signed]
      omega
    have hnearest : Double.nearestDecimal ⟨n, 0⟩ = Double.unitsOf n := by
      simp only [Double.nearestDecimal, Int.toNat_zero, neg_zero, Nat.pow_zero, Nat.mul_one]
      rfl
    have hdouble : (Number.integer n fits).toDouble =
        ⟨false, Double.unitsOf n, Double.representable_ofNat fits.natAbs_le⟩ := by
      have hsign : decide ((n : Int) < 0) = false := decide_eq_false (by omega)
      simp only [Number.toDouble, Double.ofInt, hsign]
      rfl
    rw [hdouble]
    exact value?_ofNat_of_nearest hsigned hnearest _

/-- The digits of a natural number are cut into the literal that they stand for. -/
theorem Lexeme.cuts_toDigits {n : Nat} (fits : Number.Fits n) {rest : List Char}
    (hrest : Token.Separated rest) :
    Cuts (Nat.toDigits 10 n) [.literal (.number (.asThreshold n fits))] rest := by
  have hproper := Token.Numeral.proper_ofNat n
  obtain ⟨digit, others, hcons, hdigit⟩ := hproper.exists_cons
  rw [← Token.Numeral.spelling_ofNat, hcons]
  exact cuts_of_read (Token.isBlank_of_isNamePart (Token.Numeral.isNamePart_of_isDigit hdigit))
    (Token.read_numeral hproper hcons (Token.Numeral.value?_ofNat fits) hrest)

/-- An integer is written by its digits, behind a minus if it is negative. -/
theorem toList_toString (value : Int) :
    (toString value).toList =
      if value < 0 then '-' :: Nat.toDigits 10 value.natAbs
      else Nat.toDigits 10 value.natAbs := by
  cases value with
  | ofNat n => exact Nat.toList_repr
  | negSucc n =>
    have hrepr : toString (Int.negSucc n) = "-" ++ Nat.repr (n + 1) := rfl
    rw [hrepr, String.toList_append, Nat.toList_repr, if_pos (Int.negSucc_lt_zero n)]
    rfl

namespace Operand

variable {value : Int}

/-- The literal of the magnitude of an integer. -/
def magnitude (value : Int) (fits : Number.Fits value) : Operand :=
  .literal (.number (.asThreshold value.natAbs fits.natAbs))

/-- The operand that an integer is read as: the literal of its magnitude, behind a minus if it is
negative. -/
def threshold (value : Int) (fits : Number.Fits value) : Operand :=
  if value < 0 then .negative (magnitude value fits) else magnitude value fits

/-- The literals of integers can be written. -/
theorem madeOf_threshold (fits : Number.Fits value) :
    MadeOf Token.Legible (threshold value fits) := by
  have hliteral : MadeOf Token.Legible (magnitude value fits) :=
    Number.isLiteral_asThreshold fits.natAbs (Int.natCast_nonneg _)
  rw [threshold]
  split
  · exact hliteral
  · exact hliteral

/-- The operand that an integer is read as has the number that the integer stands for. -/
theorem evaluate_threshold (fits : Number.Fits value) (scope : Registry) (attributes : Attributes) :
    (threshold value fits).evaluate scope attributes =
      .value (.number (.asThreshold value fits)) := by
  rw [threshold]
  split
  case isTrue hneg =>
    have hvalue : -(value.natAbs : Int) = value := by omega
    have hnegate : (Number.asThreshold value.natAbs fits.natAbs).negate =
        .asThreshold value fits :=
      (Number.negate_asThreshold fits.natAbs (hvalue.symm ▸ fits) (by omega)).trans
        (Number.asThreshold_congr hvalue)
    rw [← hnegate]
    rfl
  case isFalse hpos =>
    have hvalue : (value.natAbs : Int) = value := by omega
    rw [← Number.asThreshold_congr hvalue]
    rfl

/-- An integer is read as it is written. -/
theorem reread_threshold (fits : Number.Fits value) :
    (threshold value fits).reread = threshold value fits := by
  rw [threshold]
  split <;> rfl

/-- An integer in a rule is cut into the tokens of its operand. -/
theorem cuts_threshold (fits : Number.Fits value) {rest : List Char}
    (hrest : Token.Separated rest) :
    Lexeme.Cuts (toString value).toList (threshold value fits).tokens rest := by
  have hdigits := Lexeme.cuts_toDigits fits.natAbs hrest
  rw [toList_toString, threshold]
  split
  · exact (Lexeme.cuts_operator .minus _).cons hdigits
  · exact hdigits

/-- An integer claims at most the levels of a minus and a literal. -/
theorem normalLevels_threshold (fits : Number.Fits value) :
    (threshold value fits).normalLevels ≤ 2 := by
  rw [threshold]
  split
  · exact Nat.le_refl 2
  · exact Nat.le_succ 1

end Operand

namespace Relation

/-- Whether a relation holds between two integers. -/
def ofIntegers (relation : Relation) (a b : Int) : Bool :=
  match relation with
  | .less => decide (a < b)
  | .greater => decide (b < a)
  | .atMost => decide (a ≤ b)
  | .atLeast => decide (b ≤ a)
  | .equal => decide (a = b)
  | .unequal => decide (a ≠ b)

/-- The relations that are read off the order of two integers are theirs. -/
theorem ofOrdering_compare (relation : Relation) (a b : Int) :
    relation.ofOrdering (compare a b) = relation.ofIntegers a b := by
  have hequal : (compare a b == .eq) = decide (a = b) :=
    Bool.eq_iff_iff.mpr (by rw [beq_iff_eq, compare_eq_iff_eq, decide_eq_true_iff])
  have hof : ∀ {test : Bool} {p : Prop} [Decidable p], (test = true ↔ p) → test = decide p :=
    fun htest => Bool.eq_iff_iff.mpr (htest.trans decide_eq_true_iff.symm)
  cases relation with
  | equal => exact hequal
  | unequal => rw [ofOrdering, ofIntegers, hequal, ← decide_not]
  | less => exact hof (Ordering.isLT_iff_eq_lt.trans compare_lt_iff_lt)
  | greater => exact hof (Ordering.isGT_iff_eq_gt.trans compare_gt_iff_gt)
  | atMost => exact hof Std.isLE_compare
  | atLeast => exact hof Std.isGE_compare

/-- Numbers that are ordered as two integers have the relations of these. -/
theorem holds_of_compare {x y : Number} {a b : Int} (h : x.order y = compare a b)
    (relation : Relation) :
    relation.holds (.number x) (.number y) = .ok (relation.ofIntegers a b) := by
  have horder : Json.order (.number x) (.number y) = .ok (compare a b) := congrArg Except.ok h
  rw [holds_of_order horder, ofOrdering_compare]

end Relation

namespace Comparison

/-- A field of the user compared with an integer. -/
def withThreshold (field : String) (relation : Relation) (value : Int)
    (fits : Number.Fits value) : Comparison :=
  ⟨.field (.bag .user) field, relation, .threshold value fits⟩

/-- The text of a field of the user, a comparison operator and an integer is read as their
comparison. -/
theorem parse_withThreshold {field sign : String} (hfield : Token.IsName field)
    {relation : Relation} (hsign : sign ∈ relation.spellings) {value : Int}
    (fits : Number.Fits value) :
    parse ("user." ++ field ++ " " ++ sign ++ " " ++ toString value) =
      .ok (withThreshold field relation value fits) := by
  let left : Operand := .field (.bag .user) field
  have hleft : Operand.MadeOf Token.Legible left := ⟨trivial, hfield⟩
  have hright := Operand.madeOf_threshold fits
  have hspace : ∀ rest, Lexeme.Cuts [' '] [] rest := Lexeme.cuts_blank (by decide)
  have hvalue : Lexeme.Cuts (toString value).toList (Operand.threshold value fits).tokens [] :=
    Operand.cuts_threshold fits trivial
  have hbehind : Lexeme.Cuts (sign.toList ++ ([' '] ++ (toString value).toList))
      (.relation relation :: (Operand.threshold value fits).tokens) [] :=
    (Lexeme.cuts_spelling hsign (by simp)).append ((hspace _).append hvalue)
  have hcuts : Lexeme.Cuts (left.text ++ ([' '] ++
      (sign.toList ++ ([' '] ++ (toString value).toList))))
      (withThreshold field relation value fits).tokens [] :=
    (Operand.cuts_text left hleft _ (Operand.separated_mark (by simp) _)).append
      ((hspace _).append hbehind)
  obtain ⟨lexemes, hscan, htokens⟩ := hcuts.scan
  have htext : String.ofList (left.text ++ ([' '] ++
      (sign.toList ++ ([' '] ++ (toString value).toList)))) =
      "user." ++ field ++ " " ++ sign ++ " " ++ toString value := by
    rw [← String.toList_inj, String.toList_ofList]
    simp only [String.toList_append, List.append_assoc]
    rfl
  have hcomparison : IsComparison left.normalLevels (Operand.threshold value fits).normalLevels
      (withThreshold field relation value fits).tokens
      (withThreshold field relation value fits).reread := isComparison_tokens hleft hright
  have hreread : (withThreshold field relation value fits).reread =
      withThreshold field relation value fits := by
    rw [reread, withThreshold, Operand.reread_threshold]
    rfl
  have hlevels : left.normalLevels ≤ Operand.levels := Nat.le_of_ble_eq_true rfl
  rw [← htokens, hreread] at hcomparison
  rw [htext] at hscan
  rw [parse_of_isComparison hscan hcomparison, if_pos hlevels,
    if_pos (Nat.le_trans (Operand.normalLevels_threshold fits) (by decide))]

end Comparison

namespace Rule

/-- A rule that compares a field of the user with an integer, evaluated where the field is an
integer, has the truth value of the relation between the two integers. Only with a threshold whose
magnitude is no signed integer of 64 bits, a field that has the same nearest double counts as equal
to it. -/
theorem threshold_exact {field : String} (hfield : Token.IsName field) {relation : Relation}
    {sign : String} (hsign : sign ∈ relation.spellings) {threshold value : Int}
    (hthreshold : Number.Fits threshold) (hvalue : Number.Fits value) (registry : Registry)
    {attributes : Attributes}
    (hattributes : attributes.user.field field = .ok (.number (.integer value hvalue))) :
    (compile ("user." ++ field ++ " " ++ sign ++ " " ++ toString threshold) registry).evaluate
        attributes =
      .value (if 9223372036854775808 ≤ threshold.natAbs ∧
          (Number.integer value hvalue).toDouble = (Number.integer threshold hthreshold).toDouble
        then relation.ofIntegers threshold threshold else relation.ofIntegers value threshold) := by
  have hholds : relation.holds (.number (.integer value hvalue))
      (.number (.asThreshold threshold hthreshold)) =
      .ok (if 9223372036854775808 ≤ threshold.natAbs ∧
          (Number.integer value hvalue).toDouble = (Number.integer threshold hthreshold).toDouble
        then relation.ofIntegers threshold threshold else relation.ofIntegers value threshold) := by
    have horder := Number.order_asThreshold hvalue hthreshold
    split
    case isTrue hsame =>
      rw [if_pos hsame, ← compare_eq_iff_eq.mpr (Eq.refl threshold)] at horder
      exact Relation.holds_of_compare horder relation
    case isFalse hdiffer =>
      rw [if_neg hdiffer] at horder
      exact Relation.holds_of_compare horder relation
  have hleft : (Operand.field (.bag .user) field).evaluate registry attributes =
      .value (.number (.integer value hvalue)) := by
    rw [Operand.evaluate, Operand.evaluate]
    change Traced.ofExcept (attributes.user.field field) = _
    rw [hattributes]
    rfl
  rw [evaluate_compile, meaning, Comparison.parse_withThreshold hfield hsign hthreshold]
  simp only [Comparison.evaluate, Comparison.withThreshold, hleft, Operand.evaluate_threshold]
  change (Traced.ofExcept (relation.holds _ _)).mapError _ = _
  rw [hholds]
  rfl

/-- The greatest unsigned threshold is a double, and the greatest signed integer is still below
it. -/
theorem threshold_exact_greatest :
    let attributes : Attributes :=
      { user := .object [("field", .number (.integer 9223372036854775807 (by decide)))] }
    Token.IsName "field" ∧ "<" ∈ Relation.less.spellings ∧
      attributes.user.field "field" = .ok (.number (.integer 9223372036854775807 (by decide))) ∧
      (compile "user.field < 18446744073709551615" .empty).evaluate attributes = .value true := by
  intro attributes
  have hfield : Token.IsName "field" :=
    ⟨⟨'f', ['i', 'e', 'l', 'd'], rfl, by decide, List.all_eq_true.mp (by decide)⟩, rfl⟩
  have hsign : "<" ∈ Relation.less.spellings := List.mem_singleton.mpr rfl
  have hattributes : attributes.user.field "field" =
      .ok (.number (.integer 9223372036854775807 (by decide))) := rfl
  refine ⟨hfield, hsign, hattributes, ?_⟩
  refine (threshold_exact hfield hsign (by decide : Number.Fits 18446744073709551615) (by decide)
    .empty hattributes).trans ?_
  rw [if_neg (by decide +kernel)]
  rfl

/-- A field that is one less than a threshold from `2 ^ 63` on can be equal to it, and the successor
of the least signed integer is not greater than it. -/
theorem threshold_inexact :
    let attributes := fun (value : Int) (fits : Number.Fits value) =>
      ({ user := .object [("field", .number (.integer value fits))] } : Attributes)
    ((compile "user.field == 9223372036854775809" .empty).evaluate
        (attributes 9223372036854775808 (by decide))).outcome = .ok true ∧
      Relation.equal.ofIntegers 9223372036854775808 9223372036854775809 = false ∧
      ((compile "user.field > -9223372036854775808" .empty).evaluate
        (attributes (-9223372036854775807) (by decide))).outcome = .ok false ∧
      Relation.greater.ofIntegers (-9223372036854775807) (-9223372036854775808) = true :=
  ⟨by decide +kernel, by decide, by decide +kernel, by decide⟩

end Rule

end AccessControl
