import AccessControl.Proofs.Double.Shortest
import AccessControl.Rule.Scan

/-!
# Numerals of rules

A numeral that is written down is read again, whatever text stands behind it, as long as that does
not go on as a name or a number would. The text of every number that a rule can contain is such a
numeral, and it stands for that very number: integers by their digits, and doubles because their
digits read back.
-/

namespace AccessControl

namespace Token

/-- Whether a text goes on with something that belongs to no name or number before it. -/
def Separated : List Char → Prop
  | [] => True
  | c :: rest => Text.isNamePart c = false ∧ (c = '.' → Numeral.startsWithDigit rest = false)

namespace Numeral

/-- Digits belong to names. -/
theorem isNamePart_of_isDigit {c : Char} (h : c.isDigit = true) : Text.isNamePart c = true := by
  simp only [Text.isNamePart, Char.isAlphanum, h, Bool.or_true, Bool.true_or]

/-- No digit follows where a name or a number ends. -/
theorem startsWithDigit_of_separated {rest : List Char} (h : Separated rest) :
    startsWithDigit rest = false := by
  cases rest with
  | nil => rfl
  | cons c rest =>
    by_contra hdigit
    rw [Bool.not_eq_false, startsWithDigit] at hdigit
    rw [Separated, isNamePart_of_isDigit hdigit] at h
    exact Bool.noConfusion h.1

/-- Digits are cut off up to where no digit follows. -/
theorem spanDigits_of_digits {digits rest : List Char} (hdigits : ∀ c ∈ digits, c.isDigit = true)
    (hrest : startsWithDigit rest = false) :
    Decimal.spanDigits (digits ++ rest) = (digits, rest) := by
  have hstop : rest.takeWhile Char.isDigit = [] ∧ rest.dropWhile Char.isDigit = rest := by
    cases rest with
    | nil => exact ⟨rfl, rfl⟩
    | cons c rest =>
      rw [startsWithDigit] at hrest
      simp only [List.takeWhile_cons, List.dropWhile_cons, hrest, Bool.false_eq_true, if_false,
        and_self]
  rw [Decimal.spanDigits, List.takeWhile_append_of_pos hdigits,
    List.dropWhile_append_of_pos hdigits, hstop.1, hstop.2, List.append_nil]

/-- No fraction is read where the text goes on with anything but a point. -/
theorem readFraction_of_ne {c : Char} (h : c ≠ '.') (rest : List Char) :
    readFraction (c :: rest) = ([], c :: rest) := by
  rw [readFraction]
  exact fun _ heq => h (List.cons.inj heq).1

/-- No fraction is read where no point follows that has a digit behind it. -/
theorem readFraction_of_separated {rest : List Char} (h : Separated rest) :
    readFraction rest = ([], rest) := by
  cases rest with
  | nil => rfl
  | cons c rest =>
    by_cases hpoint : c = '.'
    · subst hpoint
      rw [readFraction, h.2 rfl]
      rfl
    · exact readFraction_of_ne hpoint rest

/-- No sign is read where the text goes on with another character. -/
theorem readSign_of_ne {c : Char} (hplus : c ≠ '+') (hminus : c ≠ '-') (rest : List Char) :
    readSign (c :: rest) = ([], c :: rest) := by
  rw [readSign]
  · exact fun _ heq => hplus (List.cons.inj heq).1
  · exact fun _ heq => hminus (List.cons.inj heq).1

/-- A digit is no sign, so that none is read before one. -/
theorem readSign_digit {digit : Char} (h : digit.isDigit = true) (rest : List Char) :
    readSign (digit :: rest) = ([], digit :: rest) := by
  have hne : ∀ sign, sign.isDigit = false → digit ≠ sign := by
    rintro sign hsign rfl
    rw [hsign] at h
    cases h
  exact readSign_of_ne (hne '+' (by decide)) (hne '-' (by decide)) rest

/-- The mark and the digits of an exponent; both are missing if there is no exponent. -/
inductive IsExponent : List Char → List Char → Prop where
  /-- No exponent. -/
  | none : IsExponent [] []
  /-- A letter, a sign if there is one, and digits. -/
  | marked {letter : Char} {sign digits : List Char} : letter = 'e' ∨ letter = 'E' →
    sign = [] ∨ sign = ['+'] ∨ sign = ['-'] → digits ≠ [] → (∀ c ∈ digits, c.isDigit = true) →
    IsExponent (letter :: sign) digits

/-- Numerals as they can be written: digits before the point, a fraction or none, an exponent or
none. -/
structure Proper (numeral : Numeral) : Prop where
  /-- There is a digit before the point. -/
  whole_ne_nil : numeral.whole ≠ []
  /-- Digits stand before the point. -/
  whole : ∀ c ∈ numeral.whole, c.isDigit = true
  /-- Digits stand behind the point. -/
  fraction : ∀ c ∈ numeral.fraction, c.isDigit = true
  /-- The exponent has a mark and digits. -/
  exponent : IsExponent numeral.mark numeral.exponent

/-- Behind a fraction or the digits before the point, an exponent or its lack ends the digits, and
no point with a digit follows. -/
theorem IsExponent.startsWithDigit {mark digits rest : List Char} (h : IsExponent mark digits)
    (hrest : Separated rest) :
    startsWithDigit (mark ++ (digits ++ rest)) = false ∧
      readFraction (mark ++ (digits ++ rest)) = ([], mark ++ (digits ++ rest)) := by
  cases h with
  | none => exact ⟨startsWithDigit_of_separated hrest, readFraction_of_separated hrest⟩
  | marked hletter _ _ _ => rcases hletter with rfl | rfl <;> exact ⟨rfl, rfl⟩

/-- A written exponent is read, and its lack is seen. -/
theorem IsExponent.read {mark digits rest : List Char} (h : IsExponent mark digits)
    (hrest : Separated rest) :
    readExponent (mark ++ (digits ++ rest)) = (mark, digits, rest) := by
  cases h with
  | none =>
    cases rest with
    | nil => rfl
    | cons c rest =>
      have hletter : ¬(c = 'e' ∨ c = 'E') := by
        rintro (rfl | rfl) <;> exact absurd hrest.1 (by decide)
      exact if_neg hletter
  | @marked letter sign digits hletter hsign hne hdigits =>
    obtain ⟨digit, others, rfl⟩ := List.exists_cons_of_ne_nil hne
    have hdigit := hdigits digit List.mem_cons_self
    have hread : readSign (sign ++ (digit :: others ++ rest)) =
        (sign, digit :: others ++ rest) := by
      rcases hsign with rfl | rfl | rfl
      · exact readSign_digit hdigit (others ++ rest)
      · rfl
      · rfl
    have hstarts : Numeral.startsWithDigit (digit :: others ++ rest) = true := hdigit
    have hspan := spanDigits_of_digits hdigits (startsWithDigit_of_separated hrest)
    rw [List.cons_append, readExponent, if_pos hletter]
    simp only [hread]
    rw [if_pos hstarts, hspan]

/-- Numerals whose parts are digits around their marks, with or without digits before the point. -/
structure Formed (numeral : Numeral) : Prop where
  /-- Digits stand before the point. -/
  whole : ∀ c ∈ numeral.whole, c.isDigit = true
  /-- Digits stand behind the point. -/
  fraction : ∀ c ∈ numeral.fraction, c.isDigit = true
  /-- The exponent has a mark and digits. -/
  exponent : IsExponent numeral.mark numeral.exponent

/-- The characters of numerals that are no digits. -/
def marks : List Char := ['.', 'e', 'E', '+', '-']

section Characters

variable {p : Char → Prop}

/-- What holds of all marks holds of each of them. -/
theorem forall_mem_marks : (∀ c ∈ marks, p c) ↔ p '.' ∧ p 'e' ∧ p 'E' ∧ p '+' ∧ p '-' := by
  simp [marks]

/-- What holds of digits and marks holds of the characters of an exponent. -/
theorem IsExponent.forall_mem (hdigit : ∀ c, c.isDigit = true → p c) (hmarks : ∀ c ∈ marks, p c)
    {mark digits : List Char} (h : IsExponent mark digits) : ∀ c ∈ mark ++ digits, p c := by
  cases h with
  | none => exact List.forall_mem_nil _
  | @marked letter sign _ hletter hsign _ hdigits =>
    have hfirst : letter ∈ marks := by rcases hletter with rfl | rfl <;> decide
    have hothers : ∀ c ∈ sign, c ∈ marks := by rcases hsign with rfl | rfl | rfl <;> simp [marks]
    exact List.forall_mem_append.mpr
      ⟨List.forall_mem_cons.mpr ⟨hmarks letter hfirst, fun c hc => hmarks c (hothers c hc)⟩,
        fun c hc => hdigit c (hdigits c hc)⟩

/-- What holds of digits and marks holds of all characters of a numeral. -/
theorem Formed.forall_mem_spelling (hdigit : ∀ c, c.isDigit = true → p c)
    (hmarks : ∀ c ∈ marks, p c) {numeral : Numeral} (h : numeral.Formed) :
    ∀ c ∈ numeral.spelling, p c := by
  have hfraction : ∀ c ∈ pointed numeral.fraction, p c := by
    cases hcases : numeral.fraction with
    | nil => exact List.forall_mem_nil _
    | cons first others =>
      exact List.forall_mem_cons.mpr
        ⟨hmarks '.' (by decide), fun c hc => hdigit c (h.fraction c (hcases ▸ hc))⟩
  exact List.forall_mem_append.mpr ⟨fun c hc => hdigit c (h.whole c hc),
    List.forall_mem_append.mpr ⟨hfraction, h.exponent.forall_mem hdigit hmarks⟩⟩

end Characters

/-- The parts of a numeral as it can be written are digits around their marks. -/
theorem Proper.formed {numeral : Numeral} (h : numeral.Proper) : numeral.Formed :=
  ⟨h.whole, h.fraction, h.exponent⟩

/-- A spelled numeral is read. -/
theorem Formed.read {numeral : Numeral} (h : numeral.Formed) {rest : List Char}
    (hrest : Separated rest) : Numeral.read (numeral.spelling ++ rest) = (numeral, rest) := by
  obtain ⟨hdigit, hpoint⟩ := h.exponent.startsWithDigit hrest
  have hfraction : readFraction (pointed numeral.fraction ++
      (numeral.mark ++ (numeral.exponent ++ rest))) =
      (numeral.fraction, numeral.mark ++ (numeral.exponent ++ rest)) := by
    cases hcases : numeral.fraction with
    | nil => exact hpoint
    | cons first others =>
      have hdigits : ∀ c ∈ first :: others, c.isDigit = true := hcases ▸ h.fraction
      have hfirst : Numeral.startsWithDigit (first :: (others ++
          (numeral.mark ++ (numeral.exponent ++ rest)))) = true := hdigits first List.mem_cons_self
      rw [pointed, List.cons_append, List.cons_append, readFraction, if_pos hfirst,
        ← List.cons_append, spanDigits_of_digits hdigits hdigit]
  have hbehind : Numeral.startsWithDigit (pointed numeral.fraction ++
      (numeral.mark ++ (numeral.exponent ++ rest))) = false := by
    cases numeral.fraction with
    | nil => exact hdigit
    | cons first others => rfl
  rw [spelling, Numeral.read, List.append_assoc, List.append_assoc, List.append_assoc,
    spanDigits_of_digits h.whole hbehind]
  simp only [hfraction, h.exponent.read hrest]

/-- A written numeral begins with a digit. -/
theorem Proper.exists_cons {numeral : Numeral} (h : numeral.Proper) :
    ∃ digit others, numeral.spelling = digit :: others ∧ digit.isDigit = true := by
  obtain ⟨digit, others, hwhole⟩ := List.exists_cons_of_ne_nil h.whole_ne_nil
  have hdigit : digit.isDigit = true := h.whole digit (hwhole ▸ List.mem_cons_self)
  rw [spelling, hwhole]
  exact ⟨digit, _, rfl, hdigit⟩

/-- A numeral with a fraction or an exponent stands for the nearest double. -/
theorem value?_of_nearest {numeral : Numeral}
    (hpart : numeral.fraction ≠ [] ∨ numeral.mark ≠ []) {units : Nat}
    (h : Double.nearestDecimal
      (Decimal.ofDigits numeral.whole numeral.fraction numeral.exponentValue) = units)
    (representable : Double.Representable units) :
    numeral.value? = some (.double ⟨false, units, representable⟩) := by
  have hnot : (numeral.fraction.isEmpty && numeral.mark.isEmpty) = false := by
    rw [Bool.and_eq_false_iff, List.isEmpty_eq_false_iff, List.isEmpty_eq_false_iff]
    exact hpart
  rw [value?, hnot, if_neg Bool.false_ne_true, toDouble?,
    Double.ofDecimal_of_nearest h representable]
  rfl

/-- The numeral of a natural number. -/
def ofNat (n : Nat) : Numeral := ⟨Nat.toDigits 10 n, [], [], []⟩

/-- The numeral of a natural number is read again. -/
theorem proper_ofNat (n : Nat) : (ofNat n).Proper :=
  ⟨Nat.toDigits_ne_nil, fun _ hc => Nat.isDigit_of_mem_toDigits (by decide) (by decide) hc,
    List.forall_mem_nil _, .none⟩

/-- The numeral of a natural number is spelled by its digits. -/
theorem spelling_ofNat (n : Nat) : (ofNat n).spelling = Nat.toDigits 10 n := List.append_nil _

/-- The numeral of a natural number has neither a fraction nor an exponent. -/
theorem isWhole_ofNat (n : Nat) :
    ((ofNat n).fraction.isEmpty && (ofNat n).mark.isEmpty) = true := rfl

/-- The numeral of a natural number with at most 63 bits stands for this number. -/
theorem value?_ofNat_of_signed {n : Nat} (h : Number.Signed n) :
    (ofNat n).value? = some (.integer n h.fits) := by
  have hvalue : Decimal.valueOf (ofNat n).whole = n := Decimal.valueOf_toDigits n
  have hinteger : Number.ofSigned? n = some (.integer n h.fits) := dif_pos h
  rw [value?, if_pos (isWhole_ofNat n), hvalue, hinteger]

/-- The numeral of a greater natural number stands for the nearest double. -/
theorem value?_ofNat_of_nearest {n : Nat} (h : ¬Number.Signed n) {units : Nat}
    (hnearest : Double.nearestDecimal ⟨n, 0⟩ = units)
    (representable : Double.Representable units) :
    (ofNat n).value? = some (.double ⟨false, units, representable⟩) := by
  have hvalue : Decimal.valueOf (ofNat n).whole = n := Decimal.valueOf_toDigits n
  have hinteger : Number.ofSigned? n = none := dif_neg h
  have hdecimal : Decimal.ofDigits (ofNat n).whole (ofNat n).fraction
      (ofNat n).exponentValue = ⟨n, 0⟩ := by
    rw [Decimal.ofDigits, show (ofNat n).fraction = [] from rfl, List.append_nil, hvalue]
    rfl
  rw [value?, if_pos (isWhole_ofNat n), hvalue, hinteger]
  dsimp only
  rw [toDouble?, hdecimal, Double.ofDecimal_of_nearest hnearest representable]
  rfl

end Numeral

end Token

namespace Double

/-- Digits written before and behind the point, and the exponent behind them, are those of a numeral
that has the same nearest magnitude. -/
structure Digits.Writes (number : Digits) (numeral : Token.Numeral) (text : List Char) : Prop where
  /-- The numeral is one that is read again. -/
  proper : numeral.Proper
  /-- The numeral is spelled by the text. -/
  spelling : numeral.spelling = text
  /-- The numeral is not that of an integer. -/
  part : numeral.fraction ≠ [] ∨ numeral.mark ≠ []
  /-- The numeral and the digits have one nearest magnitude. -/
  nearest : nearestDecimal
    (Decimal.ofDigits numeral.whole numeral.fraction numeral.exponentValue) =
      nearestDecimal number.toDecimal

namespace Digits

variable {number : Digits}

/-- Digits below one are written behind a point and zeros. -/
theorem writes_below_one (h : number.Proper) (hexponent : number.exponent < 0) :
    number.Writes ⟨['0'], List.replicate (-number.exponent - 1).toNat '0' ++ number.digits, [], []⟩
      number.positional := by
  have hne : List.replicate (-number.exponent - 1).toNat '0' ++ number.digits ≠ [] := by
    intro hnil
    exact h.ne_nil (List.append_eq_nil_iff.mp hnil).2
  have hpos : 0 < number.digits.length := List.length_pos_iff.mpr h.ne_nil
  have hdecimal : Decimal.ofDigits ['0']
      (List.replicate (-number.exponent - 1).toNat '0' ++ number.digits) 0 = number.toDecimal := by
    rw [Decimal.ofDigits, toDecimal, Decimal.mk.injEq]
    constructor
    · exact Decimal.valueOf_zeros_append ((-number.exponent - 1).toNat + 1) number.digits
    · rw [List.length_append, List.length_replicate]
      omega
  have hzero : ∀ c ∈ ['0'], c.isDigit = true := List.forall_mem_singleton.mpr (by decide)
  have hfraction : ∀ c ∈ List.replicate (-number.exponent - 1).toNat '0' ++ number.digits,
      c.isDigit = true :=
    List.forall_mem_append.mpr ⟨fun c hc => Decimal.isDigit_of_mem_zeros hc, h.isDigit⟩
  refine ⟨⟨List.cons_ne_nil _ _, hzero, hfraction, .none⟩, ?_, Or.inl hne,
    congrArg nearestDecimal hdecimal⟩
  · rw [Token.Numeral.spelling, Token.Numeral.pointed_of_ne_nil hne, positional, if_pos hexponent]
    simp only [List.append_nil]
    rfl

/-- Digits from one on are written around a point, with zeros up to it and behind it where digits
are missing. -/
theorem writes_from_one (h : number.Proper) (hexponent : 0 ≤ number.exponent) :
    ∃ numeral, number.Writes numeral number.positional := by
  have hpos : 0 < number.digits.length := List.length_pos_iff.mpr h.ne_nil
  have hplaces : ((number.exponent.toNat + 1 : Nat) : Int) = number.exponent + 1 := by omega
  rw [positional, if_neg (Int.not_lt.mpr hexponent)]
  generalize number.exponent.toNat + 1 = places at hplaces
  by_cases hlength : number.digits.length ≤ places
  · have hzeros : Decimal.ofDigits
        (number.digits ++ List.replicate (places - number.digits.length) '0') ['0'] 0 =
        ⟨Decimal.valueOf number.digits * 10 ^ (places - number.digits.length + 1), -1⟩ := by
      rw [Decimal.ofDigits, List.append_assoc, ← Decimal.valueOf_append_zeros,
        List.replicate_succ']
      rfl
    have hzero : ∀ c ∈ ['0'], c.isDigit = true := List.forall_mem_singleton.mpr (by decide)
    have hwhole : ∀ c ∈ number.digits ++ List.replicate (places - number.digits.length) '0',
        c.isDigit = true :=
      List.forall_mem_append.mpr ⟨h.isDigit, fun c hc => Decimal.isDigit_of_mem_zeros hc⟩
    refine ⟨⟨number.digits ++ List.replicate (places - number.digits.length) '0', ['0'], [], []⟩,
      ⟨?_, hwhole, hzero, .none⟩, ?_, Or.inl (List.cons_ne_nil _ _), ?_⟩
    · exact fun hnil => h.ne_nil (List.append_eq_nil_iff.mp hnil).1
    · simp only [List.take_of_length_le hlength, List.drop_of_length_le hlength, List.isEmpty_nil,
        if_true]
      rfl
    · refine (congrArg nearestDecimal hzeros).trans ?_
      rw [nearestDecimal_mul_pow, toDecimal]
      congr 2
      omega
  · have htake : (number.digits.take places).length = places := by
      rw [List.length_take]
      omega
    have hdrop : number.digits.drop places ≠ [] := by
      intro hnil
      exact hlength (List.drop_eq_nil_iff.mp hnil)
    have hdecimal : Decimal.ofDigits (number.digits.take places) (number.digits.drop places) 0 =
        number.toDecimal := by
      rw [Decimal.ofDigits, toDecimal, List.take_append_drop, List.length_drop, Decimal.mk.injEq]
      exact ⟨rfl, by omega⟩
    refine ⟨⟨number.digits.take places, number.digits.drop places, [], []⟩,
      ⟨?_, ?_, ?_, .none⟩, ?_, Or.inl hdrop, congrArg nearestDecimal hdecimal⟩
    · intro hnil
      rw [List.eq_nil_iff_length_eq_zero.mp hnil] at htake
      omega
    · exact fun c hc => h.isDigit c (List.mem_of_mem_take hc)
    · exact fun c hc => h.isDigit c (List.mem_of_mem_drop hc)
    · have hempty : (number.digits.drop places).isEmpty = false :=
        List.isEmpty_eq_false_iff.mpr hdrop
      simp only [htake, Nat.sub_self, List.replicate_zero, List.append_nil, hempty,
        Bool.false_eq_true, if_false]
      rw [Token.Numeral.spelling, Token.Numeral.pointed_of_ne_nil hdrop, List.append_nil,
        List.append_nil]

/-- Digits are written with a point behind the first one and an exponent. -/
theorem writes_scientific (h : number.Proper) :
    ∃ numeral, number.Writes numeral number.scientific := by
  obtain ⟨first, others, hdigits⟩ := List.exists_cons_of_ne_nil h.ne_nil
  have hisDigit : ∀ c ∈ first :: others, c.isDigit = true := hdigits ▸ h.isDigit
  have hvalue := Decimal.valueOf_toDigits number.exponent.natAbs
  have hexponent : Token.Numeral.exponentValue
      ⟨[first], others, ['e', if number.exponent < 0 then '-' else '+'],
        Nat.toDigits 10 number.exponent.natAbs⟩ = number.exponent := by
    rw [Token.Numeral.exponentValue]
    by_cases hnegative : number.exponent < 0
    · simp only [if_pos hnegative, hvalue]
      rw [if_pos (by decide)]
      omega
    · simp only [if_neg hnegative, hvalue]
      rw [if_neg (by decide)]
      omega
  refine ⟨⟨[first], others, ['e', if number.exponent < 0 then '-' else '+'],
    Nat.toDigits 10 number.exponent.natAbs⟩, ⟨List.cons_ne_nil _ _, ?_, ?_, ?_⟩, ?_,
    Or.inr (List.cons_ne_nil _ _), ?_⟩
  · exact fun c hc => hisDigit c (List.mem_singleton.mp hc ▸ List.mem_cons_self)
  · exact fun c hc => hisDigit c (List.mem_cons_of_mem _ hc)
  · refine .marked (Or.inl rfl) (Or.inr ?_) Nat.toDigits_ne_nil
      (fun c hc => Nat.isDigit_of_mem_toDigits (by decide) (by decide) hc)
    split
    · exact Or.inr rfl
    · exact Or.inl rfl
  · rw [Token.Numeral.spelling, scientific, hdigits]
    cases others <;> rfl
  · rw [hexponent, Decimal.ofDigits, toDecimal, hdigits]
    rfl

/-- Digits are written as a numeral with the same nearest magnitude. -/
theorem exists_writes (h : number.Proper) : ∃ numeral, number.Writes numeral number.text := by
  rw [text]
  split
  case isTrue hrange =>
    by_cases hexponent : number.exponent < 0
    · exact ⟨_, writes_below_one h hexponent⟩
    · exact writes_from_one h (Int.not_lt.mp hexponent)
  case isFalse => exact writes_scientific h

end Digits

/-- A double without the minus sign is written as a numeral that stands for it. -/
theorem exists_numeral {x : Double} (h : x.negative = false) :
    ∃ numeral : Token.Numeral, numeral.Proper ∧ numeral.spelling = x.text ∧
      numeral.value? = some (.double x) := by
  obtain ⟨negative, units, representable⟩ := x
  obtain rfl : negative = false := h
  by_cases hzero : units = 0
  · subst hzero
    have hdigit : ∀ c ∈ ['0'], c.isDigit = true := List.forall_mem_singleton.mpr (by decide)
    exact ⟨⟨['0'], ['0'], [], []⟩, ⟨List.cons_ne_nil _ _, hdigit, hdigit, .none⟩, rfl, rfl⟩
  · obtain ⟨hproper, hnearest⟩ := Digits.nearestDecimal_shortest representable hzero
    obtain ⟨numeral, hwrites⟩ := Digits.exists_writes hproper
    have htext : Double.text ⟨false, units, representable⟩ = (Digits.shortest units).text := by
      rw [text]
      simp only [if_neg hzero, Bool.false_eq_true, if_false]
    exact ⟨numeral, hwrites.proper, hwrites.spelling.trans htext.symm,
      Token.Numeral.value?_of_nearest hwrites.part (hwrites.nearest.trans hnearest) representable⟩

/-- Rounding gives the sign that it is given. -/
theorem negative_of_ofDecimal {negative : Bool} {decimal : Decimal} {x : Double}
    (h : ofDecimal negative decimal = some x) : x.negative = negative := by
  rw [ofDecimal_eq_round, round] at h
  split at h
  · cases h
    rfl
  · cases h

end Double

namespace Number

/-- The numbers that a rule can contain: integers from zero on that have 64 bits with a sign, and
doubles without the minus sign. -/
def IsLiteral : Number → Prop
  | .integer value _ => 0 ≤ value ∧ Signed value
  | .double x => x.negative = false

/-- A numeral stands for a number that a rule can contain. -/
theorem isLiteral_of_value? {numeral : Token.Numeral} {number : Number}
    (h : numeral.value? = some number) : number.IsLiteral := by
  have hdouble : ∀ other, numeral.toDouble? = some other → other.IsLiteral := by
    intro other hother
    obtain ⟨x, hx, rfl⟩ := Option.map_eq_some_iff.mp hother
    exact Double.negative_of_ofDecimal hx
  rw [Token.Numeral.value?] at h
  split at h
  · split at h
    · rename_i integer hinteger
      cases h
      rw [ofSigned?] at hinteger
      split at hinteger
      case isTrue hsigned =>
        cases hinteger
        exact ⟨Int.natCast_nonneg _, hsigned⟩
      case isFalse => cases hinteger
    · exact hdouble number h
  · exact hdouble number h

/-- A number that a rule can contain is written as a numeral that stands for it. -/
theorem exists_numeral {number : Number} (h : number.IsLiteral) :
    ∃ numeral : Token.Numeral, numeral.Proper ∧ numeral.spelling = number.text ∧
      numeral.value? = some number := by
  cases number with
  | double x => exact Double.exists_numeral h
  | integer value fits =>
    obtain ⟨hnonneg, hsigned⟩ := h
    obtain ⟨n, rfl⟩ := Int.eq_ofNat_of_zero_le hnonneg
    refine ⟨.ofNat n, Token.Numeral.proper_ofNat n, ?_,
      Token.Numeral.value?_ofNat_of_signed hsigned⟩
    rw [Token.Numeral.spelling_ofNat, text]
    exact (if_neg (Int.not_lt.mpr hnonneg)).symm

end Number

end AccessControl
