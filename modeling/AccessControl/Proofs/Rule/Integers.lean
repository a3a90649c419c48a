import AccessControl.Proofs.Number.Exactness
import AccessControl.Proofs.Rule.Between
import AccessControl.Proofs.Rule.Layout

/-!
# Operands that evaluate to integers

Arithmetic of any depth that evaluates to an integer was exact all the way: its leaves are integers,
and calculating with them as rational numbers gives the same. Where a leaf is written as a literal,
its digits are the integer. In turn, arithmetic on two signed integers stays among the integers
wherever the exact result is one of them, but for the remainder of the least one by minus one, which
is a double and no index.
-/

namespace AccessControl

namespace Json

/-- A negative that is a number is that of a number. -/
theorem negative_eq_number_iff {value : Json} {result : Number} :
    value.negative = .ok (.number result) ↔ ∃ n, value = .number n ∧ n.negate = result := by
  cases value <;> simp [negative]

end Json

namespace Operator

/-- A result that is a number is calculated from two numbers. -/
theorem apply_eq_number_iff {operator : Operator} {left right : Json} {result : Number} :
    operator.apply left right = .ok (.number result) ↔
      ∃ x y, left = .number x ∧ right = .number y ∧ operator.calculate x y = .ok result := by
  unfold apply
  split
  case h_1 x y =>
    split
    case h_1 n hn => simp [hn]
    case h_2 fault hfault => simp [hfault]
  case h_2 x y => split <;> simp
  case h_3 hnumbers _ =>
    constructor
    · intro h
      cases h
    · rintro ⟨x, y, hleft, hright, -⟩
      exact absurd hright (hnumbers x y hleft)

end Operator

/-- The exact value of a number. -/
def Number.toRational : Number → ℚ
  | .integer value _ => value
  | .double value => (value.signedUnits : ℚ) / (Double.one : ℚ)

namespace Operand

/-- The operands that the arithmetic of an operand joins: literals, paths, injected values and
calls. -/
def leaves : Operand → List Operand
  | .negative inner => leaves inner
  | .arithmetic left _ right => leaves left ++ leaves right
  | leaf => [leaf]

/-- The number that an operand evaluates to, unless it faults or its value is no number. -/
def number? (registry : Registry) (attributes : Attributes) (operand : Operand) : Option Number :=
  match (operand.evaluate registry attributes).outcome with
  | .ok (.number number) => some number
  | _ => none

/-- The exact value of an operand, which is calculated from the numbers of its leaves without
rounding. -/
def rational? (registry : Registry) (attributes : Attributes) : Operand → Option ℚ
  | .negative inner => (rational? registry attributes inner).map (fun x => -x)
  | .arithmetic left operator right =>
    (rational? registry attributes left).bind (fun x =>
      (rational? registry attributes right).bind (fun y => operator.rational? x y))
  | leaf => (leaf.number? registry attributes).map Number.toRational

/-- Whether an operand evaluates to an integer. -/
def IsInteger (registry : Registry) (attributes : Attributes) (operand : Operand) (value : ℤ) :
    Prop :=
  ∃ fits : Number.Fits value,
    (operand.evaluate registry attributes).outcome = .ok (.number (.integer value fits))

section Evaluation

variable {registry : Registry} {attributes : Attributes} {operand left right : Operand}
  {operator : Operator} {value : ℤ}

/-- An operand that evaluates to an integer has this exact value as a leaf. -/
theorem IsInteger.map_number? (h : operand.IsInteger registry attributes value) :
    (operand.number? registry attributes).map Number.toRational = some (value : ℚ) := by
  obtain ⟨fits, houtcome⟩ := h
  rw [number?, houtcome]
  rfl

/-- A negation evaluates to an integer only where it is the exact negative of one. -/
theorem IsInteger.of_negative (h : (negative operand).IsInteger registry attributes value) :
    ∃ a, operand.IsInteger registry attributes a ∧ value = -a := by
  obtain ⟨fits, houtcome⟩ := h
  rw [evaluate, Traced.outcome_andThen_eq_ok_iff] at houtcome
  obtain ⟨inner, hinner, hnegative⟩ := houtcome
  obtain ⟨n, rfl, hnumber⟩ := Json.negative_eq_number_iff.mp hnegative
  obtain ⟨a, ha, rfl, hvalue⟩ := Number.eq_neg_of_negate hnumber
  exact ⟨a, ⟨ha.fits, hinner⟩, hvalue⟩

/-- Arithmetic evaluates to a number where both sides do and their numbers have this result. -/
theorem evaluate_arithmetic_eq_number_iff {result : Number} :
    ((arithmetic left operator right).evaluate registry attributes).outcome =
        .ok (.number result) ↔
      ∃ x y, (left.evaluate registry attributes).outcome = .ok (.number x) ∧
        (right.evaluate registry attributes).outcome = .ok (.number y) ∧
        operator.calculate x y = .ok result := by
  rw [evaluate, Traced.outcome_andThen_eq_ok_iff]
  constructor
  · rintro ⟨first, hfirst, h⟩
    obtain ⟨second, hsecond, hresult⟩ := Traced.outcome_andThen_eq_ok_iff.mp h
    obtain ⟨x, y, rfl, rfl, hcalculate⟩ := Operator.apply_eq_number_iff.mp hresult
    exact ⟨x, y, hfirst, hsecond, hcalculate⟩
  · rintro ⟨x, y, hfirst, hsecond, hcalculate⟩
    have hresult := Operator.apply_eq_number_iff.mpr ⟨x, y, rfl, rfl, hcalculate⟩
    exact ⟨_, hfirst, Traced.outcome_andThen_eq_ok_iff.mpr ⟨_, hsecond, hresult⟩⟩

/-- Arithmetic evaluates to an integer only where both sides do and it is their exact result. -/
theorem IsInteger.of_arithmetic
    (h : (arithmetic left operator right).IsInteger registry attributes value) :
    ∃ a b, left.IsInteger registry attributes a ∧ right.IsInteger registry attributes b ∧
      operator.rational? a b = some (value : ℚ) := by
  obtain ⟨fits, houtcome⟩ := h
  obtain ⟨x, y, hleft, hright, hcalculate⟩ := evaluate_arithmetic_eq_number_iff.mp houtcome
  obtain ⟨a, b, ha, hb, rfl, rfl⟩ := Operator.exists_signed_of_calculate hcalculate
  have hexact := ((Operator.calculate_signed_iff ha hb).mp hcalculate).2.1
  exact ⟨a, b, ⟨ha.fits, hleft⟩, ⟨hb.fits, hright⟩, hexact⟩

/-- An operand evaluates to an integer only where its leaves do and the integer is its exact
value. -/
theorem IsInteger.exact {operand : Operand} {value : ℤ}
    (h : operand.IsInteger registry attributes value) :
    (∀ leaf ∈ operand.leaves, ∃ n, leaf.IsInteger registry attributes n) ∧
      operand.rational? registry attributes = some (value : ℚ) := by
  fun_induction leaves operand generalizing value with
  | case1 inner ih =>
    obtain ⟨a, hinner, rfl⟩ := h.of_negative
    obtain ⟨hleaves, hexact⟩ := ih hinner
    refine ⟨hleaves, ?_⟩
    rw [rational?, hexact, Option.map_some, Int.cast_neg]
  | case2 left operator right ihLeft ihRight =>
    obtain ⟨a, b, hleft, hright, hresult⟩ := h.of_arithmetic
    obtain ⟨hleftLeaves, hleftExact⟩ := ihLeft hleft
    obtain ⟨hrightLeaves, hrightExact⟩ := ihRight hright
    refine ⟨List.forall_mem_append.mpr ⟨hleftLeaves, hrightLeaves⟩, ?_⟩
    rw [rational?, hleftExact, hrightExact]
    exact hresult
  | case3 leaf hnegative harithmetic =>
    refine ⟨List.forall_mem_singleton.mpr ⟨value, h⟩, ?_⟩
    rw [rational?]
    · exact h.map_number?
    all_goals assumption

end Evaluation

end Operand

/-- A numeral without a fraction and an exponent is spelled with its digits. -/
theorem Token.Numeral.Formed.spelling_eq_whole {numeral : Numeral} (h : numeral.Formed)
    (hfraction : numeral.fraction = []) (hmark : numeral.mark = []) :
    numeral.spelling = numeral.whole := by
  obtain ⟨whole, fraction, mark, exponent⟩ := numeral
  subst hfraction hmark
  have hexponent : IsExponent [] exponent := h.exponent
  cases hexponent
  exact List.append_nil whole

/-- A numeral that stands for an integer has digits only, and they are the integer. -/
theorem Token.Numeral.value?_eq_integer {numeral : Numeral} {value : ℤ}
    {fits : Number.Fits value} (h : numeral.value? = some (.integer value fits)) :
    numeral.fraction = [] ∧ numeral.mark = [] ∧ (Decimal.valueOf numeral.whole : ℤ) = value := by
  have hdouble : numeral.toDouble? ≠ some (.integer value fits) := by
    intro hinteger
    obtain ⟨x, -, hx⟩ := Option.map_eq_some_iff.mp hinteger
    cases hx
  rw [value?] at h
  split at h
  case isTrue hwhole =>
    rw [Bool.and_eq_true, List.isEmpty_iff, List.isEmpty_iff] at hwhole
    split at h
    case h_1 number hnumber =>
      rw [h] at hnumber
      exact ⟨hwhole.1, hwhole.2, (Number.ofSigned?_eq_integer_iff.mp hnumber).2⟩
    case h_2 => exact absurd h hdouble
  case isFalse => exact absurd h hdouble

/-- A number is read as a numeral that stands for it. -/
theorem Token.numeral_of_read {number : Number} {offset : Nat} {c : Char} {rest : List Char}
    {reading : Reading} (h : read offset c rest = .ok reading)
    (htoken : reading.token = .literal (.number number)) :
    reading.spelling = (Numeral.read (c :: rest)).1.spelling ∧
      (Numeral.read (c :: rest)).1.value? = some number := by
  cases read_eq_ok_iff.mp h with
  | number _ hvalue =>
    cases htoken
    exact ⟨rfl, hvalue⟩
  | quoted _ _ _ => cases htoken
  | word _ _ _ =>
    dsimp only [ofWord] at htoken
    split at htoken <;> cases htoken
  | sign _ _ _ hsign =>
    unfold ofSign? at hsign
    split at hsign <;> cases hsign <;> cases htoken
  | relation _ _ _ _ hrelation hread =>
    obtain ⟨relation, hrelation, -⟩ := exists_spelling_of_readRelation hrelation hread
    cases htoken.symm.trans hrelation

/-- The token of an integer is spelled with the digits of the integer. -/
theorem Token.IsSpelling.digits {value : ℤ} {fits : Number.Fits value} {spelling : List Char}
    (h : IsSpelling (.literal (.number (.integer value fits))) spelling) :
    (∀ c ∈ spelling, c.isDigit = true) ∧ (Decimal.valueOf spelling : ℤ) = value := by
  obtain ⟨c, others, -, hread⟩ := h.read_eq
  obtain ⟨hspelling, hvalue⟩ := numeral_of_read hread rfl
  obtain ⟨hfraction, hmark, hwhole⟩ := Numeral.value?_eq_integer hvalue
  have hformed : (Numeral.read (c :: others)).1.Formed := Numeral.formed_read _
  rw [hformed.spelling_eq_whole hfraction hmark] at hspelling
  change spelling = _ at hspelling
  rw [hspelling]
  exact ⟨hformed.whole, hwhole⟩

/-- Whether an integer is written in a text: one of the tokens there is spelled with its digits. -/
def Lexeme.IsWritten (text : List Char) (value : ℤ) : Prop :=
  ∃ fits digits offset, LiesIn text ⟨.literal (.number (.integer value fits)), offset⟩ digits ∧
    (∀ c ∈ digits, c.isDigit = true) ∧ (Decimal.valueOf digits : ℤ) = value

/-- Every integer among the tokens of a text is written there. -/
theorem Lexeme.isWritten_of_scan {text : String} {lexemes : List Lexeme} {value : ℤ}
    {fits : Number.Fits value} (h : scan text = .ok lexemes)
    (hmem : Token.literal (.number (.integer value fits)) ∈ lexemes.map Lexeme.token) :
    IsWritten text.toList value := by
  have hlayout : Layout [] text.toList lexemes := layout_of_scanFrom rfl h
  obtain ⟨⟨_, offset⟩, hlexeme, rfl⟩ := List.mem_map.mp hmem
  obtain ⟨digits, before, after, htext, hoffset, hspelling⟩ := hlayout.exists_liesIn _ hlexeme
  obtain ⟨hdigits, hvalue⟩ := hspelling.digits
  exact ⟨fits, digits, offset, ⟨before, after, htext, hoffset, hspelling⟩, hdigits, hvalue⟩

namespace Operand

/-- The literals among the leaves of an operand are among the tokens that it is made of. -/
theorem MadeOf.literal_of_mem_leaves {p : Token → Prop} {operand : Operand} {value : Json}
    (h : MadeOf p operand) (hmem : literal value ∈ operand.leaves) : p (.literal value) := by
  fun_induction leaves operand with
  | case1 inner ih => exact ih h hmem
  | case2 left operator right ihLeft ihRight =>
    rcases List.mem_append.mp hmem with hleft | hright
    · exact ihLeft h.1 hleft
    · exact ihRight h.2 hright
  | case3 leaf _ _ =>
    obtain rfl : literal value = leaf := List.mem_singleton.mp hmem
    exact h

/-- An integer among the leaves of an operand is written in every text that spells the operand. -/
theorem isWritten_of_mem_leaves {text : String} {operand : Operand} {value : ℤ}
    {fits : Number.Fits value} (h : IsSpelled text operand)
    (hmem : literal (.number (.integer value fits)) ∈ operand.leaves) :
    Lexeme.IsWritten text.toList value := by
  obtain ⟨lexemes, hscan, -, n, -, hsum⟩ := isSpelled_iff.mp h
  have hmade : MadeOf (fun token => token ∈ lexemes.map Lexeme.token) operand :=
    hsum.madeOf (fun _ htoken => htoken)
  exact Lexeme.isWritten_of_scan hscan (hmade.literal_of_mem_leaves hmem)

variable {registry : Registry} {attributes : Attributes}

/-- An operand that evaluates to an integer was exact all the way: every leaf evaluates to an
integer, which a text has the digits of where the leaf is written as a literal, and the integer is
the exact value that is calculated from the leaves. -/
theorem isInteger_exact {operand : Operand} {value : ℤ}
    (h : operand.IsInteger registry attributes value) :
    (∀ leaf ∈ operand.leaves, ∃ n, leaf.IsInteger registry attributes n ∧
      ∀ json text, leaf = literal json → IsSpelled text operand →
        Lexeme.IsWritten text.toList n) ∧
      operand.rational? registry attributes = some (value : ℚ) := by
  refine ⟨fun leaf hmem => ?_, h.exact.2⟩
  obtain ⟨n, hinteger⟩ := h.exact.1 leaf hmem
  refine ⟨n, hinteger, fun json text hliteral hspelled => ?_⟩
  obtain ⟨fits, houtcome⟩ := hinteger
  subst hliteral
  cases houtcome
  exact isWritten_of_mem_leaves hspelled hmem

/-- The sum of an integer that no double is and a literal, which another one divides, was exact all
the way. -/
theorem isInteger_exact_quotient :
    let attributes : Attributes :=
      { user := .object [("a", .number (.integer 9007199254740993 (by decide)))] }
    let two : Operand := .literal (.number (.integer 2 (by decide)))
    let seven : Operand := .literal (.number (.integer 7 (by decide)))
    let operand : Operand :=
      .negative (.arithmetic (.arithmetic (.field (.bag .user) "a") .plus two) .over
        (.negative seven))
    operand.IsInteger .empty attributes 1286742750677285 ∧
      IsSpelled "-((user.a + 2) / -7)" operand ∧
      Lexeme.IsWritten "-((user.a + 2) / -7)".toList 7 ∧
      operand.rational? .empty attributes = some ((1286742750677285 : ℤ) : ℚ) := by
  intro attributes two seven operand
  have hinteger : operand.IsInteger .empty attributes 1286742750677285 :=
    ⟨by decide, by decide +kernel⟩
  have hspelled : IsSpelled "-((user.a + 2) / -7)" operand := by
    have hname : Token.IsName "a" := ⟨⟨'a', [], rfl, rfl, List.forall_mem_nil _⟩, rfl⟩
    have hmade : MadeOf Token.Legible operand :=
      ⟨⟨⟨trivial, hname⟩, ⟨by decide, by decide⟩⟩, ⟨by decide, by decide⟩⟩
    have htext : String.ofList operand.text = "-((user.a + 2) / -7)" := by decide +kernel
    rw [← htext]
    exact isSpelled_text hmade (by decide)
  obtain ⟨hleaves, hexact⟩ := isInteger_exact hinteger
  have hseven : seven ∈ operand.leaves := .tail _ (.tail _ (.head _))
  obtain ⟨n, ⟨_, houtcome⟩, hwritten⟩ := hleaves seven hseven
  cases houtcome
  exact ⟨hinteger, hspelled, hwritten _ _ rfl hspelled, hexact⟩

/-- Arithmetic on two signed integers gives an integer just where the exact result is this integer,
signed too, but for the remainder of the least one by minus one. That is a zero among the
doubles. -/
theorem isInteger_arithmetic_iff {left right : Operand} {x y : ℤ} (hx : Number.Signed x)
    (hy : Number.Signed y) (hleft : left.IsInteger registry attributes x)
    (hright : right.IsInteger registry attributes y) (operator : Operator) :
    (∀ z : ℤ, (arithmetic left operator right).IsInteger registry attributes z ↔
      Number.Signed z ∧ operator.rational? x y = some (z : ℚ) ∧
        ¬(operator = .modulo ∧ x = -9223372036854775808 ∧ y = -1)) ∧
      (operator = .modulo → x = -9223372036854775808 → y = -1 →
        ((arithmetic left operator right).evaluate registry attributes).outcome =
          .ok (.number (.double (.zero true)))) := by
  obtain ⟨fitsLeft, hleft⟩ := hleft
  obtain ⟨fitsRight, hright⟩ := hright
  constructor
  · intro z
    constructor
    · rintro ⟨fits, houtcome⟩
      obtain ⟨a, b, ha, hb, hcalculate⟩ := evaluate_arithmetic_eq_number_iff.mp houtcome
      cases hleft.symm.trans ha
      cases hright.symm.trans hb
      exact (Operator.calculate_signed_iff hx hy).mp hcalculate
    · intro hexact
      have hcalculate : operator.calculate (.integer x hx.fits) (.integer y hy.fits) =
          .ok (.integer z hexact.1.fits) := (Operator.calculate_signed_iff hx hy).mpr hexact
      exact ⟨hexact.1.fits,
        evaluate_arithmetic_eq_number_iff.mpr ⟨_, _, hleft, hright, hcalculate⟩⟩
  · rintro rfl rfl rfl
    exact evaluate_arithmetic_eq_number_iff.mpr
      ⟨_, _, hleft, hright, Operator.calculate_modulo_least fitsLeft fitsRight⟩

/-- The remainder of the least signed integer by three is an integer. -/
theorem isInteger_arithmetic_iff_least :
    let attributes : Attributes :=
      { user := .object [("x", .number (.integer (-9223372036854775808) (by decide))),
          ("y", .number (.integer 3 (by decide)))] }
    let operand : Operand :=
      .arithmetic (.field (.bag .user) "x") .modulo (.field (.bag .user) "y")
    Operator.rational? .modulo ((-9223372036854775808 : ℤ) : ℚ) ((3 : ℤ) : ℚ) =
        some ((-2 : ℤ) : ℚ) ∧
      operand.IsInteger .empty attributes (-2) := by
  intro attributes operand
  have hx : Operand.IsInteger .empty attributes (.field (.bag .user) "x") (-9223372036854775808) :=
    ⟨by decide, by decide +kernel⟩
  have hy : Operand.IsInteger .empty attributes (.field (.bag .user) "y") 3 :=
    ⟨by decide, by decide +kernel⟩
  have hexact : Operator.rational? .modulo ((-9223372036854775808 : ℤ) : ℚ) ((3 : ℤ) : ℚ) =
      some ((-2 : ℤ) : ℚ) :=
    (Operator.rational?_modulo_iff (by decide)).mpr (by decide)
  refine ⟨hexact, ?_⟩
  have hiff := (isInteger_arithmetic_iff (by decide) (by decide) hx hy .modulo).1 (-2)
  exact hiff.mpr ⟨by decide, hexact, fun h => absurd h.2.2 (by decide)⟩

/-- The remainder of the least signed integer by minus one is exactly zero, but the value is a
double, and no position in a list. -/
theorem not_isInteger_modulo_least :
    let attributes : Attributes :=
      { user := .object [("items", .array [.string "first"]),
          ("x", .number (.integer (-9223372036854775808) (by decide))),
          ("y", .number (.integer (-1) (by decide)))] }
    let operand : Operand :=
      .arithmetic (.field (.bag .user) "x") .modulo (.field (.bag .user) "y")
    Operand.IsInteger .empty attributes (.field (.bag .user) "x") (-9223372036854775808) ∧
      Operand.IsInteger .empty attributes (.field (.bag .user) "y") (-1) ∧
      Operator.rational? .modulo ((-9223372036854775808 : ℤ) : ℚ) ((-1 : ℤ) : ℚ) =
        some ((0 : ℤ) : ℚ) ∧
      Number.Signed 0 ∧ ¬operand.IsInteger .empty attributes 0 ∧
      Rule.between .empty attributes "user.items[user.x % user.y]" "==" "'first'" =
        .error (.faulted "user.items[user.x % user.y]=='first'" .fractionalIndex) := by
  intro attributes operand
  have hexact : Operator.rational? .modulo ((-9223372036854775808 : ℤ) : ℚ) ((-1 : ℤ) : ℚ) =
      some ((0 : ℤ) : ℚ) :=
    (Operator.rational?_modulo_iff (by decide)).mpr (by decide)
  have houtcome : (operand.evaluate .empty attributes).outcome =
      .ok (.number (.double (.zero true))) := by
    decide +kernel
  refine ⟨⟨by decide, by decide +kernel⟩, ⟨by decide, by decide +kernel⟩, hexact, by decide, ?_,
    by decide +kernel⟩
  rintro ⟨fits, hinteger⟩
  rw [houtcome] at hinteger
  cases hinteger

end Operand

end AccessControl
