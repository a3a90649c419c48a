import AccessControl.Proofs.Rule.Seams

/-!
# How the tokens of a text lie in it

The tokens of a text, as they are spelled, make up the whole text together with the blanks between
them: no character is skipped and none is read twice. The offset of every token is the number of
bytes before its spelling. A spelling by itself is cut into its token alone, so no token depends on
what stands around it.
-/

namespace AccessControl

namespace Token

namespace Numeral

/-- An exponent that is read has a mark and digits. -/
theorem isExponent_of_readExponent (text : List Char) :
    IsExponent (readExponent text).1 (readExponent text).2.1 := by
  have hsign : ∀ rest, (readSign rest).1 = [] ∨ (readSign rest).1 = ['+'] ∨
      (readSign rest).1 = ['-'] := by
    intro rest
    unfold readSign
    split
    · exact Or.inr (Or.inl rfl)
    · exact Or.inr (Or.inr rfl)
    · exact Or.inl rfl
  unfold readExponent
  split
  · rename_i c rest
    dsimp only
    split
    case isTrue hletter =>
      split
      case isTrue hdigit =>
        exact .marked hletter (hsign rest) (spanDigits_ne_nil hdigit)
          (fun digit hmem => List.mem_takeWhile_imp hmem)
      case isFalse => exact .none
    case isFalse => exact .none
  · exact .none

/-- A numeral that is read consists of digits around its marks. -/
theorem formed_read (text : List Char) : (Numeral.read text).1.Formed := by
  refine ⟨fun digit hmem => List.mem_takeWhile_imp hmem, ?_, isExponent_of_readExponent _⟩
  change ∀ digit ∈ (readFraction (Decimal.spanDigits text).2).1, digit.isDigit = true
  unfold readFraction
  split
  · split
    · exact fun digit hmem => List.mem_takeWhile_imp hmem
    · exact List.forall_mem_nil _
  · exact List.forall_mem_nil _

/-- A numeral that is read is read again from its spelling alone. -/
theorem read_spelling_read (text : List Char) :
    Numeral.read (Numeral.read text).1.spelling = ((Numeral.read text).1, []) := by
  have hnothing : Separated [] := trivial
  have hread := (formed_read text).read hnothing
  rwa [List.append_nil] at hread

/-- A numeral that is spelled from a point on has a digit behind the point. -/
theorem Formed.startsWithDigit_of_point {numeral : Numeral} {others : List Char}
    (h : numeral.Formed) (hspelling : numeral.spelling = '.' :: others) :
    startsWithDigit others = true := by
  obtain ⟨whole, fraction, mark, exponent⟩ := numeral
  have hpoint : ∀ c : Char, c.isDigit = true → c ≠ '.' := by
    rintro c hc rfl
    exact absurd hc (by decide)
  cases whole with
  | cons digit digits =>
    have hdigit : digit = '.' := (List.cons.inj hspelling).1
    exact absurd hdigit (hpoint digit (h.whole digit List.mem_cons_self))
  | nil =>
    cases fraction with
    | cons digit digits =>
      rw [← (List.cons.inj hspelling).2]
      exact h.fraction digit List.mem_cons_self
    | nil =>
      have hexponent : IsExponent mark exponent := h.exponent
      have htail : mark ++ exponent = '.' :: others := hspelling
      cases hexponent with
      | none => cases htail
      | marked hletter _ _ _ =>
        have hpoint : _ = '.' := (List.cons.inj htail).1
        rcases hletter with rfl | rfl <;> exact absurd hpoint (by decide)

/-- No blank belongs to a numeral. -/
theorem Formed.isBlank {numeral : Numeral} (h : numeral.Formed) :
    ∀ c ∈ numeral.spelling, isBlank c = false :=
  h.forall_mem_spelling (fun _ hc => isBlank_of_isNamePart (isNamePart_of_isDigit hc))
    (forall_mem_marks.mpr (by decide))

end Numeral

/-- A comparison operator is read again from its spelling alone. -/
theorem readRelation_alone {offset : Nat} {c : Char} {alone : Option Relation}
    {withEquals : Relation} {rest : List Char} {reading : Reading}
    (h : readRelation offset c alone withEquals rest = .ok reading) (other : Nat) :
    ∃ others, reading.spelling = c :: others ∧
      readRelation other c alone withEquals others = .ok ⟨reading.token, c :: others, []⟩ ∧
      (others = [] ∨ others = ['=']) := by
  unfold readRelation at h
  split at h
  · cases h
    exact ⟨['='], rfl, rfl, Or.inr rfl⟩
  · split at h
    · cases h
      exact ⟨[], rfl, rfl, Or.inl rfl⟩
    · cases h

/-- A token is read again from its spelling alone. -/
theorem read_alone {offset : Nat} {c : Char} {rest : List Char} {reading : Reading}
    (h : read offset c rest = .ok reading) (other : Nat) :
    ∃ others, reading.spelling = c :: others ∧
      read other c others = .ok ⟨reading.token, c :: others, []⟩ := by
  cases read_eq_ok_iff.mp h with
  | @number number hdigit hvalue =>
    obtain ⟨first, others, hspelling⟩ :=
      List.exists_cons_of_ne_nil (Numeral.spelling_read_ne_nil hdigit)
    have happend := Numeral.spelling_read (c :: rest)
    rw [hspelling] at happend
    obtain rfl : first = c := (List.cons.inj happend).1
    have hread := Numeral.read_spelling_read (first :: rest)
    rw [hspelling] at hread
    have hstart : (first.isDigit || (first == '.' && Numeral.startsWithDigit others)) = true := by
      by_cases hpoint : first = '.'
      · subst hpoint
        rw [(Numeral.formed_read _).startsWithDigit_of_point hspelling]
        rfl
      · rw [beq_false_of_ne hpoint, Bool.false_and, Bool.or_false] at hdigit ⊢
        exact hdigit
    have hagain : (Numeral.read (first :: others)).1.value? = some number := by
      rw [hread]
      exact hvalue
    have hnumber : Reads other first others _ := .number hstart hagain
    rw [hread, hspelling] at hnumber
    exact ⟨others, hspelling, read_eq_ok_iff.mpr hnumber⟩
  | quoted hdigit hquote hread =>
    have hnone := readQuoted_before hread []
    rw [List.append_nil] at hnone
    have hplain : ∀ text, (c.isDigit || (c == '.' && Numeral.startsWithDigit text)) = false := by
      intro text
      simp only [Bool.or_eq_true, beq_iff_eq] at hquote
      rcases hquote with rfl | rfl <;> rfl
    exact ⟨_, rfl, read_eq_ok_iff.mpr (.quoted (hplain _) hquote hnone)⟩
  | word hdigit hquote hstart =>
    have hword : ∀ d ∈ rest.takeWhile Text.isNamePart, Text.isNamePart d = true :=
      fun d hd => List.mem_takeWhile_imp hd
    have hnothing : Separated [] := trivial
    have hread := read_word hstart hword hnothing other
    rw [List.append_nil] at hread
    exact ⟨_, rfl, hread⟩
  | sign hdigit hquote hstart hsign =>
    have hplain : (c.isDigit || (c == '.' && Numeral.startsWithDigit [])) = false := by
      rw [Bool.or_eq_false_iff] at hdigit
      rw [hdigit.1, Numeral.startsWithDigit, Bool.and_false]
      rfl
    exact ⟨[], rfl, read_eq_ok_iff.mpr (.sign hplain hquote hstart hsign)⟩
  | relation hdigit hquote hstart hsign hrelation hread =>
    obtain ⟨others, hspelling, halone, hothers⟩ := readRelation_alone hread other
    have hplain : (c.isDigit || (c == '.' && Numeral.startsWithDigit others)) = false := by
      rw [Bool.or_eq_false_iff] at hdigit
      rcases hothers with rfl | rfl <;>
        rw [hdigit.1, show Numeral.startsWithDigit _ = false from rfl, Bool.and_false] <;> rfl
    exact ⟨others, hspelling,
      read_eq_ok_iff.mpr (.relation hplain hquote hstart hsign hrelation halone)⟩

/-- A quoted text is spelled up to its closing quote. -/
theorem getLast?_of_readQuoted {quote : Char} {text meant spelling behind : List Char}
    (h : readQuoted quote text = some (meant, spelling, behind)) :
    spelling.getLast? = some quote := by
  fun_induction readQuoted quote text generalizing meant spelling behind with
  | case1 => cases h
  | case2 rest =>
    cases h
    rfl
  | case3 => cases h
  | case4 e rest hquote ih =>
    simp only [Option.map_eq_some_iff, Prod.exists, Prod.mk.injEq] at h
    obtain ⟨_, ending, _, hread, _, rfl, _⟩ := h
    rw [List.getLast?_cons, List.getLast?_cons, ih hread]
    rfl
  | case5 c rest hquote hescape ih =>
    simp only [Option.map_eq_some_iff, Prod.exists, Prod.mk.injEq] at h
    obtain ⟨_, ending, _, hread, _, rfl, _⟩ := h
    rw [List.getLast?_cons, ih hread]
    rfl

/-- Blanks neither begin nor end the spelling of a token. -/
theorem isBlank_getLast?_of_read {offset : Nat} {c : Char} {rest : List Char} {reading : Reading}
    (hblank : isBlank c = false) (h : read offset c rest = .ok reading) :
    ∀ last ∈ reading.spelling.getLast?, isBlank last = false := by
  have hall : (∀ d ∈ reading.spelling, isBlank d = false) →
      ∀ last ∈ reading.spelling.getLast?, isBlank last = false :=
    fun hmem last hlast => hmem last (List.mem_of_getLast? hlast)
  cases read_eq_ok_iff.mp h with
  | number _ _ => exact hall (Numeral.formed_read _).isBlank
  | quoted _ hquote hread =>
    intro last hlast
    rw [List.getLast?_cons, getLast?_of_readQuoted hread] at hlast
    obtain rfl : c = last := Option.some.inj hlast
    exact hblank
  | word _ _ _ =>
    exact hall (List.forall_mem_cons.mpr ⟨hblank,
      fun d hd => isBlank_of_isNamePart (List.mem_takeWhile_imp hd)⟩)
  | sign _ _ _ _ => exact hall (List.forall_mem_singleton.mpr hblank)
  | relation _ _ _ _ _ hread =>
    obtain ⟨others, hspelling, -, hothers⟩ := readRelation_alone hread 0
    refine hall (hspelling ▸ List.forall_mem_cons.mpr ⟨hblank, ?_⟩)
    rcases hothers with rfl | rfl
    · exact List.forall_mem_nil _
    · exact List.forall_mem_singleton.mpr rfl

end Token

/-- Whether a text is the spelling of a token: cut by itself it is this token and nothing else, and
no blank ends it. -/
structure Token.IsSpelling (token : Token) (spelling : List Char) : Prop where
  /-- The token is the only one, and it begins with the text. -/
  scan : Lexeme.scan (String.ofList spelling) = .ok [⟨token, 0⟩]
  /-- The text ends with the token. -/
  bare : ∀ last ∈ spelling.getLast?, Token.isBlank last = false

/-- Tokens begin behind the offset that cutting begins with. -/
theorem Lexeme.le_offset_of_scanFrom {offset : Nat} {text : List Char} {lexemes : List Lexeme}
    (h : scanFrom offset text = .ok lexemes) : ∀ lexeme ∈ lexemes, offset ≤ lexeme.offset := by
  fun_induction scanFrom offset text generalizing lexemes with
  | case1 =>
    cases h
    exact List.forall_mem_nil _
  | case2 offset c rest hblank ih =>
    exact fun lexeme hmem => Nat.le_trans (Nat.le_add_right _ _) (ih h lexeme hmem)
  | case3 offset c rest hblank cause hread => cases h
  | case4 offset c rest hblank reading hread cause hscan => cases h
  | case5 offset c rest hblank reading hread others hscan ih =>
    cases h
    exact List.forall_mem_cons.mpr ⟨Nat.le_refl _,
      fun lexeme hmem => Nat.le_trans (Nat.le_add_right _ _) (ih hscan lexeme hmem)⟩

/-- A text without any token is blank. -/
theorem Lexeme.isBlank_of_scanFrom {offset : Nat} {text : List Char}
    (h : scanFrom offset text = .ok []) : ∀ c ∈ text, Token.isBlank c = true := by
  fun_induction scanFrom offset text with
  | case1 => exact List.forall_mem_nil _
  | case2 offset c rest hblank ih => exact List.forall_mem_cons.mpr ⟨hblank, ih h⟩
  | case3 offset c rest hblank cause hread => cases h
  | case4 offset c rest hblank reading hread cause hscan => cases h
  | case5 offset c rest hblank reading hread others hscan ih => cases h

/-- What is read at a character that is no blank is spelled as the token. -/
theorem Token.isSpelling_of_read {offset : Nat} {c : Char} {rest : List Char} {reading : Reading}
    (hblank : isBlank c = false) (h : read offset c rest = .ok reading) :
    reading.token.IsSpelling reading.spelling := by
  refine ⟨?_, isBlank_getLast?_of_read hblank h⟩
  obtain ⟨others, hspelling, halone⟩ := read_alone h 0
  rw [hspelling, Lexeme.scan, String.toList_ofList, Lexeme.scanFrom,
    if_neg (Bool.eq_false_iff.mp hblank)]
  split
  case h_1 cause hread =>
    rw [halone] at hread
    cases hread
  case h_2 reading' hread =>
    rw [halone] at hread
    cases hread
    rw [Lexeme.scanFrom]

/-- A text that is a single token from its first character on is read as this token, and blanks are
left. -/
theorem Lexeme.read_of_scanFrom {offset : Nat} {text : List Char} {token : Token}
    (h : scanFrom offset text = .ok [⟨token, offset⟩]) :
    ∃ c others reading, text = c :: others ∧ Token.read offset c others = .ok reading ∧
      reading.token = token ∧ ∀ d ∈ reading.rest, Token.isBlank d = true := by
  fun_induction scanFrom offset text with
  | case1 => cases h
  | case2 offset c rest hblank _ =>
    have hoffset : offset + c.utf8Size ≤ offset := le_offset_of_scanFrom h _ List.mem_cons_self
    have hsize : 0 < c.utf8Size := c.utf8Size_pos
    omega
  | case3 offset c rest hblank cause hread => cases h
  | case4 offset c rest hblank reading hread cause hscan => cases h
  | case5 offset c rest hblank reading hread others hscan _ =>
    cases h
    exact ⟨c, rest, reading, rfl, hread, rfl, isBlank_of_scanFrom hscan⟩

/-- The spelling of a token is read as this token, and nothing is left. -/
theorem Token.IsSpelling.read_eq {token : Token} {spelling : List Char}
    (h : token.IsSpelling spelling) :
    ∃ c others, spelling = c :: others ∧ read 0 c others = .ok ⟨token, spelling, []⟩ := by
  have hscan : Lexeme.scanFrom 0 spelling = .ok [⟨token, 0⟩] := by
    rw [← h.scan, Lexeme.scan, String.toList_ofList]
  obtain ⟨c, others, ⟨_, front, behind⟩, rfl, hread, rfl, hblank⟩ := Lexeme.read_of_scanFrom hscan
  have happend : front ++ behind = c :: others := spelling_append_rest hread
  have hbare := h.bare
  rw [← happend] at hbare
  obtain rfl | ⟨initial, last, rfl⟩ := List.eq_nil_or_concat behind
  · rw [List.append_nil] at happend
    rw [happend] at hread
    exact ⟨c, others, rfl, hread⟩
  · have hlast := hbare last (by simp)
    rw [hblank last (by simp)] at hlast
    cases hlast

namespace Lexeme

/-- How tokens lie in a text that stands behind another one. Blanks are passed over; a token lies
where it is spelled, and its offset is the number of bytes before. -/
inductive Layout : (before text : List Char) → List Lexeme → Prop where
  /-- The text is at its end, and there is no further token. -/
  | done {before : List Char} : Layout before [] []
  /-- A blank between tokens. -/
  | blank {before rest : List Char} {c : Char} {lexemes : List Lexeme} :
    Token.isBlank c = true → Layout (before ++ [c]) rest lexemes → Layout before (c :: rest) lexemes
  /-- The spelling of a token. -/
  | token {before spelling rest : List Char} {token : Token} {offset : Nat}
    {lexemes : List Lexeme} : token.IsSpelling spelling →
    offset = (String.ofList before).utf8ByteSize → Layout (before ++ spelling) rest lexemes →
    Layout before (spelling ++ rest) (⟨token, offset⟩ :: lexemes)

/-- The tokens of a part of a text lie in this part. -/
theorem layout_of_scanFrom {offset : Nat} {before text : List Char} {lexemes : List Lexeme}
    (hoffset : offset = Text.byteLength before) (h : scanFrom offset text = .ok lexemes) :
    Layout before text lexemes := by
  fun_induction scanFrom offset text generalizing before lexemes with
  | case1 =>
    cases h
    exact .done
  | case2 offset c rest hblank ih =>
    refine .blank hblank (ih ?_ h)
    rw [hoffset, Text.byteLength_append]
    rfl
  | case3 offset c rest hblank cause hread => cases h
  | case4 offset c rest hblank reading hread cause hscan => cases h
  | case5 offset c rest hblank reading hread others hscan ih =>
    cases h
    rw [← Token.spelling_append_rest hread]
    refine .token (Token.isSpelling_of_read (Bool.eq_false_iff.mpr hblank) hread) ?_ (ih ?_ hscan)
    · rw [hoffset, Text.byteLength_eq_utf8ByteSize]
    · rw [hoffset, Text.byteLength_append]

/-- The tokens of a text lie in it one after another: their spellings, with nothing but blanks
around them, are the text, every offset is the number of bytes before the spelling, and every
spelling alone is cut into its token. -/
theorem layout_of_scan {text : String} {lexemes : List Lexeme} (h : scan text = .ok lexemes) :
    Layout [] text.toList lexemes :=
  layout_of_scanFrom rfl h

/-- A number from its point on, an operator of two characters and a text with an escape and
characters of several bytes lie behind one another. -/
theorem layout_of_scan_umlauts :
    scan ".5e1<='\u00e4\\'\u20ac' - x" =
        .ok [⟨.literal (.number (.double (.ofInt 5 (by decide)))), 0⟩, ⟨.relation .atMost, 4⟩,
          ⟨.literal (.string "\u00e4'\u20ac"), 6⟩, ⟨.operator .minus, 16⟩, ⟨.name "x", 18⟩] ∧
      Layout [] ".5e1<='\u00e4\\'\u20ac' - x".toList
        [⟨.literal (.number (.double (.ofInt 5 (by decide)))), 0⟩, ⟨.relation .atMost, 4⟩,
          ⟨.literal (.string "\u00e4'\u20ac"), 6⟩, ⟨.operator .minus, 16⟩, ⟨.name "x", 18⟩] := by
  have hscan : scan ".5e1<='\u00e4\\'\u20ac' - x" =
      .ok [⟨.literal (.number (.double (.ofInt 5 (by decide)))), 0⟩, ⟨.relation .atMost, 4⟩,
        ⟨.literal (.string "\u00e4'\u20ac"), 6⟩, ⟨.operator .minus, 16⟩, ⟨.name "x", 18⟩] := by
    decide +kernel
  exact ⟨hscan, layout_of_scan hscan⟩

/-- Where a token lies in a text: it is spelled there, and its offset is the number of bytes
before. -/
def LiesIn (text : List Char) (lexeme : Lexeme) (spelling : List Char) : Prop :=
  ∃ before after, text = before ++ spelling ++ after ∧
    lexeme.offset = (String.ofList before).utf8ByteSize ∧ lexeme.token.IsSpelling spelling

/-- Every token of a text lies in it. -/
theorem Layout.exists_liesIn {before text : List Char} {lexemes : List Lexeme}
    (h : Layout before text lexemes) :
    ∀ lexeme ∈ lexemes, ∃ spelling, LiesIn (before ++ text) lexeme spelling := by
  induction h with
  | done => exact List.forall_mem_nil _
  | blank _ _ ih => rwa [List.append_assoc] at ih
  | @token before spelling rest token offset lexemes hspelling hoffset _ ih =>
    rw [List.append_assoc] at ih
    exact List.forall_mem_cons.mpr
      ⟨⟨spelling, before, rest, (List.append_assoc _ _ _).symm, hoffset, hspelling⟩, ih⟩

end Lexeme

end AccessControl
