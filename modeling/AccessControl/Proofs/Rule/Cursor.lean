import AccessControl.Proofs.Expression.Characters
import AccessControl.Proofs.Rule.Layout
import AccessControl.Proofs.Text.Position

/-!
# Reading tokens at byte positions

Tokens can be read from the bytes of a text with nothing but a position kept: bytes are looked at
one by one, numbers and names are counted byte by byte, and the text is cut only where a token has
its value taken from it. All the positions at which it is cut are between characters, and what is
read is the same as without positions.
-/

namespace AccessControl

open Text (bytes IsAscii)

namespace Token

/-- The characters of names are ones of ASCII. -/
theorem isAscii_of_isNamePart {c : Char} (h : Text.isNamePart c = true) : IsAscii c := by
  have hkinds : c.isAlphanum = true ∨ c = '_' ∨ c = '$' := by
    simpa only [Text.isNamePart, Bool.or_eq_true, beq_iff_eq, or_assoc] using h
  obtain ⟨range, hrange, -, hle⟩ := Expression.ascii_range hkinds
  have hsmall : ∀ range ∈ Expression.asciiRanges, range.2 < 128 := by decide
  exact Nat.lt_of_le_of_lt hle (hsmall range hrange)

/-- Digits are characters of ASCII. -/
theorem isAscii_of_isDigit {c : Char} (h : c.isDigit = true) : IsAscii c :=
  isAscii_of_isNamePart (Numeral.isNamePart_of_isDigit h)

/-- Blanks are characters of ASCII. -/
theorem isAscii_of_isBlank {c : Char} (h : isBlank c = true) : IsAscii c := by
  simp only [isBlank, Bool.or_eq_true, beq_iff_eq] at h
  rcases h with ((rfl | rfl) | rfl) | rfl <;> decide

/-- No other character is a digit. -/
theorem isDigit_of_not_isAscii {c : Char} (h : ¬IsAscii c) : c.isDigit = false :=
  Bool.eq_false_iff.mpr (fun hdigit => h (isAscii_of_isDigit hdigit))

/-- No other character belongs to a name. -/
theorem isNamePart_of_not_isAscii {c : Char} (h : ¬IsAscii c) : Text.isNamePart c = false :=
  Bool.eq_false_iff.mpr (fun hpart => h (isAscii_of_isNamePart hpart))

/-- No other character is a sign or belongs to one. -/
theorem signs_of_not_isAscii {c : Char} (h : ¬IsAscii c) :
    ofSign? c = none ∧ relations? c = none := by
  constructor
  · unfold ofSign?
    split <;> first | rfl | exact absurd (by decide) h
  · unfold relations?
    split <;> first | rfl | exact absurd (by decide) h

namespace Numeral

/-- A text starts with a digit just where its bytes do. -/
theorem startsWithDigit_bytes (text : List Char) :
    startsWithDigit (bytes text) = startsWithDigit text := by
  cases text with
  | nil => rfl
  | cons c rest =>
    by_cases hascii : IsAscii c
    · rw [Text.bytes_cons_of_isAscii hascii]
      rfl
    · obtain ⟨lead, others, hbytes, hlead⟩ := Text.exists_lead_of_not_isAscii hascii rest
      rw [hbytes, startsWithDigit, startsWithDigit, isDigit_of_not_isAscii hascii,
        isDigit_of_not_isAscii hlead]

/-- Digits are cut off the bytes of a text as off the text. -/
theorem spanDigits_bytes (text : List Char) :
    Decimal.spanDigits (bytes text) =
      ((Decimal.spanDigits text).1, bytes (Decimal.spanDigits text).2) := by
  obtain ⟨htake, hdrop⟩ := Text.span_bytes (fun c hc => isDigit_of_not_isAscii hc) text
  rw [Decimal.spanDigits, Decimal.spanDigits, htake, hdrop]

/-- A fraction is read in the bytes of a text as in the text. -/
theorem readFraction_bytes (text : List Char) :
    readFraction (bytes text) = ((readFraction text).1, bytes (readFraction text).2) := by
  cases text with
  | nil => rfl
  | cons c rest =>
    by_cases hc : c = '.'
    · subst hc
      rw [Text.bytes_cons_of_isAscii (by decide), readFraction, readFraction,
        startsWithDigit_bytes, spanDigits_bytes]
      split
      · rfl
      · rw [Text.bytes_cons_of_isAscii (by decide)]
    · obtain ⟨b, others, hbytes, hb⟩ := Text.exists_byte c rest
      have hpoint : b ≠ '.' := fun heq => hc ((hb '.' (by decide)).mp heq)
      rw [readFraction_of_ne hc, hbytes, readFraction_of_ne hpoint]

/-- A sign is read in the bytes of a text as in the text. -/
theorem readSign_bytes (text : List Char) :
    readSign (bytes text) = ((readSign text).1, bytes (readSign text).2) := by
  cases text with
  | nil => rfl
  | cons c rest =>
    by_cases hplus : c = '+'
    · subst hplus
      rw [Text.bytes_cons_of_isAscii (by decide)]
      rfl
    by_cases hminus : c = '-'
    · subst hminus
      rw [Text.bytes_cons_of_isAscii (by decide)]
      rfl
    obtain ⟨b, others, hbytes, hb⟩ := Text.exists_byte c rest
    have hplus' : b ≠ '+' := fun heq => hplus ((hb '+' (by decide)).mp heq)
    have hminus' : b ≠ '-' := fun heq => hminus ((hb '-' (by decide)).mp heq)
    rw [readSign_of_ne hplus hminus, hbytes, readSign_of_ne hplus' hminus']

/-- An exponent is read in the bytes of a text as in the text. -/
theorem readExponent_bytes (text : List Char) :
    readExponent (bytes text) =
      ((readExponent text).1, (readExponent text).2.1, bytes (readExponent text).2.2) := by
  cases text with
  | nil => rfl
  | cons c rest =>
    by_cases hletter : c = 'e' ∨ c = 'E'
    · have hascii : IsAscii c := by rcases hletter with rfl | rfl <;> decide
      rw [Text.bytes_cons_of_isAscii hascii, readExponent, readExponent, if_pos hletter,
        if_pos hletter, readSign_bytes]
      dsimp only
      rw [startsWithDigit_bytes, spanDigits_bytes]
      split
      · rfl
      · rw [Text.bytes_cons_of_isAscii hascii]
    · obtain ⟨b, others, hbytes, hb⟩ := Text.exists_byte c rest
      have hletter' : ¬(b = 'e' ∨ b = 'E') := by
        rwa [hb 'e' (by decide), hb 'E' (by decide)]
      rw [readExponent, if_neg hletter, hbytes, readExponent, if_neg hletter']

/-- A numeral is read in the bytes of a text as in the text. -/
theorem read_bytes (text : List Char) :
    read (bytes text) = ((read text).1, bytes (read text).2) := by
  simp only [read, spanDigits_bytes, readFraction_bytes, readExponent_bytes]

/-- Numerals are spelled in ASCII. -/
theorem Formed.isAscii {numeral : Numeral} (h : numeral.Formed) :
    ∀ c ∈ numeral.spelling, IsAscii c :=
  h.forall_mem_spelling (fun _ hc => isAscii_of_isDigit hc) (forall_mem_marks.mpr (by decide))

end Numeral

/-- The connective at the head of a text. -/
def connective? (c : Char) (rest : List Char) : Option Connective :=
  if c = '&' ∧ rest.head? = some '&' then some .and
  else if c = '|' ∧ rest.head? = some '|' then some .or
  else none

/-- What begins no token is refused as a connective if it is one. -/
theorem refusal_eq (offset : Nat) (c : Char) (rest : List Char) :
    refusal offset c rest =
      match connective? c rest with
      | some sign => .connective sign offset
      | none => .unexpectedCharacter c offset := by
  unfold refusal
  split
  · rfl
  · rfl
  · rename_i hand hor
    have hother : connective? c rest = none := by
      rw [connective?, if_neg, if_neg]
      · rintro ⟨rfl, hhead⟩
        obtain ⟨tail, rfl⟩ := List.head?_eq_some_iff.mp hhead
        exact hor tail rfl rfl
      · rintro ⟨rfl, hhead⟩
        obtain ⟨tail, rfl⟩ := List.head?_eq_some_iff.mp hhead
        exact hand tail rfl rfl
    rw [hother]

/-- The token at a byte position of a text, with the position behind it, read from the byte there
and the bytes behind. Nothing if the text would have to be cut inside a character. -/
def readAt (text : List Char) (position : Nat) (b : Char) (behind : List Char) :
    Option (Except SyntaxError (Token × Nat)) :=
  if b.isDigit || (b == '.' && Numeral.startsWithDigit behind) then
    let stop := position + (Numeral.read (b :: behind)).1.spelling.length
    (Text.slice? text position stop).map (fun literal =>
      match (Numeral.read literal).1.value? with
      | some number => .ok (.literal (.number number), stop)
      | none => .error (.invalidNumber (String.ofList literal)))
  else if b == '"' || b == '\'' then
    (Text.behind? text (position + 1)).map (fun body =>
      match readQuoted b body with
      | some (meant, spelling, _) =>
        .ok (.literal (Json.ofChars meant), position + 1 + Text.byteLength spelling)
      | none => .error (.unterminatedString position))
  else if Text.isNameStart b then
    let stop := position + (1 + (behind.takeWhile Text.isNamePart).length)
    (Text.slice? text position stop).map (fun word => .ok (ofWord word, stop))
  else
    match ofSign? b with
    | some token => some (.ok (token, position + 1))
    | none =>
      match relations? b with
      | some (alone, withEquals) =>
        some ((readRelation position b alone withEquals behind).map (fun reading =>
          (reading.token, position + reading.spelling.length)))
      | none =>
        match connective? b behind with
        | some sign => some (.error (.connective sign position))
        | none =>
          (Text.behind? text position).map (fun left =>
            .error (.unexpectedCharacter (left.headD '\uFFFD') position))

section ReadAt

variable (before : List Char) {c : Char} (rest : List Char)

/-- What is read of a token at a position: the token and the position behind its spelling. -/
def Reading.upTo (position : Nat) (reading : Reading) : Token × Nat :=
  (reading.token, position + Text.byteLength reading.spelling)

/-- The number at a position is read as without positions. -/
theorem readAt_number (hascii : IsAscii c)
    (hdigit : (c.isDigit || (c == '.' && Numeral.startsWithDigit rest)) = true) :
    readAt (before ++ c :: rest) (Text.byteLength before) c (bytes rest) =
      some ((read (Text.byteLength before) c rest).map
        (Reading.upTo (Text.byteLength before))) := by
  have hnumeral : Numeral.read (c :: bytes rest) =
      ((Numeral.read (c :: rest)).1, bytes (Numeral.read (c :: rest)).2) := by
    rw [← Text.bytes_cons_of_isAscii hascii, Numeral.read_bytes]
  have hlength : (Numeral.read (c :: rest)).1.spelling.length =
      Text.byteLength (Numeral.read (c :: rest)).1.spelling :=
    (Text.byteLength_of_isAscii (Numeral.formed_read _).isAscii).symm
  have hslice := Text.slice?_append before (Numeral.read (c :: rest)).1.spelling
    (Numeral.read (c :: rest)).2
  rw [Numeral.spelling_read] at hslice
  simp only [readAt, read, Numeral.startsWithDigit_bytes, if_pos hdigit, hnumeral, hlength, hslice,
    Option.map_some, Numeral.read_spelling_read]
  cases (Numeral.read (c :: rest)).1.value? <;> rfl

/-- The quoted text at a position is read as without positions. -/
theorem readAt_quoted (hascii : IsAscii c)
    (hdigit : (c.isDigit || (c == '.' && Numeral.startsWithDigit rest)) = false)
    (hquote : (c == '"' || c == '\'') = true) :
    readAt (before ++ c :: rest) (Text.byteLength before) c (bytes rest) =
      some ((read (Text.byteLength before) c rest).map
        (Reading.upTo (Text.byteLength before))) := by
  have hsize : c.utf8Size = 1 := Text.utf8Size_of_isAscii hascii
  have hbody := Text.behind?_append (before ++ [c]) rest
  rw [List.append_assoc, List.singleton_append, Text.byteLength_append, Text.byteLength_cons,
    Text.byteLength_nil, hsize] at hbody
  simp only [readAt, read, Numeral.startsWithDigit_bytes, hdigit, hquote, Bool.false_eq_true,
    if_false, if_true, hbody, Option.map_some]
  cases readQuoted c rest with
  | none => rfl
  | some parts =>
    simp only [Except.map, Reading.upTo, Text.byteLength_cons, hsize, Nat.add_assoc]

/-- The word at a position is read as without positions. -/
theorem readAt_word (hascii : IsAscii c)
    (hdigit : (c.isDigit || (c == '.' && Numeral.startsWithDigit rest)) = false)
    (hquote : (c == '"' || c == '\'') = false) (hstart : Text.isNameStart c = true) :
    readAt (before ++ c :: rest) (Text.byteLength before) c (bytes rest) =
      some ((read (Text.byteLength before) c rest).map
        (Reading.upTo (Text.byteLength before))) := by
  have hparts : (bytes rest).takeWhile Text.isNamePart = rest.takeWhile Text.isNamePart :=
    (Text.span_bytes (fun d hd => isNamePart_of_not_isAscii hd) rest).1
  have hlength : 1 + (rest.takeWhile Text.isNamePart).length =
      Text.byteLength (c :: rest.takeWhile Text.isNamePart) := by
    rw [Text.byteLength_of_isAscii, List.length_cons, Nat.add_comm]
    exact List.forall_mem_cons.mpr
      ⟨hascii, fun d hd => isAscii_of_isNamePart (List.mem_takeWhile_imp hd)⟩
  have hslice := Text.slice?_append before (c :: rest.takeWhile Text.isNamePart)
    (rest.dropWhile Text.isNamePart)
  rw [List.cons_append, List.takeWhile_append_dropWhile] at hslice
  simp only [readAt, read, Numeral.startsWithDigit_bytes, hdigit, hquote, hstart, hparts, hlength,
    hslice, Bool.false_eq_true, if_false, if_true, Option.map_some]
  rfl

/-- Without an equals sign behind it, a character is a comparison operator alone or none. -/
theorem readRelation_of_head?_ne {rest : List Char} (h : rest.head? ≠ some '=') (offset : Nat)
    (c : Char) (alone : Option Relation) (withEquals : Relation) :
    readRelation offset c alone withEquals rest =
      match alone with
      | some sign => .ok ⟨.relation sign, [c], rest⟩
      | none => .error (.unexpectedCharacter c offset) := by
  unfold readRelation
  split
  · exact absurd rfl h
  · rfl

/-- A comparison operator is read in bytes as in the text. -/
theorem readRelation_bytes (hascii : IsAscii c) (position : Nat) (alone : Option Relation)
    (withEquals : Relation) :
    (readRelation position c alone withEquals (bytes rest)).map
        (fun reading => (reading.token, position + reading.spelling.length)) =
      (readRelation position c alone withEquals rest).map (Reading.upTo position) := by
  by_cases hequals : rest.head? = some '='
  · obtain ⟨tail, rfl⟩ := List.head?_eq_some_iff.mp hequals
    have htwo : Text.byteLength [c, '='] = [c, '='].length := by
      refine Text.byteLength_of_isAscii (List.forall_mem_cons.mpr ⟨hascii, ?_⟩)
      exact List.forall_mem_singleton.mpr (by decide)
    rw [Text.bytes_cons_of_isAscii (by decide)]
    simp only [readRelation, Except.map, Reading.upTo, htwo]
  · have hone : Text.byteLength [c] = [c].length :=
      Text.byteLength_of_isAscii (List.forall_mem_singleton.mpr hascii)
    have hequals' : (bytes rest).head? ≠ some '=' :=
      fun hhead => hequals ((Text.head?_bytes (by decide) rest).mp hhead)
    rw [readRelation_of_head?_ne hequals, readRelation_of_head?_ne hequals']
    cases alone with
    | none => rfl
    | some sign => simp only [Except.map, Reading.upTo, hone]

/-- A connective is found in bytes as in the text. -/
theorem connective?_bytes : connective? c (bytes rest) = connective? c rest := by
  have hand : (bytes rest).head? = some '&' ↔ rest.head? = some '&' :=
    Text.head?_bytes (by decide) rest
  have hor : (bytes rest).head? = some '|' ↔ rest.head? = some '|' :=
    Text.head?_bytes (by decide) rest
  simp only [connective?, hand, hor]

/-- A sign or a character that begins no token is read at a position as without positions. -/
theorem readAt_sign (hascii : IsAscii c)
    (hdigit : (c.isDigit || (c == '.' && Numeral.startsWithDigit rest)) = false)
    (hquote : (c == '"' || c == '\'') = false) (hstart : Text.isNameStart c = false) :
    readAt (before ++ c :: rest) (Text.byteLength before) c (bytes rest) =
      some ((read (Text.byteLength before) c rest).map
        (Reading.upTo (Text.byteLength before))) := by
  have hone : Text.byteLength [c] = 1 :=
    Text.byteLength_of_isAscii (List.forall_mem_singleton.mpr hascii)
  have hleft : Text.behind? (before ++ c :: rest) (Text.byteLength before) = some (c :: rest) :=
    Text.behind?_append before (c :: rest)
  simp only [readAt, read, Numeral.startsWithDigit_bytes, hdigit, hquote, hstart,
    Bool.false_eq_true, if_false]
  cases ofSign? c with
  | some token => simp only [Except.map, Reading.upTo, hone]
  | none =>
    cases hrelations : relations? c with
    | some relations => exact congrArg some (readRelation_bytes rest hascii _ _ _)
    | none =>
      simp only [connective?_bytes, refusal_eq, hleft]
      cases connective? c rest <;> rfl

/-- A character of several bytes begins no token, and neither does any of its bytes. -/
theorem readAt_of_not_isAscii (hascii : ¬IsAscii c) {b : Char} {behind : List Char}
    (hbytes : bytes (c :: rest) = b :: behind) :
    readAt (before ++ c :: rest) (Text.byteLength before) b behind =
      some ((read (Text.byteLength before) c rest).map
        (Reading.upTo (Text.byteLength before))) := by
  have hlead : ¬IsAscii b := by
    obtain ⟨lead, others, hlead, hother⟩ := Text.exists_lead_of_not_isAscii hascii rest
    rw [hbytes] at hlead
    rwa [(List.cons.inj hlead).1]
  have hleft : Text.behind? (before ++ c :: rest) (Text.byteLength before) = some (c :: rest) :=
    Text.behind?_append before (c :: rest)
  have htests : ∀ d, ¬IsAscii d → ∀ text, (d.isDigit ||
      (d == '.' && Numeral.startsWithDigit text)) = false ∧ (d == '"' || d == '\'') = false ∧
      Text.isNameStart d = false ∧ connective? d text = none := by
    intro d hd text
    have hne : ∀ sign, IsAscii sign → d ≠ sign := by
      rintro sign hsign rfl
      exact hd hsign
    have hstart : Text.isNameStart d = false := Bool.eq_false_iff.mpr (fun hstart =>
      hd (isAscii_of_isNamePart (Text.isNamePart_of_isNameStart hstart)))
    refine ⟨?_, ?_, hstart, ?_⟩
    · rw [isDigit_of_not_isAscii hd, beq_false_of_ne (hne '.' (by decide))]
      rfl
    · rw [beq_false_of_ne (hne '"' (by decide)), beq_false_of_ne (hne '\'' (by decide))]
      rfl
    · rw [connective?, if_neg (fun h => hne '&' (by decide) h.1),
        if_neg (fun h => hne '|' (by decide) h.1)]
  obtain ⟨hdigit, hquote, hstart, hconnective⟩ := htests b hlead behind
  obtain ⟨hdigit', hquote', hstart', hconnective'⟩ := htests c hascii rest
  simp only [readAt, hdigit, hquote, hstart, hconnective, (signs_of_not_isAscii hlead).1,
    (signs_of_not_isAscii hlead).2, read, hdigit', hquote', hstart', refusal_eq, hconnective',
    (signs_of_not_isAscii hascii).1, (signs_of_not_isAscii hascii).2, Bool.false_eq_true, if_false,
    hleft]
  rfl

/-- The token at a position is read as without positions. -/
theorem readAt_bytes {b : Char} {behind : List Char} (hbytes : bytes (c :: rest) = b :: behind) :
    readAt (before ++ c :: rest) (Text.byteLength before) b behind =
      some ((read (Text.byteLength before) c rest).map
        (Reading.upTo (Text.byteLength before))) := by
  by_cases hascii : IsAscii c
  · rw [Text.bytes_cons_of_isAscii hascii] at hbytes
    obtain ⟨rfl, rfl⟩ := List.cons.inj hbytes
    cases hdigit : (c.isDigit || (c == '.' && Numeral.startsWithDigit rest)) with
    | true => exact readAt_number before rest hascii hdigit
    | false =>
      cases hquote : (c == '"' || c == '\'') with
      | true => exact readAt_quoted before rest hascii hdigit hquote
      | false =>
        cases hstart : Text.isNameStart c with
        | true => exact readAt_word before rest hascii hdigit hquote hstart
        | false => exact readAt_sign before rest hascii hdigit hquote hstart
  · exact readAt_of_not_isAscii before rest hascii hbytes

end ReadAt

end Token

namespace Lexeme

/-- The tokens of a text from a byte position on, at most as many as the fuel goes. Nothing if the
text would have to be cut inside a character. -/
def scanAt (text : List Char) : (fuel position : Nat) → Option (Except SyntaxError (List Lexeme))
  | 0, _ => none
  | fuel + 1, position =>
    match (bytes text).drop position with
    | [] => some (.ok [])
    | b :: behind =>
      if Token.isBlank b then scanAt text fuel (position + 1)
      else
        match Token.readAt text position b behind with
        | none => none
        | some (.error cause) => some (.error cause)
        | some (.ok (token, stop)) =>
          (scanAt text fuel stop).map (Except.map (fun lexemes => ⟨token, position⟩ :: lexemes))

/-- Where a text goes on with no blank, a token is read and then the tokens behind it. -/
theorem scanFrom_cons {c : Char} (hblank : Token.isBlank c = false) (offset : Nat)
    (rest : List Char) :
    scanFrom offset (c :: rest) =
      match Token.read offset c rest with
      | .error cause => .error cause
      | .ok reading => (scanFrom (offset + Text.byteLength reading.spelling) reading.rest).map
          (fun lexemes => ⟨reading.token, offset⟩ :: lexemes) := by
  rw [scanFrom, if_neg (Bool.eq_false_iff.mp hblank)]
  split
  case h_1 cause hread => rw [hread]
  case h_2 reading hread =>
    rw [hread]
    dsimp only
    cases scanFrom (offset + Text.byteLength reading.spelling) reading.rest <;> rfl

/-- Behind a part of a text, the tokens are read at positions as they are without. -/
theorem scanAt_append {fuel : Nat} (before text : List Char) (hfuel : text.length < fuel) :
    scanAt (before ++ text) fuel (Text.byteLength before) =
      some (scanFrom (Text.byteLength before) text) := by
  induction fuel generalizing before text with
  | zero => exact absurd hfuel (Nat.not_lt_zero _)
  | succ fuel ih =>
    rw [scanAt, Text.drop_bytes]
    cases text with
    | nil => rw [scanFrom]; rfl
    | cons c rest =>
      obtain ⟨b, behind, hbytes, hb⟩ := Text.exists_byte c rest
      rw [hbytes]
      dsimp only
      cases hblank : Token.isBlank c with
      | true =>
        have hascii := Token.isAscii_of_isBlank hblank
        obtain rfl : b = c := (hb c hascii).mpr rfl
        have hrest := ih (before ++ [b]) rest (Nat.lt_of_succ_lt_succ hfuel)
        rw [List.append_assoc, List.singleton_append, Text.byteLength_append, Text.byteLength_cons,
          Text.byteLength_nil, Text.utf8Size_of_isAscii hascii] at hrest
        rw [if_pos hblank, hrest, scanFrom, if_pos hblank, Text.utf8Size_of_isAscii hascii]
      | false =>
        have hbyte : Token.isBlank b = false := Bool.eq_false_iff.mpr (fun hblank' => by
          rw [(hb b (Token.isAscii_of_isBlank hblank')).mp rfl, hblank'] at hblank
          cases hblank)
        rw [hbyte, if_neg Bool.false_ne_true, Token.readAt_bytes before rest hbytes,
          scanFrom_cons hblank]
        cases hread : Token.read (Text.byteLength before) c rest with
        | error cause => rfl
        | ok reading =>
          have hlength := Token.length_rest_lt hread
          have hbehind := ih (before ++ reading.spelling) reading.rest (by omega)
          rw [List.append_assoc, Token.spelling_append_rest hread, Text.byteLength_append]
            at hbehind
          simp only [Except.map, Token.Reading.upTo, hbehind, Option.map_some]

/-- The tokens of a text can be read at positions: all of them are between characters, and the
tokens, or the error, are the same. -/
theorem scanAt_eq_scan (text : String) :
    scanAt text.toList (text.toList.length + 1) 0 = some (scan text) :=
  scanAt_append [] text.toList (Nat.lt_succ_self _)

end Lexeme

end AccessControl
