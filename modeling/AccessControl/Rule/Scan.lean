import AccessControl.Rule.Token
import AccessControl.Text.Character

/-!
# From text to tokens

A text is cut into tokens from left to right, blanks between them being skipped. Each token takes
the longest text that it can: a number goes on into its fraction and its exponent, and a comparison
operator takes a following equals sign. The statements here say that a token read at the head of a
text is a nonempty part of it, so that nothing is lost or read twice and the cutting ends.
-/

namespace AccessControl

namespace Token

/-- The characters between tokens. -/
def isBlank (c : Char) : Bool := c == ' ' || c == '\t' || c == '\r' || c == '\n'

/-- A token read at the head of a text: the token, how it is spelled there, and the text behind. -/
structure Reading where
  /-- The token. -/
  token : Token
  /-- Its spelling. -/
  spelling : List Char
  /-- The text behind it. -/
  rest : List Char

/-- A number as it is spelled: digits, a fraction behind a point, and an exponent behind its
mark. -/
structure Numeral where
  /-- The digits before the point. -/
  whole : List Char
  /-- The digits behind the point; none if there is no point. -/
  fraction : List Char
  /-- The letter of the exponent and its sign; nothing if there is no exponent. -/
  mark : List Char
  /-- The digits of the exponent. -/
  exponent : List Char

namespace Numeral

/-- Digits behind their point; nothing if there are no digits. -/
def pointed : List Char → List Char
  | [] => []
  | digit :: digits => '.' :: digit :: digits

/-- The spelling of a numeral. -/
def spelling (numeral : Numeral) : List Char :=
  numeral.whole ++ (pointed numeral.fraction ++ (numeral.mark ++ numeral.exponent))

/-- Whether a text starts with a digit. -/
def startsWithDigit : List Char → Bool
  | c :: _ => c.isDigit
  | [] => false

/-- The digits behind a point at the head of a text. A point that no digit follows is left alone. -/
def readFraction (text : List Char) : List Char × List Char :=
  match text with
  | '.' :: rest => if startsWithDigit rest then Decimal.spanDigits rest else ([], text)
  | _ => ([], text)

/-- The sign at the head of a text. -/
def readSign : List Char → List Char × List Char
  | '+' :: rest => (['+'], rest)
  | '-' :: rest => (['-'], rest)
  | text => ([], text)

/-- The mark and the digits of an exponent at the head of a text. A mark that no digit follows is
left alone. -/
def readExponent (text : List Char) : List Char × List Char × List Char :=
  match text with
  | c :: rest =>
    if c = 'e' ∨ c = 'E' then
      let signed := readSign rest
      if startsWithDigit signed.2 then (c :: signed.1, Decimal.spanDigits signed.2)
      else ([], [], text)
    else ([], [], text)
  | [] => ([], [], text)

/-- The numeral at the head of a text that starts with a digit or with a point and a digit. -/
def read (text : List Char) : Numeral × List Char :=
  let whole := Decimal.spanDigits text
  let fraction := readFraction whole.2
  let exponent := readExponent fraction.2
  (⟨whole.1, fraction.1, exponent.1, exponent.2.1⟩, exponent.2.2)

/-- The exponent as a number. -/
def exponentValue (numeral : Numeral) : Int :=
  if numeral.mark.contains '-' then -(Decimal.valueOf numeral.exponent : Int)
  else Decimal.valueOf numeral.exponent

/-- The double nearest to a numeral. -/
def toDouble? (numeral : Numeral) : Option Number :=
  (Double.ofDecimal false
    (Decimal.ofDigits numeral.whole numeral.fraction numeral.exponentValue)).map .double

/-- The number that a numeral stands for: an integer if it is spelled as one and has 64 bits with a
sign, otherwise the nearest double. -/
def value? (numeral : Numeral) : Option Number :=
  if numeral.fraction.isEmpty && numeral.mark.isEmpty then
    match Number.ofSigned? (Decimal.valueOf numeral.whole) with
    | some number => some number
    | none => numeral.toDouble?
  else numeral.toDouble?

end Numeral

/-- The character that an escape stands for: a line end, a tab, a carriage return, or the escaped
character itself. -/
def escaped (c : Char) : Char :=
  match c with
  | 'n' => '\n'
  | 't' => '\t'
  | 'r' => '\r'
  | _ => c

/-- What stands before the closing quote: the text meant, its spelling with the quote, and the
rest. -/
def readQuoted (quote : Char) : List Char → Option (List Char × List Char × List Char)
  | [] => none
  | c :: rest =>
    if c = quote then some ([], [c], rest)
    else if c = '\\' then
      match rest with
      | [] => none
      | e :: rest =>
        (readQuoted quote rest).map (fun (text, spelling, rest) =>
          (escaped e :: text, c :: e :: spelling, rest))
    else
      (readQuoted quote rest).map (fun (text, spelling, rest) => (c :: text, c :: spelling, rest))

/-- The token of a word: three words are literals, the others are names. -/
def ofWord (word : List Char) : Token :=
  match String.ofList word with
  | "true" => .literal (.bool true)
  | "false" => .literal (.bool false)
  | "null" => .literal .null
  | other => .name other

/-- The token that a punctuation character or an arithmetic operator is. -/
def ofSign? (c : Char) : Option Token :=
  match c with
  | '.' => some .dot
  | ',' => some .comma
  | '(' => some .openParen
  | ')' => some .closeParen
  | '[' => some .openBracket
  | ']' => some .closeBracket
  | '+' => some (.operator .plus)
  | '-' => some (.operator .minus)
  | '*' => some (.operator .times)
  | '/' => some (.operator .over)
  | '%' => some (.operator .modulo)
  | _ => none

/-- The relation that a character means without and with an equals sign behind it. -/
def relations? (c : Char) : Option (Option Relation × Relation) :=
  match c with
  | '<' => some (some .less, .atMost)
  | '>' => some (some .greater, .atLeast)
  | '=' => some (some .equal, .equal)
  | '!' => some (none, .unequal)
  | _ => none

/-- A comparison operator at the head of a text. An exclamation mark alone is none. -/
def readRelation (offset : Nat) (c : Char) (alone : Option Relation) (withEquals : Relation)
    (rest : List Char) : Except SyntaxError Reading :=
  match rest with
  | '=' :: behind => .ok ⟨.relation withEquals, [c, '='], behind⟩
  | _ =>
    match alone with
    | some sign => .ok ⟨.relation sign, [c], rest⟩
    | none => .error (.unexpectedCharacter c offset)

/-- Why a character starts no token: it is one of a connective, or the grammar has no use for it. -/
def refusal (offset : Nat) (c : Char) (rest : List Char) : SyntaxError :=
  match c, rest with
  | '&', '&' :: _ => .connective .and offset
  | '|', '|' :: _ => .connective .or offset
  | _, _ => .unexpectedCharacter c offset

/-- The token at the head of a text that does not start with a blank. -/
def read (offset : Nat) (c : Char) (rest : List Char) : Except SyntaxError Reading :=
  if c.isDigit || (c == '.' && Numeral.startsWithDigit rest) then
    let (numeral, behind) := Numeral.read (c :: rest)
    match numeral.value? with
    | some number => .ok ⟨.literal (.number number), numeral.spelling, behind⟩
    | none => .error (.invalidNumber (String.ofList numeral.spelling))
  else if c == '"' || c == '\'' then
    match readQuoted c rest with
    | some (text, spelling, behind) => .ok ⟨.literal (Json.ofChars text), c :: spelling, behind⟩
    | none => .error (.unterminatedString offset)
  else if Text.isNameStart c then
    .ok ⟨ofWord (c :: rest.takeWhile Text.isNamePart), c :: rest.takeWhile Text.isNamePart,
      rest.dropWhile Text.isNamePart⟩
  else
    match ofSign? c with
    | some token => .ok ⟨token, [c], rest⟩
    | none =>
      match relations? c with
      | some (alone, withEquals) => readRelation offset c alone withEquals rest
      | none => .error (refusal offset c rest)

/-- How a token can be read at the head of a text. What it is depends on the first character and, at
a point, on the next one. -/
inductive Reads (offset : Nat) (c : Char) (rest : List Char) : Reading → Prop where
  /-- A number that is not too great. -/
  | number {number : Number} : (c.isDigit || (c == '.' && Numeral.startsWithDigit rest)) = true →
    (Numeral.read (c :: rest)).1.value? = some number →
    Reads offset c rest ⟨.literal (.number number), (Numeral.read (c :: rest)).1.spelling,
      (Numeral.read (c :: rest)).2⟩
  /-- A quoted text up to its closing quote. -/
  | quoted {text spelling behind : List Char} :
    (c.isDigit || (c == '.' && Numeral.startsWithDigit rest)) = false →
    (c == '"' || c == '\'') = true → readQuoted c rest = some (text, spelling, behind) →
    Reads offset c rest ⟨.literal (Json.ofChars text), c :: spelling, behind⟩
  /-- A word. -/
  | word : (c.isDigit || (c == '.' && Numeral.startsWithDigit rest)) = false →
    (c == '"' || c == '\'') = false → Text.isNameStart c = true →
    Reads offset c rest ⟨ofWord (c :: rest.takeWhile Text.isNamePart),
      c :: rest.takeWhile Text.isNamePart, rest.dropWhile Text.isNamePart⟩
  /-- Punctuation or an arithmetic operator. -/
  | sign {token : Token} : (c.isDigit || (c == '.' && Numeral.startsWithDigit rest)) = false →
    (c == '"' || c == '\'') = false → Text.isNameStart c = false → ofSign? c = some token →
    Reads offset c rest ⟨token, [c], rest⟩
  /-- A comparison operator. -/
  | relation {alone : Option Relation} {withEquals : Relation} {reading : Reading} :
    (c.isDigit || (c == '.' && Numeral.startsWithDigit rest)) = false →
    (c == '"' || c == '\'') = false → Text.isNameStart c = false → ofSign? c = none →
    relations? c = some (alone, withEquals) →
    readRelation offset c alone withEquals rest = .ok reading → Reads offset c rest reading

/-- These are all the ways to read a token. -/
theorem read_eq_ok_iff {offset : Nat} {c : Char} {rest : List Char} {reading : Reading} :
    read offset c rest = .ok reading ↔ Reads offset c rest reading := by
  constructor
  · intro h
    rw [read] at h
    split at h
    case isTrue hdigit =>
      cases hvalue : (Numeral.read (c :: rest)).1.value? with
      | none =>
        simp only [hvalue] at h
        cases h
      | some number =>
        simp only [hvalue] at h
        cases h
        exact .number hdigit hvalue
    case isFalse hdigit =>
      rw [Bool.not_eq_true] at hdigit
      split at h
      case isTrue hquote =>
        split at h
        case h_1 hread =>
          cases h
          exact .quoted hdigit hquote hread
        case h_2 => cases h
      case isFalse hquote =>
        rw [Bool.not_eq_true] at hquote
        split at h
        case isTrue hstart =>
          cases h
          exact .word hdigit hquote hstart
        case isFalse hstart =>
          rw [Bool.not_eq_true] at hstart
          split at h
          case h_1 hsign =>
            cases h
            exact .sign hdigit hquote hstart hsign
          case h_2 hsign =>
            split at h
            case h_1 hrelation => exact .relation hdigit hquote hstart hsign hrelation h
            case h_2 => cases h
  · intro h
    rw [read]
    cases h with
    | number hdigit hvalue => simp only [hdigit, if_true, hvalue]
    | quoted hdigit hquote hread =>
      simp only [hdigit, hquote, hread, Bool.false_eq_true, if_true, if_false]
    | word hdigit hquote hstart =>
      simp only [hdigit, hquote, hstart, Bool.false_eq_true, if_true, if_false]
    | sign hdigit hquote hstart hsign =>
      simp only [hdigit, hquote, hstart, hsign, Bool.false_eq_true, if_false]
    | relation hdigit hquote hstart hsign hrelation hread =>
      simp only [hdigit, hquote, hstart, hsign, hrelation, Bool.false_eq_true, if_false, hread]

/-- Cutting off the digits at the head loses nothing. -/
theorem spanDigits_append (text : List Char) :
    (Decimal.spanDigits text).1 ++ (Decimal.spanDigits text).2 = text :=
  List.takeWhile_append_dropWhile

/-- There are digits to cut off where a text starts with one. -/
theorem spanDigits_ne_nil {text : List Char} (h : Numeral.startsWithDigit text = true) :
    (Decimal.spanDigits text).1 ≠ [] := by
  cases text with
  | nil => simp [Numeral.startsWithDigit] at h
  | cons c rest =>
    simp only [Numeral.startsWithDigit] at h
    simp [Decimal.spanDigits, h]

/-- Digits get a point before them. -/
theorem Numeral.pointed_of_ne_nil {digits : List Char} (h : digits ≠ []) :
    pointed digits = '.' :: digits := by
  cases digits with
  | nil => exact absurd rfl h
  | cons digit digits => rfl

/-- Reading a fraction loses nothing. -/
theorem Numeral.readFraction_append (text : List Char) :
    pointed (readFraction text).1 ++ (readFraction text).2 = text := by
  unfold readFraction
  split
  · split
    · rename_i rest h
      rw [pointed_of_ne_nil (spanDigits_ne_nil h), List.cons_append, spanDigits_append]
    · rfl
  · rfl

/-- Reading a sign loses nothing. -/
theorem Numeral.readSign_append (text : List Char) :
    (readSign text).1 ++ (readSign text).2 = text := by
  unfold readSign
  split <;> simp

/-- Reading an exponent loses nothing. -/
theorem Numeral.readExponent_append (text : List Char) :
    (readExponent text).1 ++ ((readExponent text).2.1 ++ (readExponent text).2.2) = text := by
  unfold readExponent
  split
  · rename_i c rest
    dsimp only
    split
    · split
      · simp only [List.cons_append, spanDigits_append, readSign_append]
      · rfl
    · rfl
  · rfl

/-- A numeral and the text behind it make up the text read. -/
theorem Numeral.spelling_read (text : List Char) :
    (Numeral.read text).1.spelling ++ (Numeral.read text).2 = text := by
  simp only [Numeral.read, Numeral.spelling, List.append_assoc]
  rw [readExponent_append, readFraction_append, spanDigits_append]

/-- A number read at a digit, or at a point with a digit behind it, is spelled with something. -/
theorem Numeral.spelling_read_ne_nil {c : Char} {rest : List Char}
    (h : (c.isDigit || (c == '.' && startsWithDigit rest)) = true) :
    (Numeral.read (c :: rest)).1.spelling ≠ [] := by
  simp only [Bool.or_eq_true, Bool.and_eq_true, beq_iff_eq] at h
  simp only [Numeral.read, Numeral.spelling]
  rcases h with h | ⟨h, hrest⟩
  · have : (Decimal.spanDigits (c :: rest)).1 ≠ [] :=
      spanDigits_ne_nil (by simpa [startsWithDigit] using h)
    simp [this]
  · subst h
    have hspan : Decimal.spanDigits ('.' :: rest) = ([], '.' :: rest) := by
      simp [Decimal.spanDigits, show Char.isDigit '.' = false from rfl]
    have hne : (Decimal.spanDigits rest).1 ≠ [] := spanDigits_ne_nil hrest
    simp [hspan, readFraction, hrest, pointed_of_ne_nil hne]

/-- The spelling of a quoted text and the text behind it make up the text read. -/
theorem readQuoted_append {quote : Char} {text meant spelling behind : List Char}
    (h : readQuoted quote text = some (meant, spelling, behind)) : spelling ++ behind = text := by
  fun_induction readQuoted quote text generalizing meant spelling behind with
  | case1 => simp at h
  | case2 rest => simp only [Option.some.injEq, Prod.mk.injEq] at h; simp [← h.2.1, ← h.2.2]
  | case3 => simp at h
  | case4 e rest hquote ih =>
    simp only [Option.map_eq_some_iff, Prod.exists, Prod.mk.injEq] at h
    obtain ⟨_, spelling, behind, hread, _, rfl, rfl⟩ := h
    simp [ih hread]
  | case5 c rest hquote hescape ih =>
    simp only [Option.map_eq_some_iff, Prod.exists, Prod.mk.injEq] at h
    obtain ⟨_, spelling, behind, hread, _, rfl, rfl⟩ := h
    simp [ih hread]

/-- A comparison operator is spelled with something, and with the text behind it makes up the text
read. -/
theorem spelling_readRelation {offset : Nat} {c : Char} {alone : Option Relation}
    {withEquals : Relation} {rest : List Char} {reading : Reading}
    (h : readRelation offset c alone withEquals rest = .ok reading) :
    reading.spelling ≠ [] ∧ reading.spelling ++ reading.rest = c :: rest := by
  unfold readRelation at h
  split at h
  · cases h
    exact ⟨List.cons_ne_nil _ _, rfl⟩
  · split at h
    · cases h
      exact ⟨List.cons_ne_nil _ _, rfl⟩
    · cases h

/-- The spelling of a token and the text behind it make up the text read. -/
theorem spelling_append_rest {offset : Nat} {c : Char} {rest : List Char} {reading : Reading}
    (h : read offset c rest = .ok reading) : reading.spelling ++ reading.rest = c :: rest := by
  cases read_eq_ok_iff.mp h with
  | number _ _ => exact Numeral.spelling_read (c :: rest)
  | quoted _ _ hread => exact congrArg (c :: ·) (readQuoted_append hread)
  | word _ _ _ => exact congrArg (c :: ·) List.takeWhile_append_dropWhile
  | sign _ _ _ _ => rfl
  | relation _ _ _ _ _ hread => exact (spelling_readRelation hread).2

/-- Every token is spelled with something. -/
theorem spelling_ne_nil {offset : Nat} {c : Char} {rest : List Char} {reading : Reading}
    (h : read offset c rest = .ok reading) : reading.spelling ≠ [] := by
  cases read_eq_ok_iff.mp h with
  | number hdigit _ => exact Numeral.spelling_read_ne_nil hdigit
  | quoted _ _ _ => exact List.cons_ne_nil _ _
  | word _ _ _ => exact List.cons_ne_nil _ _
  | sign _ _ _ _ => exact List.cons_ne_nil _ _
  | relation _ _ _ _ _ hread => exact (spelling_readRelation hread).1

/-- What is left behind a token is shorter than the text that starts with it. -/
theorem length_rest_lt {offset : Nat} {c : Char} {rest : List Char} {reading : Reading}
    (h : read offset c rest = .ok reading) : reading.rest.length < (c :: rest).length := by
  have hlength := congrArg List.length (spelling_append_rest h)
  have hpos := List.length_pos_iff.mpr (spelling_ne_nil h)
  simp only [List.length_append] at hlength
  omega

end Token

namespace Lexeme

/-- The tokens of a text, each with the number of bytes before it; the text itself stands behind
`offset` bytes. -/
def scanFrom (offset : Nat) (text : List Char) : Except SyntaxError (List Lexeme) :=
  match text with
  | [] => .ok []
  | c :: rest =>
    if Token.isBlank c then scanFrom (offset + c.utf8Size) rest
    else
      match _h : Token.read offset c rest with
      | .error cause => .error cause
      | .ok reading =>
        match scanFrom (offset + Text.byteLength reading.spelling) reading.rest with
        | .error cause => .error cause
        | .ok lexemes => .ok (⟨reading.token, offset⟩ :: lexemes)
termination_by text.length
decreasing_by
  · simp
  · exact Token.length_rest_lt _h

/-- The tokens of a text. -/
def scan (text : String) : Except SyntaxError (List Lexeme) := scanFrom 0 text.toList

end Lexeme

end AccessControl
