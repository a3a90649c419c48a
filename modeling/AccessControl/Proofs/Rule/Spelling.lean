import AccessControl.Proofs.Rule.Numerals
import AccessControl.Value.Text

/-!
# Writing tokens and reading them again

A text is cut into tokens part by part: what a part is cut into does not depend on the text behind
it, as long as that does not go on as a name or a number would. Names, punctuation and operators are
cut into the tokens that they spell, and so are the texts of the literals that a rule can contain.
Only control characters do not come back as they were: the escapes that they are written with stand
for other characters in a rule.
-/

namespace AccessControl

/-- Whether a word is one that a rule reads as a name. -/
structure Token.IsName (word : String) : Prop where
  /-- The first character starts a name and the others go on with it. -/
  spelling : ∃ first others, word.toList = first :: others ∧ Text.isNameStart first = true ∧
    ∀ c ∈ others, Text.isNamePart c = true
  /-- The word is no literal. -/
  token : Token.ofWord word.toList = .name word

/-- The values that a rule can contain as literals. -/
def Json.IsLiteral : Json → Prop
  | .null | .bool _ | .string _ => True
  | .number number => number.IsLiteral
  | .array _ | .object _ => False

/-- The tokens that a text can have. -/
def Token.Legible : Token → Prop
  | .name word => IsName word
  | .literal value => value.IsLiteral
  | .dot | .comma | .openParen | .closeParen | .openBracket | .closeBracket | .operator _
  | .relation _ => True

namespace Token

/-- The words that are read as names are those that are no literals. -/
theorem ofWord_eq_name_iff {word : String} :
    ofWord word.toList = .name word ↔
      (word == "true" || word == "false" || word == "null") = false := by
  rw [ofWord, String.ofList_toList]
  split
  case h_1 | h_2 | h_3 => simp
  case h_4 htrue hfalse hnull =>
    simp only [beq_false_of_ne htrue, beq_false_of_ne hfalse, beq_false_of_ne hnull, Bool.or_self]

/-- What makes a name of a word, by its first character and the others. -/
theorem isName_iff {word : String} {first : Char} {others : List Char}
    (h : word.toList = first :: others) :
    IsName word ↔ Text.isNameStart first = true ∧ others.all Text.isNamePart = true ∧
      (word == "true" || word == "false" || word == "null") = false := by
  rw [← ofWord_eq_name_iff, List.all_eq_true]
  constructor
  · rintro ⟨⟨first', others', hspelling, hfirst, hothers⟩, hword⟩
    obtain ⟨rfl, rfl⟩ := List.cons.inj (h.symm.trans hspelling)
    exact ⟨hfirst, hothers, hword⟩
  · rintro ⟨hfirst, hothers, hword⟩
    exact ⟨⟨first, others, h, hfirst, hothers⟩, hword⟩

/-- A word is read as a name or as a literal. -/
theorem legible_ofWord {first : Char} {others : List Char} (hfirst : Text.isNameStart first = true)
    (hothers : ∀ c ∈ others, Text.isNamePart c = true) : (ofWord (first :: others)).Legible := by
  have hname : ∀ word, ofWord (first :: others) = .name word →
      word = String.ofList (first :: others) := by
    intro word hword
    rw [ofWord] at hword
    split at hword <;> cases hword
    rfl
  cases htoken : ofWord (first :: others) with
  | name word =>
    obtain rfl := hname word htoken
    refine ⟨⟨first, others, String.toList_ofList, hfirst, hothers⟩, ?_⟩
    rw [String.toList_ofList]
    exact htoken
  | literal value =>
    rw [ofWord] at htoken
    split at htoken <;> cases htoken <;> trivial
  | _ => trivial

/-- Punctuation and arithmetic operators can be written. -/
theorem legible_of_sign {c : Char} {token : Token} (h : ofSign? c = some token) :
    token.Legible := by
  unfold ofSign? at h
  split at h <;> cases h <;> trivial

/-- Comparison operators can be written. -/
theorem legible_of_relation {offset : Nat} {c : Char} {alone : Option Relation}
    {withEquals : Relation} {rest : List Char} {reading : Reading}
    (h : readRelation offset c alone withEquals rest = .ok reading) : reading.token.Legible := by
  unfold readRelation at h
  split at h
  · cases h
    trivial
  · split at h
    · cases h
      trivial
    · cases h

/-- Tokens that are read can be written. -/
theorem legible_of_read {offset : Nat} {c : Char} {rest : List Char} {reading : Reading}
    (h : read offset c rest = .ok reading) : reading.token.Legible := by
  cases read_eq_ok_iff.mp h with
  | number _ hvalue => exact Number.isLiteral_of_value? hvalue
  | quoted _ _ _ => trivial
  | word _ _ hstart => exact legible_ofWord hstart (fun d hd => List.mem_takeWhile_imp hd)
  | sign _ _ _ hsign => exact legible_of_sign hsign
  | relation _ _ _ _ _ hread => exact legible_of_relation hread

end Token

namespace Lexeme

/-- The tokens of a text can be written. -/
theorem legible_of_scanFrom {offset : Nat} {text : List Char} {lexemes : List Lexeme}
    (h : scanFrom offset text = .ok lexemes) : ∀ lexeme ∈ lexemes, lexeme.token.Legible := by
  fun_induction scanFrom offset text generalizing lexemes with
  | case1 =>
    cases h
    exact List.forall_mem_nil _
  | case2 offset c rest hblank ih => exact ih h
  | case3 offset c rest hblank cause hread => cases h
  | case4 offset c rest hblank reading hread cause hscan => cases h
  | case5 offset c rest hblank reading hread others hscan ih =>
    cases h
    exact List.forall_mem_cons.mpr ⟨Token.legible_of_read hread, ih hscan⟩

/-- Whether a part of a text is cut into these tokens where the given text stands behind it. -/
def Cuts (part : List Char) (tokens : List Token) (rest : List Char) : Prop :=
  ∀ offset, ∃ lexemes : List Lexeme, lexemes.map Lexeme.token = tokens ∧
    scanFrom offset (part ++ rest) =
      (scanFrom (offset + Text.byteLength part) rest).map (fun others => lexemes ++ others)

variable {part rest : List Char} {tokens : List Token}

/-- An empty part has no tokens. -/
theorem cuts_nil : Cuts [] [] rest := by
  intro offset
  refine ⟨[], rfl, ?_⟩
  change scanFrom offset rest = (scanFrom offset rest).map _
  cases scanFrom offset rest <;> rfl

/-- Two parts in a row are cut into the tokens of both. -/
theorem Cuts.append {front back : List Char} {first second : List Token}
    (hfront : Cuts front first (back ++ rest)) (hback : Cuts back second rest) :
    Cuts (front ++ back) (first ++ second) rest := by
  intro offset
  obtain ⟨before, hbefore, hscan⟩ := hfront offset
  obtain ⟨behind, hbehind, hscan'⟩ := hback (offset + Text.byteLength front)
  refine ⟨before ++ behind, by rw [List.map_append, hbefore, hbehind], ?_⟩
  rw [List.append_assoc, hscan, hscan', Text.byteLength_append, Nat.add_assoc]
  cases scanFrom (offset + (Text.byteLength front + Text.byteLength back)) rest with
  | error cause => rfl
  | ok others => simp only [Except.map, List.append_assoc]

/-- A part with a character before it that is cut by itself. -/
theorem Cuts.cons {c : Char} {first second : List Token} (hc : Cuts [c] first (part ++ rest))
    (hpart : Cuts part second rest) : Cuts (c :: part) (first ++ second) rest := hc.append hpart

/-- A blank has no token. -/
theorem cuts_blank {c : Char} (h : Token.isBlank c = true) (rest : List Char) :
    Cuts [c] [] rest := by
  intro offset
  refine ⟨[], rfl, ?_⟩
  rw [List.cons_append, scanFrom, if_pos h]
  change scanFrom (offset + c.utf8Size) rest = (scanFrom (offset + c.utf8Size) rest).map _
  cases scanFrom (offset + c.utf8Size) rest <;> rfl

/-- Blanks have no tokens. -/
theorem cuts_blanks {blanks : List Char} (h : ∀ c ∈ blanks, Token.isBlank c = true)
    (rest : List Char) : Cuts blanks [] rest := by
  induction blanks with
  | nil => exact cuts_nil
  | cons c blanks ih =>
    obtain ⟨hc, hblanks⟩ := List.forall_mem_cons.mp h
    exact (cuts_blank hc _).cons (ih hblanks)

/-- A spelling is cut into the token that is read at it. -/
theorem cuts_of_read {c : Char} {others : List Char} {token : Token}
    (hblank : Token.isBlank c = false)
    (h : ∀ offset, Token.read offset c (others ++ rest) = .ok ⟨token, c :: others, rest⟩) :
    Cuts (c :: others) [token] rest := by
  intro offset
  refine ⟨[⟨token, offset⟩], rfl, ?_⟩
  rw [List.cons_append, scanFrom, hblank, if_neg Bool.false_ne_true]
  split
  case h_1 cause hread =>
    rw [h] at hread
    cases hread
  case h_2 reading hread =>
    rw [h] at hread
    cases hread
    dsimp only
    cases scanFrom (offset + Text.byteLength (c :: others)) rest <;> rfl

/-- The tokens of a text that is cut as a whole. -/
theorem Cuts.scan {text : List Char} (h : Cuts text tokens []) :
    ∃ lexemes, Lexeme.scan (String.ofList text) = .ok lexemes ∧
      lexemes.map Lexeme.token = tokens := by
  obtain ⟨lexemes, htokens, hscan⟩ := h 0
  refine ⟨lexemes, ?_, htokens⟩
  rw [List.append_nil, scanFrom] at hscan
  rw [Lexeme.scan, String.toList_ofList, hscan]
  simp only [Except.map, List.append_nil]

end Lexeme

namespace Token

/-- Blanks belong to no name. -/
theorem isBlank_of_isNamePart {c : Char} (h : Text.isNamePart c = true) : isBlank c = false := by
  by_contra hblank
  simp only [isBlank, Bool.not_eq_false, Bool.or_eq_true, beq_iff_eq] at hblank
  rcases hblank with ((rfl | rfl) | rfl) | rfl <;> exact absurd h (by decide)

/-- No digit starts a name. -/
theorem isDigit_of_isNameStart {c : Char} (h : Text.isNameStart c = true) : c.isDigit = false := by
  by_contra hdigit
  rw [Bool.not_eq_false, Char.isDigit_iff_toNat] at hdigit
  have hnine : c.toNat ≤ 57 := hdigit.2
  have hkinds : (((c.isUpper || c.isLower) || c == '_') || c == '$') = true := h
  simp only [Bool.or_eq_true, beq_iff_eq] at hkinds
  rcases hkinds with ((hupper | hlower) | rfl) | rfl
  · have hcapital : 65 ≤ c.toNat := UInt32.le_iff_toNat_le.mp (of_decide_eq_true hupper).1
    omega
  · have hsmall : 97 ≤ c.toNat :=
      UInt32.le_iff_toNat_le.mp (of_decide_eq_true (Bool.and_eq_true_iff.mp hlower).1)
    omega
  · exact absurd hnine (by decide)
  · exact absurd hdigit (by decide)

/-- A word is read up to where no character of names follows. -/
theorem read_word {first : Char} {others rest : List Char} (hfirst : Text.isNameStart first = true)
    (hothers : ∀ c ∈ others, Text.isNamePart c = true) (hrest : Separated rest) (offset : Nat) :
    read offset first (others ++ rest) =
      .ok ⟨ofWord (first :: others), first :: others, rest⟩ := by
  have hpoint : first ≠ '.' := by
    rintro rfl
    exact absurd hfirst (by decide)
  have hquote : ¬(first == '"' || first == '\'') = true := by
    simp only [Bool.or_eq_true, beq_iff_eq]
    rintro (rfl | rfl) <;> exact absurd hfirst (by decide)
  have hstop : rest.takeWhile Text.isNamePart = [] ∧ rest.dropWhile Text.isNamePart = rest := by
    cases rest with
    | nil => exact ⟨rfl, rfl⟩
    | cons c rest =>
      simp only [List.takeWhile_cons, List.dropWhile_cons, hrest.1, Bool.false_eq_true, if_false,
        and_self]
  rw [read, if_neg, if_neg hquote, if_pos hfirst, List.takeWhile_append_of_pos hothers,
    List.dropWhile_append_of_pos hothers, hstop.1, hstop.2, List.append_nil]
  rw [isDigit_of_isNameStart hfirst, beq_false_of_ne hpoint]
  exact Bool.false_ne_true

/-- A numeral is read up to where it ends. -/
theorem read_numeral {numeral : Numeral} {number : Number} {first : Char} {others rest : List Char}
    (h : numeral.Proper) (hspelling : numeral.spelling = first :: others)
    (hvalue : numeral.value? = some number) (hrest : Separated rest) (offset : Nat) :
    read offset first (others ++ rest) =
      .ok ⟨.literal (.number number), first :: others, rest⟩ := by
  have hfirst : first.isDigit = true := by
    obtain ⟨digit, more, hcons, hdigit⟩ := h.exists_cons
    rw [hspelling] at hcons
    rwa [(List.cons.inj hcons).1]
  have hread := h.formed.read hrest
  rw [hspelling, List.cons_append] at hread
  rw [read, if_pos (by rw [hfirst]; rfl), hread]
  simp only [hvalue, hspelling]

end Token

namespace Lexeme

variable {part rest : List Char} {tokens : List Token}

/-- A word is cut into its token. -/
theorem cuts_word {first : Char} {others : List Char} (hfirst : Text.isNameStart first = true)
    (hothers : ∀ c ∈ others, Text.isNamePart c = true) (hrest : Token.Separated rest) :
    Cuts (first :: others) [Token.ofWord (first :: others)] rest :=
  cuts_of_read (Token.isBlank_of_isNamePart (Text.isNamePart_of_isNameStart hfirst))
    (Token.read_word hfirst hothers hrest)

/-- A name is cut into its token. -/
theorem cuts_name {word : String} (h : Token.IsName word) (hrest : Token.Separated rest) :
    Cuts word.toList [.name word] rest := by
  obtain ⟨first, others, hspelling, hfirst, hothers⟩ := h.spelling
  have hcuts := cuts_word hfirst hothers hrest
  rwa [← hspelling, h.token] at hcuts

/-- The text of a number that a rule can contain is cut into its token. -/
theorem cuts_number {number : Number} (h : number.IsLiteral) (hrest : Token.Separated rest) :
    Cuts number.text [.literal (.number number)] rest := by
  obtain ⟨numeral, hproper, hspelling, hvalue⟩ := number.exists_numeral h
  obtain ⟨digit, others, hcons, hdigit⟩ := hproper.exists_cons
  rw [← hspelling, hcons]
  exact cuts_of_read (Token.isBlank_of_isNamePart (Token.Numeral.isNamePart_of_isDigit hdigit))
    (Token.read_numeral hproper hcons hvalue hrest)

/-- A sign is cut by itself, a point where no digit follows. -/
theorem cuts_sign {c : Char} {token : Token} (hsign : Token.ofSign? c = some token)
    (hrest : c = '.' → Token.Numeral.startsWithDigit rest = false) : Cuts [c] [token] rest := by
  have hplain : c.isDigit = false ∧ (c == '"' || c == '\'') = false ∧
      Text.isNameStart c = false ∧ Token.isBlank c = false := by
    unfold Token.ofSign? at hsign
    split at hsign <;> cases hsign <;> decide
  obtain ⟨hdigit, hquote, hstart, hblank⟩ := hplain
  refine cuts_of_read hblank (fun offset => ?_)
  rw [List.nil_append, Token.read, if_neg, hquote, if_neg Bool.false_ne_true, hstart,
    if_neg Bool.false_ne_true, hsign]
  by_cases hpoint : c = '.'
  · rw [hrest hpoint, hdigit, Bool.and_false]
    decide
  · rw [hdigit, beq_false_of_ne hpoint]
    exact Bool.false_ne_true

/-- A sign that is no point is cut by itself. -/
theorem cuts_mark {c : Char} {token : Token} (hsign : Token.ofSign? c = some token)
    (hpoint : c ≠ '.') (rest : List Char) : Cuts [c] [token] rest :=
  cuts_sign hsign (fun h => absurd h hpoint)

/-- An arithmetic operator is cut by itself. -/
theorem cuts_operator (operator : Operator) (rest : List Char) :
    Cuts operator.symbol.toList [.operator operator] rest := by
  cases operator <;> exact cuts_mark rfl (by decide) rest

/-- A comparison operator is cut by itself before a blank. -/
theorem cuts_relation (relation : Relation) (rest : List Char) :
    Cuts relation.symbol.toList [.relation relation] (' ' :: rest) := by
  cases relation <;> exact cuts_of_read (by decide) (fun offset => rfl)

end Lexeme

namespace Token

/-- A character that is neither the closing quote nor a backslash is read as it is. -/
theorem readQuoted_plain {quote c : Char} (hquote : c ≠ quote) (hescape : c ≠ '\\')
    (rest : List Char) :
    readQuoted quote (c :: rest) =
      (readQuoted quote rest).map (fun (text, spelling, rest) =>
        (c :: text, c :: spelling, rest)) := by
  rw [readQuoted.eq_def]
  simp only [if_neg hquote, if_neg hescape]

/-- A character behind a backslash is read as what it stands for. -/
theorem readQuoted_escape {quote : Char} (hquote : '\\' ≠ quote) (c : Char) (rest : List Char) :
    readQuoted quote ('\\' :: c :: rest) =
      (readQuoted quote rest).map (fun (text, spelling, rest) =>
        (escaped c :: text, '\\' :: c :: spelling, rest)) := by
  rw [readQuoted.eq_def]
  simp only [if_neg hquote, if_pos]

end Token

namespace Json

/-- Whether a rule has no escape for a control character: it has some for the end of a line, for a
tab and for a carriage return. -/
def isUnescapable (c : Char) : Bool := c.toNat < 32 && c != '\n' && c != '\r' && c != '\t'

/-- What a rule reads where a character is written inside quotes: the character, or its escape
without the backslash where rules have no such escape. -/
def rereadChar (c : Char) : List Char := if isUnescapable c then (quotedChar c).tail else [c]

/-- What a rule reads where a value is written. -/
def reread : Json → Json
  | .string text => ofChars (text.toList.flatMap rereadChar)
  | value => value

/-- Hexadecimal digits are read as they are. -/
theorem hexDigit_plain (n : Nat) : hexDigit n ≠ '"' ∧ hexDigit n ≠ '\\' := by
  have hall : ∀ digit < 16, Nat.digitChar digit ≠ '"' ∧ Nat.digitChar digit ≠ '\\' := by decide
  exact hall (n % 16) (Nat.mod_lt _ (by decide))

/-- A character written inside quotes is read as the rule reads it, and the text goes on behind
it. -/
theorem readQuoted_quotedChar (c : Char) (rest : List Char) :
    Token.readQuoted '"' (quotedChar c ++ rest) =
      (Token.readQuoted '"' rest).map (fun (text, spelling, rest) =>
        (rereadChar c ++ text, quotedChar c ++ spelling, rest)) := by
  unfold quotedChar
  split
  case h_1 | h_2 | h_3 | h_4 | h_5 => exact Token.readQuoted_escape (by decide) _ rest
  case h_6 hquote hbackslash hline hreturn htab =>
    by_cases height : c.toNat = 8
    · obtain rfl : c = Char.ofNat 8 := Char.toNat_inj.mp height
      exact Token.readQuoted_escape (by decide) 'b' rest
    by_cases htwelve : c.toNat = 12
    · obtain rfl : c = Char.ofNat 12 := Char.toNat_inj.mp htwelve
      exact Token.readQuoted_escape (by decide) 'f' rest
    by_cases hcontrol : c.toNat < 32
    · have hunescapable : isUnescapable c = true := by
        simp only [isUnescapable, hcontrol, decide_true, Bool.true_and, Bool.and_eq_true,
          bne_iff_ne]
        exact ⟨⟨hline, hreturn⟩, htab⟩
      have hreread : rereadChar c = ['u', '0', '0', hexDigit (c.toNat / 16), hexDigit c.toNat] := by
        rw [rereadChar, if_pos hunescapable]
        unfold quotedChar
        simp [height, htwelve, hcontrol]
      simp only [if_neg height, if_neg htwelve, if_pos hcontrol, hreread, List.cons_append,
        List.nil_append]
      rw [Token.readQuoted_escape (by decide), Token.readQuoted_plain (by decide) (by decide),
        Token.readQuoted_plain (by decide) (by decide),
        Token.readQuoted_plain (hexDigit_plain _).1 (hexDigit_plain _).2,
        Token.readQuoted_plain (hexDigit_plain _).1 (hexDigit_plain _).2]
      cases Token.readQuoted '"' rest <;> rfl
    · have hreread : rereadChar c = [c] := by
        rw [rereadChar, if_neg]
        simp [isUnescapable, hcontrol]
      simp only [if_neg height, if_neg htwelve, if_neg hcontrol, hreread, List.cons_append,
        List.nil_append]
      exact Token.readQuoted_plain hquote hbackslash rest

/-- A text written between quotes is read up to the closing quote. -/
theorem readQuoted_quoted (text rest : List Char) :
    Token.readQuoted '"' (text.flatMap quotedChar ++ '"' :: rest) =
      some (text.flatMap rereadChar, text.flatMap quotedChar ++ ['"'], rest) := by
  induction text with
  | nil =>
    rw [List.flatMap_nil, List.nil_append, Token.readQuoted.eq_def]
    rfl
  | cons c text ih =>
    rw [List.flatMap_cons, List.append_assoc, readQuoted_quotedChar, ih, List.flatMap_cons,
      Option.map_some, List.append_assoc]

end Json

namespace Lexeme

variable {rest : List Char}

/-- A text between quotes is cut into the literal that a rule reads there. -/
theorem cuts_quoted (text : String) :
    Cuts (Json.quoted text) [.literal (Json.reread (.string text))] rest := by
  refine cuts_of_read (by decide) (fun offset => ?_)
  have hquote : ('"' == '"' || '"' == '\'') = true := rfl
  rw [List.append_assoc, List.singleton_append, Token.read, if_neg, if_pos hquote,
    Json.readQuoted_quoted text.toList rest]
  · rfl
  · exact Bool.false_ne_true

/-- The text of a literal is cut into what a rule reads there. -/
theorem cuts_literal {value : Json} (h : value.IsLiteral) (hrest : Token.Separated rest) :
    Cuts (Json.text value) [.literal value.reread] rest := by
  have hword : ∀ c others, Text.isNameStart c = true → others.all Text.isNamePart = true →
      Cuts (c :: others) [Token.ofWord (c :: others)] rest := fun c others hfirst hothers =>
    cuts_word hfirst (List.all_eq_true.mp hothers) hrest
  cases value with
  | null => exact hword 'n' ['u', 'l', 'l'] (by decide) (by decide)
  | bool value =>
    cases value with
    | true => exact hword 't' ['r', 'u', 'e'] (by decide) (by decide)
    | false => exact hword 'f' ['a', 'l', 's', 'e'] (by decide) (by decide)
  | number number => exact cuts_number h hrest
  | string text => exact cuts_quoted text
  | array items => cases h
  | object members => cases h

end Lexeme

end AccessControl
