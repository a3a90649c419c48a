import AccessControl.Proofs.Rule.Quotation
import AccessControl.Proofs.Rule.Seams
import AccessControl.Proofs.Rule.Thresholds

/-!
# Tokens with blanks between them

Tokens in any order can be written one behind the other. Names, words and signs are written as they
are, integers by their digits, and texts between quotes of either kind, in which only that quote and
the backslash are escaped. With a blank between any two of them no token goes on with a character of
the next one, so that the text is cut into just these tokens.
-/

namespace AccessControl

namespace Token

/-- The words that stand for a literal. -/
def literalWords : List (String × Json) :=
  [("true", .bool true), ("false", .bool false), ("null", .null)]

/-- The punctuation of rules. -/
def marks : List (Char × Token) :=
  [('.', .dot), (',', .comma), ('(', .openParen), (')', .closeParen), ('[', .openBracket),
    (']', .closeBracket)]

/-- Whether a word consists of the characters of names and stands for no literal. -/
structure IsIdentifier (word : String) : Prop where
  /-- The first character starts a name and the others go on with it. -/
  spelling : ∃ first others, word.toList = first :: others ∧ Text.isNameStart first = true ∧
    ∀ c ∈ others, Text.isNamePart c = true
  /-- The word stands for no literal. -/
  plain : ∀ value, (word, value) ∉ literalWords

/-- The tokens that are written: names, integers from zero on that are signed, words for literals,
texts, punctuation and operators. -/
def Writable : Token → Prop
  | .name word => IsIdentifier word
  | .literal (.number number) => ∃ (n : Nat) (h : Number.Signed n), number = .integer n h.fits
  | .literal (.array _) | .literal (.object _) => False
  | _ => True

/-- How a token is written. -/
inductive Written : Token → List Char → Prop where
  /-- A name as it is. -/
  | name {word : String} : IsIdentifier word → Written (.name word) word.toList
  /-- A literal by its word. -/
  | word {word : String} {value : Json} : (word, value) ∈ literalWords →
    Written (.literal value) word.toList
  /-- An integer by its decimal digits. -/
  | integer (n : Nat) (h : Number.Signed n) :
    Written (.literal (.number (.integer n h.fits))) (Nat.toDigits 10 n)
  /-- A text between quotes. -/
  | quoted (quote : Quote) (text : String) :
    Written (.literal (.string text)) (quote.around text.toList)
  /-- A punctuation character. -/
  | mark {c : Char} {token : Token} : (c, token) ∈ marks → Written token [c]
  /-- An arithmetic operator by its sign. -/
  | operator (operator : Operator) : Written (.operator operator) operator.symbol.toList
  /-- A comparison operator by one of its signs. -/
  | relation {relation : Relation} {sign : String} : sign ∈ relation.spellings →
    Written (.relation relation) sign.toList

/-- A word of the characters of names that stands for no literal is a name. -/
theorem IsIdentifier.isName {word : String} (h : IsIdentifier word) : IsName word := by
  refine ⟨h.spelling, ofWord_eq_name_iff.mpr ?_⟩
  simp only [Bool.or_eq_false_iff, beq_eq_false_iff_ne]
  refine ⟨⟨?_, ?_⟩, ?_⟩ <;> rintro rfl
  · exact h.plain (.bool true) (by decide)
  · exact h.plain (.bool false) (by decide)
  · exact h.plain .null (by decide)

/-- Every writable token can be written. -/
theorem exists_written {token : Token} (h : token.Writable) :
    ∃ spelling, Written token spelling := by
  cases token with
  | name word => exact ⟨_, .name h⟩
  | literal value =>
    cases value with
    | null => exact ⟨_, @Written.word "null" _ (by decide)⟩
    | bool value =>
      cases value with
      | true => exact ⟨_, @Written.word "true" _ (by decide)⟩
      | false => exact ⟨_, @Written.word "false" _ (by decide)⟩
    | number number =>
      obtain ⟨n, hsigned, rfl⟩ := h
      exact ⟨_, .integer n hsigned⟩
    | string text => exact ⟨_, .quoted .double text⟩
    | array items => cases h
    | object members => cases h
  | dot => exact ⟨['.'], .mark (by decide)⟩
  | comma => exact ⟨[','], .mark (by decide)⟩
  | openParen => exact ⟨['('], .mark (by decide)⟩
  | closeParen => exact ⟨[')'], .mark (by decide)⟩
  | openBracket => exact ⟨['['], .mark (by decide)⟩
  | closeBracket => exact ⟨[']'], .mark (by decide)⟩
  | operator operator => exact ⟨_, .operator operator⟩
  | relation relation => exact ⟨_, .relation relation.symbol_mem_spellings⟩

/-- Whether a text is at its end or goes on with a blank. -/
def Parted (text : List Char) : Prop := ∀ c ∈ text.head?, isBlank c = true

/-- A name or a number does not go on with a blank. -/
theorem Parted.separated {text : List Char} (h : Parted text) : Separated text := by
  cases text with
  | nil => trivial
  | cons c rest =>
    have hblank : isBlank c = true := h c rfl
    refine ⟨?_, ?_⟩
    · by_contra hpart
      rw [isBlank_of_isNamePart (Bool.not_eq_false _ ▸ hpart)] at hblank
      cases hblank
    · rintro rfl
      cases hblank

/-- The words for literals are their texts. -/
theorem text_of_mem_literalWords {word : String} {value : Json} (h : (word, value) ∈ literalWords) :
    Json.text value = word.toList ∧ value.IsLiteral ∧ value.reread = value := by
  simp only [literalWords, List.mem_cons, Prod.mk.injEq, List.not_mem_nil, or_false] at h
  rcases h with ⟨rfl, rfl⟩ | ⟨rfl, rfl⟩ | ⟨rfl, rfl⟩ <;> exact ⟨rfl, trivial, rfl⟩

/-- Punctuation is a sign of rules. -/
theorem ofSign?_of_mem_marks {c : Char} {token : Token} (h : (c, token) ∈ marks) :
    ofSign? c = some token := by
  simp only [marks, List.mem_cons, Prod.mk.injEq, List.not_mem_nil, or_false] at h
  rcases h with ⟨rfl, rfl⟩ | ⟨rfl, rfl⟩ | ⟨rfl, rfl⟩ | ⟨rfl, rfl⟩ | ⟨rfl, rfl⟩ | ⟨rfl, rfl⟩ <;> rfl

end Token

/-- A natural number that is a signed integer is meant exactly. -/
theorem Number.asThreshold_of_signed {n : Nat} (h : Signed n) :
    asThreshold n h.fits = .integer n h.fits := by
  have hsmall : (n : Int).natAbs < 9223372036854775808 := by
    simp only [Signed] at h
    omega
  rw [asThreshold, if_pos hsmall]

namespace Lexeme

variable {rest : List Char}

/-- A written token is cut into the token where the text ends behind it or goes on with a blank. -/
theorem cuts_written {token : Token} {spelling : List Char} (h : token.Written spelling)
    (hrest : Token.Parted rest) : Cuts spelling [token] rest := by
  have hseparated := hrest.separated
  cases h with
  | name hword => exact cuts_name hword.isName hseparated
  | word hword =>
    obtain ⟨htext, hliteral, hreread⟩ := Token.text_of_mem_literalWords hword
    have hcuts := cuts_literal hliteral hseparated
    rwa [htext, hreread] at hcuts
  | integer n hsigned =>
    have hcuts := cuts_toDigits hsigned.fits hseparated
    rwa [Number.asThreshold_of_signed hsigned] at hcuts
  | quoted quote text => exact cuts_around quote text rest
  | mark hmark =>
    exact cuts_sign (Token.ofSign?_of_mem_marks hmark)
      (fun _ => Token.Numeral.startsWithDigit_of_separated hseparated)
  | operator operator => exact cuts_operator operator rest
  | relation hsign =>
    refine cuts_spelling hsign (fun hequals => ?_)
    have hblank : Token.isBlank '=' = true := hrest '=' hequals
    cases hblank

/-- A text in which tokens are written one behind the other: blanks stand between any two of them,
and may stand before the first one and behind the last one. -/
inductive Spaced : List Token → List Char → Prop where
  /-- No further token, and blanks up to the end. -/
  | done {blanks : List Char} : (∀ c ∈ blanks, Token.isBlank c = true) → Spaced [] blanks
  /-- A token behind blanks, with the end or a blank behind it. -/
  | token {blanks spelling rest : List Char} {token : Token} {tokens : List Token} :
    (∀ c ∈ blanks, Token.isBlank c = true) → token.Written spelling → Token.Parted rest →
    Spaced tokens rest → Spaced (token :: tokens) (blanks ++ (spelling ++ rest))

/-- A text in which tokens are written is cut into them. -/
theorem Spaced.cuts {tokens : List Token} {text : List Char} (h : Spaced tokens text) :
    Cuts text tokens [] := by
  induction h with
  | done hblanks => exact cuts_blanks hblanks []
  | @token blanks spelling rest token tokens hblanks hwritten hparted _ ih =>
    rw [← List.append_nil rest] at hparted
    exact (cuts_blanks hblanks _).append ((cuts_written hwritten hparted).append ih)

/-- Writable tokens in any order can be written with blanks between them. -/
theorem exists_spaced {tokens : List Token} (h : ∀ token ∈ tokens, token.Writable) :
    ∃ text, Spaced tokens text ∧ Token.Parted text := by
  induction tokens with
  | nil => exact ⟨[], .done (List.forall_mem_nil _), fun c hc => by cases hc⟩
  | cons token tokens ih =>
    obtain ⟨htoken, htokens⟩ := List.forall_mem_cons.mp h
    obtain ⟨spelling, hwritten⟩ := Token.exists_written htoken
    obtain ⟨text, htext, hparted⟩ := ih htokens
    have hblank : ∀ c ∈ [' '], Token.isBlank c = true := List.forall_mem_singleton.mpr rfl
    refine ⟨[' '] ++ (spelling ++ text), .token hblank hwritten hparted htext, ?_⟩
    exact fun c hc => by cases hc; rfl

/-- Tokens in any order are written, with a blank between any two of them, in some texts, and every
such text is cut into just these tokens. -/
theorem scan_of_spaced {tokens : List Token} (h : ∀ token ∈ tokens, token.Writable) :
    (∃ text : String, Spaced tokens text.toList) ∧
      ∀ text : String, Spaced tokens text.toList →
        ∃ lexemes, scan text = .ok lexemes ∧ lexemes.map Lexeme.token = tokens := by
  refine ⟨?_, fun text htext => ?_⟩
  · obtain ⟨text, htext, -⟩ := exists_spaced h
    exact ⟨String.ofList text, by rwa [String.toList_ofList]⟩
  · have hscan := htext.cuts.scan
    rwa [String.ofList_toList] at hscan

/-- A name that could go on with a number, the greatest integer, a point, a text with both quotes
and a backslash, and two operators that would be one without the blank between them. -/
theorem scan_of_spaced_close :
    let tokens : List Token :=
      [.name "e1", .literal (.number (.integer 9223372036854775807 (by decide))), .dot,
        .literal (.string "it's \"\\"), .relation .less, .relation .equal, .operator .minus,
        .literal (.bool true)]
    let text := "e1 9223372036854775807 .\t'it\\'s \"\\\\'\n< = - true"
    (∀ token ∈ tokens, token.Writable) ∧
      Spaced tokens text.toList ∧
      ∃ lexemes, scan text = .ok lexemes ∧ lexemes.map Lexeme.token = tokens := by
  intro tokens text
  have hname : Token.IsIdentifier "e1" :=
    ⟨⟨'e', ['1'], rfl, by decide, List.forall_mem_singleton.mpr (by decide)⟩,
      by simp [Token.literalWords]⟩
  have hwritable : ∀ token ∈ tokens, token.Writable := by
    simp only [tokens, List.forall_mem_cons]
    exact ⟨hname, ⟨9223372036854775807, by decide, rfl⟩, trivial, trivial, trivial, trivial,
      trivial, trivial, List.forall_mem_nil _⟩
  have htext : text.toList =
      [] ++ ("e1".toList ++ ([' '] ++ (Nat.toDigits 10 9223372036854775807 ++ ([' '] ++ (['.'] ++
        (['\t'] ++ (Quote.single.around "it's \"\\".toList ++ (['\n'] ++ ("<".toList ++
          ([' '] ++ ("=".toList ++ ([' '] ++ (Operator.minus.symbol.toList ++
            ([' '] ++ ("true".toList ++ []))))))))))))))) := by
    decide +kernel
  have hspaced : Spaced tokens text.toList := by
    rw [htext]
    have hnone : ∀ c ∈ ([] : List Char), Token.isBlank c = true := List.forall_mem_nil _
    have hone : ∀ c, Token.isBlank c = true → ∀ other ∈ [c], Token.isBlank other = true :=
      fun _ hc => List.forall_mem_singleton.mpr hc
    have hparted : ∀ c, Token.isBlank c = true → ∀ rest, Token.Parted ([c] ++ rest) := by
      rintro c hc rest _ ⟨⟩
      exact hc
    refine .token hnone (.name hname) (hparted _ rfl _) ?_
    refine .token (hone _ rfl) (.integer 9223372036854775807 (by decide)) (hparted _ rfl _) ?_
    refine .token (hone _ rfl) (.mark (by decide)) (hparted _ rfl _) ?_
    refine .token (hone _ rfl) (.quoted .single _) (hparted _ rfl _) ?_
    refine .token (hone _ rfl) (.relation (by decide)) (hparted _ rfl _) ?_
    refine .token (hone _ rfl) (.relation (by decide)) (hparted _ rfl _) ?_
    refine .token (hone _ rfl) (.operator .minus) (hparted _ rfl _) ?_
    exact .token (hone _ rfl) (.word (by decide)) (fun c hc => by cases hc) (.done hnone)
  exact ⟨hwritable, hspaced, (scan_of_spaced hwritable).2 _ hspaced⟩

end Lexeme

end AccessControl
