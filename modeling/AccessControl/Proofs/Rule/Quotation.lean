import AccessControl.Proofs.Rule.Spelling

/-!
# Quoted texts

A rule can hold any text between quotes of either kind. The quote that ends the text and the
backslash are written behind a backslash, and all other characters as they are, the other quote and
control characters among them. What is written in this way is read as it was.
-/

namespace AccessControl

/-- The quotes that a text can stand between. -/
inductive Quote where
  /-- Quotes of one stroke. -/
  | single
  /-- Quotes of two strokes. -/
  | double
  deriving DecidableEq, Repr

namespace Quote

/-- The character of a quote. -/
def character : Quote → Char
  | .single => '\''
  | .double => '"'

/-- A character between quotes: the quote itself and the backslash stand behind a backslash. -/
def escape (quote : Quote) (c : Char) : List Char :=
  if c = quote.character ∨ c = '\\' then ['\\', c] else [c]

/-- A text between quotes. -/
def around (quote : Quote) (text : List Char) : List Char :=
  quote.character :: (text.flatMap quote.escape ++ [quote.character])

/-- No quote is a backslash. -/
theorem backslash_ne (quote : Quote) : '\\' ≠ quote.character := by
  cases quote <;> decide

/-- A quote and the backslash stand for themselves behind a backslash. -/
theorem escaped_eq {quote : Quote} {c : Char} (h : c = quote.character ∨ c = '\\') :
    Token.escaped c = c := by
  rcases h with rfl | rfl
  · cases quote <;> rfl
  · rfl

/-- A character written between quotes is read as it was, and the text goes on behind it. -/
theorem readQuoted_escape (quote : Quote) (c : Char) (rest : List Char) :
    Token.readQuoted quote.character (quote.escape c ++ rest) =
      (Token.readQuoted quote.character rest).map (fun (text, spelling, rest) =>
        (c :: text, quote.escape c ++ spelling, rest)) := by
  rw [escape]
  split
  case isTrue hspecial =>
    rw [List.cons_append, List.cons_append, List.nil_append,
      Token.readQuoted_escape quote.backslash_ne, escaped_eq hspecial]
    rfl
  case isFalse hplain =>
    rw [not_or] at hplain
    exact Token.readQuoted_plain hplain.1 hplain.2 rest

/-- A text written between quotes is read up to the closing quote. -/
theorem readQuoted_around (quote : Quote) (text rest : List Char) :
    Token.readQuoted quote.character (text.flatMap quote.escape ++ quote.character :: rest) =
      some (text, text.flatMap quote.escape ++ [quote.character], rest) := by
  induction text with
  | nil =>
    rw [List.flatMap_nil, List.nil_append, Token.readQuoted.eq_def]
    exact if_pos rfl
  | cons c text ih =>
    rw [List.flatMap_cons, List.append_assoc, readQuoted_escape, ih, Option.map_some,
      List.append_assoc]

end Quote

/-- A text between quotes is cut into the literal of the text. -/
theorem Lexeme.cuts_around (quote : Quote) (text : String) (rest : List Char) :
    Cuts (quote.around text.toList) [.literal (.string text)] rest := by
  have hplain : Token.isBlank quote.character = false ∧
      (∀ text, (quote.character.isDigit ||
        (quote.character == '.' && Token.Numeral.startsWithDigit text)) = false) ∧
      (quote.character == '"' || quote.character == '\'') = true := by
    cases quote <;> exact ⟨rfl, fun _ => rfl, rfl⟩
  obtain ⟨hblank, hdigit, hquote⟩ := hplain
  refine cuts_of_read hblank (fun offset => ?_)
  have hread : Token.Reads offset quote.character
      (text.toList.flatMap quote.escape ++ quote.character :: rest) _ :=
    .quoted (hdigit _) hquote (quote.readQuoted_around text.toList rest)
  rw [List.append_assoc, List.singleton_append, Token.read_eq_ok_iff.mpr hread, Json.ofChars,
    String.ofList_toList]

end AccessControl
