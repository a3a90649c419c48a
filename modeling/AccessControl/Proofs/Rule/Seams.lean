import AccessControl.Proofs.Rule.Acceptance
import AccessControl.Proofs.Rule.Spelling
import Mathlib.Data.List.Basic

/-!
# Texts around a comparison operator

Whatever token stands before a comparison operator or a blank ends there, since no other token goes
on with a character of such an operator or with a blank. So the texts on both sides of the operator
of a rule are cut into tokens as they are by themselves, whichever operator it is. Every rule is two
such texts around one operator.
-/

namespace AccessControl

/-- The signs that stand for a relation in rules. Equality has two of them. -/
def Relation.spellings : Relation → List String
  | .equal => ["==", "="]
  | relation => [relation.symbol]

/-- Every relation has a spelling. -/
theorem Relation.symbol_mem_spellings (relation : Relation) :
    relation.symbol ∈ relation.spellings := by
  cases relation <;> exact List.mem_cons_self

namespace Token

/-- Whether a character belongs to no name and no number. -/
def Plain (c : Char) : Prop :=
  Text.isNamePart c = false ∧ c.isDigit = false ∧ c ≠ '.' ∧ c ≠ '+' ∧ c ≠ '-' ∧
    ¬(c = 'e' ∨ c = 'E')

/-- Whether a text is empty or begins with a character that belongs to no name and no number. -/
def Closing : List Char → Prop
  | [] => True
  | c :: _ => Plain c

/-- The characters of comparison operators belong to no name and no number. -/
theorem plain_of_isSome_relations {c : Char} (h : (relations? c).isSome = true) : Plain c := by
  unfold relations? at h
  unfold Plain
  split at h
  case h_1 | h_2 | h_3 | h_4 => decide
  case h_5 => cases h

/-- Blanks belong to no name and no number. -/
theorem plain_of_isBlank {c : Char} (h : isBlank c = true) : Plain c := by
  simp only [isBlank, Bool.or_eq_true, beq_iff_eq] at h
  unfold Plain
  rcases h with ((rfl | rfl) | rfl) | rfl <;> decide

/-- Blanks close a text. -/
theorem closing_blanks {blanks : List Char} (h : ∀ c ∈ blanks, isBlank c = true) :
    Closing blanks := by
  cases blanks with
  | nil => trivial
  | cons c rest => exact plain_of_isBlank (h c List.mem_cons_self)

variable {closing : List Char}

/-- Characters of names and numbers are taken from a text alike, whatever closes it. -/
theorem span_append_closing (h : Closing closing) {p : Char → Bool}
    (hp : ∀ c, Plain c → p c = false) (text : List Char) :
    (text ++ closing).takeWhile p = text.takeWhile p ∧
      (text ++ closing).dropWhile p = text.dropWhile p ++ closing := by
  induction text with
  | nil =>
    cases closing with
    | nil => exact ⟨rfl, rfl⟩
    | cons c rest =>
      have hc : p c = false := hp c h
      simp only [List.nil_append, List.takeWhile_cons, List.dropWhile_cons, hc, Bool.false_eq_true,
        if_false, List.takeWhile_nil, List.dropWhile_nil, and_self]
  | cons c text ih =>
    rw [List.cons_append, List.takeWhile_cons, List.takeWhile_cons, List.dropWhile_cons,
      List.dropWhile_cons, ih.1, ih.2]
    cases p c <;> exact ⟨rfl, rfl⟩

namespace Numeral

/-- Digits are cut off alike, whatever closes the text. -/
theorem spanDigits_append_closing (h : Closing closing) (text : List Char) :
    Decimal.spanDigits (text ++ closing) =
      ((Decimal.spanDigits text).1, (Decimal.spanDigits text).2 ++ closing) := by
  obtain ⟨htake, hdrop⟩ := span_append_closing h (fun c hc => hc.2.1) text
  rw [Decimal.spanDigits, Decimal.spanDigits, htake, hdrop]

/-- What closes a text adds no digit at its head. -/
theorem startsWithDigit_append_closing (h : Closing closing) (text : List Char) :
    startsWithDigit (text ++ closing) = startsWithDigit text := by
  cases text with
  | cons c text => rfl
  | nil =>
    cases closing with
    | nil => rfl
    | cons c rest => exact h.2.1

/-- A fraction is read alike, whatever closes the text. -/
theorem readFraction_append_closing (h : Closing closing) (text : List Char) :
    readFraction (text ++ closing) = ((readFraction text).1, (readFraction text).2 ++ closing) := by
  cases text with
  | nil =>
    cases closing with
    | nil => rfl
    | cons c rest => exact readFraction_of_ne h.2.2.1 rest
  | cons c text =>
    by_cases hc : c = '.'
    · subst hc
      rw [List.cons_append, readFraction, readFraction, startsWithDigit_append_closing h,
        spanDigits_append_closing h]
      split <;> rfl
    · rw [List.cons_append, readFraction_of_ne hc, readFraction_of_ne hc]
      rfl

/-- A sign is read alike, whatever closes the text. -/
theorem readSign_append_closing (h : Closing closing) (text : List Char) :
    readSign (text ++ closing) = ((readSign text).1, (readSign text).2 ++ closing) := by
  cases text with
  | nil =>
    cases closing with
    | nil => rfl
    | cons c rest =>
      obtain ⟨-, -, -, hplus, hminus, -⟩ := h
      exact readSign_of_ne hplus hminus rest
  | cons c text =>
    by_cases hplus : c = '+'
    · subst hplus
      rfl
    by_cases hminus : c = '-'
    · subst hminus
      rfl
    rw [List.cons_append, readSign_of_ne hplus hminus, readSign_of_ne hplus hminus]
    rfl

/-- An exponent is read alike, whatever closes the text. -/
theorem readExponent_append_closing (h : Closing closing) (text : List Char) :
    readExponent (text ++ closing) =
      ((readExponent text).1, (readExponent text).2.1, (readExponent text).2.2 ++ closing) := by
  cases text with
  | nil =>
    cases closing with
    | nil => rfl
    | cons c rest =>
      rw [List.nil_append, readExponent, if_neg h.2.2.2.2.2]
      rfl
  | cons c text =>
    rw [List.cons_append, readExponent, readExponent, readSign_append_closing h]
    dsimp only
    rw [startsWithDigit_append_closing h, spanDigits_append_closing h]
    split
    · split <;> rfl
    · rfl

/-- A numeral is read alike, whatever closes the text. -/
theorem read_append_closing (h : Closing closing) (text : List Char) :
    read (text ++ closing) = ((read text).1, (read text).2 ++ closing) := by
  simp only [read, spanDigits_append_closing h, readFraction_append_closing h,
    readExponent_append_closing h]

end Numeral

/-- A quoted text ends at its closing quote, whatever stands behind it. -/
theorem readQuoted_before {quote : Char} {text meant spelling behind : List Char}
    (h : readQuoted quote text = some (meant, spelling, behind)) (other : List Char) :
    readQuoted quote (spelling ++ other) = some (meant, spelling, other) := by
  fun_induction readQuoted quote text generalizing meant spelling behind with
  | case1 => cases h
  | case2 rest =>
    cases h
    rw [List.singleton_append, readQuoted.eq_def]
    exact if_pos rfl
  | case3 => cases h
  | case4 e rest hquote ih =>
    simp only [Option.map_eq_some_iff, Prod.exists, Prod.mk.injEq] at h
    obtain ⟨inner, ending, behind', hread, rfl, rfl, rfl⟩ := h
    rw [List.cons_append, List.cons_append, readQuoted.eq_def]
    simp only [if_neg hquote, if_true, ih hread, Option.map_some]
  | case5 c rest hquote hescape ih =>
    simp only [Option.map_eq_some_iff, Prod.exists, Prod.mk.injEq] at h
    obtain ⟨inner, ending, behind', hread, rfl, rfl, rfl⟩ := h
    rw [List.cons_append, readQuoted.eq_def]
    simp only [if_neg hquote, if_neg hescape, ih hread, Option.map_some]

/-- The characters of comparison operators spell relations, with an equals sign and maybe alone. -/
theorem mem_spellings_of_relations {c : Char} {alone : Option Relation} {withEquals : Relation}
    (h : relations? c = some (alone, withEquals)) :
    String.ofList [c, '='] ∈ withEquals.spellings ∧
      ∀ relation ∈ alone, String.ofList [c] ∈ relation.spellings := by
  unfold relations? at h
  split at h <;> cases h <;> decide

/-- What is read at a character of a comparison operator is spelled as one. -/
theorem exists_spelling_of_readRelation {offset : Nat} {c : Char} {alone : Option Relation}
    {withEquals : Relation} {rest : List Char} {reading : Reading}
    (hc : relations? c = some (alone, withEquals))
    (h : readRelation offset c alone withEquals rest = .ok reading) :
    ∃ relation, reading.token = .relation relation ∧
      String.ofList reading.spelling ∈ relation.spellings := by
  obtain ⟨hboth, hone⟩ := mem_spellings_of_relations hc
  unfold readRelation at h
  split at h
  · cases h
    exact ⟨withEquals, rfl, hboth⟩
  · split at h
    case h_1 relation =>
      cases h
      exact ⟨relation, rfl, hone relation rfl⟩
    case h_2 => cases h

/-- A comparison operator that is read is spelled as one. -/
theorem mem_spellings_of_read {offset : Nat} {c : Char} {rest : List Char} {reading : Reading}
    {relation : Relation} (h : read offset c rest = .ok reading)
    (htoken : reading.token = .relation relation) :
    String.ofList reading.spelling ∈ relation.spellings := by
  cases read_eq_ok_iff.mp h with
  | number _ _ => cases htoken
  | quoted _ _ _ => cases htoken
  | word _ _ _ =>
    dsimp only [ofWord] at htoken
    split at htoken <;> cases htoken
  | sign _ _ _ hsign =>
    unfold ofSign? at hsign
    split at hsign <;> cases hsign <;> cases htoken
  | relation _ _ _ _ hrelation hread =>
    obtain ⟨other, hother, hmem⟩ := exists_spelling_of_readRelation hrelation hread
    cases htoken.symm.trans hother
    exact hmem

/-- A token that is no comparison operator is read alike, whatever closes the text behind it. -/
theorem read_closing {offset : Nat} {c : Char} {token : Token}
    {others rest first second : List Char} (hfirst : Closing first) (hsecond : Closing second)
    (htoken : ∀ sign, token ≠ .relation sign)
    (h : read offset c (others ++ (rest ++ first)) = .ok ⟨token, c :: others, rest ++ first⟩)
    (other : Nat) :
    read other c (others ++ (rest ++ second)) = .ok ⟨token, c :: others, rest ++ second⟩ := by
  rw [← List.append_assoc] at h ⊢
  have hcancel : ∀ behind, rest ++ first = behind ++ first → behind ++ second = rest ++ second :=
    fun behind hbehind => by rw [List.append_cancel_right hbehind]
  have hstart : ∀ closing, Closing closing →
      (c.isDigit || (c == '.' && Numeral.startsWithDigit (others ++ rest ++ closing))) =
        (c.isDigit || (c == '.' && Numeral.startsWithDigit (others ++ rest))) :=
    fun closing hclosing => by rw [Numeral.startsWithDigit_append_closing hclosing]
  have hsame := (hstart second hsecond).trans (hstart first hfirst).symm
  have hreads := read_eq_ok_iff.mp h
  refine read_eq_ok_iff.mpr ?_
  generalize hreading : Reading.mk token (c :: others) (rest ++ first) = reading at hreads
  cases hreads with
  | number hdigit hvalue =>
    rw [← List.cons_append, Numeral.read_append_closing hfirst] at hvalue hreading
    obtain ⟨rfl, hspelling, hrest⟩ := Reading.mk.inj hreading
    have hnumeral := Numeral.read_append_closing hsecond (c :: (others ++ rest))
    have hnumber : Reads other c (others ++ rest ++ second) _ :=
      .number (hsame.trans hdigit) (by rwa [← List.cons_append, hnumeral])
    rw [← List.cons_append, hnumeral] at hnumber
    rw [hspelling, ← hcancel _ hrest]
    exact hnumber
  | quoted hdigit hquote hread =>
    obtain ⟨rfl, hspelling, rfl⟩ := Reading.mk.inj hreading
    obtain rfl := (List.cons.inj hspelling).2
    refine .quoted (hsame.trans hdigit) hquote ?_
    rw [List.append_assoc, readQuoted_before hread]
  | word hdigit hquote hname =>
    have hspan : ∀ closing, Closing closing →
        (others ++ rest ++ closing).takeWhile Text.isNamePart =
            (others ++ rest).takeWhile Text.isNamePart ∧
          (others ++ rest ++ closing).dropWhile Text.isNamePart =
            (others ++ rest).dropWhile Text.isNamePart ++ closing := fun closing hclosing =>
      span_append_closing hclosing (fun d hd => hd.1) _
    rw [(hspan first hfirst).1, (hspan first hfirst).2] at hreading
    obtain ⟨rfl, hspelling, hrest⟩ := Reading.mk.inj hreading
    have hword : Reads other c (others ++ rest ++ second) _ :=
      .word (hsame.trans hdigit) hquote hname
    rw [(hspan second hsecond).1, (hspan second hsecond).2] at hword
    rw [hspelling, ← hcancel _ hrest]
    exact hword
  | sign hdigit hquote hname hsign =>
    obtain ⟨rfl, hspelling, -⟩ := Reading.mk.inj hreading
    obtain rfl := (List.cons.inj hspelling).2
    exact .sign (hsame.trans hdigit) hquote hname hsign
  | relation _ _ _ _ hrelation hread =>
    obtain ⟨relation, hrelation, -⟩ := exists_spelling_of_readRelation hrelation hread
    rw [← hreading] at hrelation
    exact absurd hrelation (htoken relation)

/-- A spelling of a relation is a character of comparison operators, with an equals sign behind it
or alone. -/
theorem exists_relations_of_mem_spellings {relation : Relation} {sign : String}
    (h : sign ∈ relation.spellings) :
    ∃ c alone withEquals, relations? c = some (alone, withEquals) ∧
      (sign.toList = [c, '='] ∧ withEquals = relation ∨
        sign.toList = [c] ∧ alone = some relation) := by
  cases relation with
  | less =>
    obtain rfl := List.mem_singleton.mp h
    exact ⟨'<', _, _, rfl, Or.inr ⟨rfl, rfl⟩⟩
  | greater =>
    obtain rfl := List.mem_singleton.mp h
    exact ⟨'>', _, _, rfl, Or.inr ⟨rfl, rfl⟩⟩
  | atMost =>
    obtain rfl := List.mem_singleton.mp h
    exact ⟨'<', _, _, rfl, Or.inl ⟨rfl, rfl⟩⟩
  | atLeast =>
    obtain rfl := List.mem_singleton.mp h
    exact ⟨'>', _, _, rfl, Or.inl ⟨rfl, rfl⟩⟩
  | equal =>
    rcases List.mem_cons.mp h with rfl | hsingle
    · exact ⟨'=', _, _, rfl, Or.inl ⟨rfl, rfl⟩⟩
    · obtain rfl := List.mem_singleton.mp hsingle
      exact ⟨'=', _, _, rfl, Or.inr ⟨rfl, rfl⟩⟩
  | unequal =>
    obtain rfl := List.mem_singleton.mp h
    exact ⟨'!', _, _, rfl, Or.inl ⟨rfl, rfl⟩⟩

/-- A spelling of a relation begins with a character of comparison operators. -/
theorem closing_spelling {relation : Relation} {sign : String} (h : sign ∈ relation.spellings)
    (rest : List Char) : Closing (sign.toList ++ rest) := by
  obtain ⟨c, alone, withEquals, hc, ⟨hsign, -⟩ | ⟨hsign, -⟩⟩ := exists_relations_of_mem_spellings h
  all_goals
    rw [hsign]
    exact plain_of_isSome_relations (Option.isSome_of_eq_some hc)

/-- At a character of comparison operators, such an operator is read. -/
theorem read_of_relations {c : Char} {alone : Option Relation} {withEquals : Relation}
    (h : relations? c = some (alone, withEquals)) (offset : Nat) (rest : List Char) :
    isBlank c = false ∧ read offset c rest = readRelation offset c alone withEquals rest := by
  unfold relations? at h
  split at h <;> cases h <;> exact ⟨rfl, rfl⟩

end Token

namespace Lexeme

/-- A spelling of a relation is cut into its operator where no equals sign follows. -/
theorem cuts_spelling {relation : Relation} {sign : String} (h : sign ∈ relation.spellings)
    {rest : List Char} (hrest : rest.head? ≠ some '=') :
    Cuts sign.toList [.relation relation] rest := by
  obtain ⟨c, alone, withEquals, hc, ⟨hsign, rfl⟩ | ⟨hsign, rfl⟩⟩ :=
    Token.exists_relations_of_mem_spellings h
  · rw [hsign]
    exact cuts_of_read (Token.read_of_relations hc 0 []).1
      (fun offset => (Token.read_of_relations hc offset _).2)
  · rw [hsign]
    refine cuts_of_read (Token.read_of_relations hc 0 []).1 (fun offset => ?_)
    rw [(Token.read_of_relations hc offset _).2, List.nil_append, Token.readRelation]
    rintro behind rfl
    exact hrest rfl

/-- Whether a text has tokens and none of them is a comparison operator. -/
def IsSide (text : String) : Prop :=
  ∃ lexemes, scan text = .ok lexemes ∧ ∀ sign, .relation sign ∉ lexemes.map Lexeme.token

/-- What can stand behind a side, with its tokens: nothing, or a comparison operator and a text with
tokens. -/
inductive Tail : List Char → List Token → Prop where
  /-- Nothing. -/
  | nothing : Tail [] []
  /-- A comparison operator and the tokens behind it. -/
  | operator {relation : Relation} {sign : String} {rest : List Char} {position : Nat}
    {others : List Lexeme} : sign ∈ relation.spellings → scanFrom position rest = .ok others →
    Tail (sign.toList ++ rest) (.relation relation :: others.map Lexeme.token)

/-- The tail of a side closes it. -/
theorem Tail.closing {behind : List Char} {tokens : List Token} (h : Tail behind tokens) :
    Token.Closing behind := by
  cases h with
  | nothing => trivial
  | operator hsign _ => exact Token.closing_spelling hsign _

/-- A text with tokens begins with a side: up to its first comparison operator if it has one, and as
a whole if it has none. -/
theorem exists_side {offset : Nat} {text : List Char} {lexemes : List Lexeme}
    (h : scanFrom offset text = .ok lexemes) :
    ∃ side behind before after, text = side ++ behind ∧
      lexemes.map Lexeme.token = before ++ after ∧ (∀ sign, .relation sign ∉ before) ∧
      (∀ closing, Token.Closing closing → Cuts side before closing) ∧ Tail behind after := by
  fun_induction scanFrom offset text generalizing lexemes with
  | case1 =>
    cases h
    exact ⟨[], [], [], [], rfl, rfl, fun _ => List.not_mem_nil, fun _ _ => cuts_nil, .nothing⟩
  | case2 offset c rest hblank ih =>
    obtain ⟨side, behind, before, after, rfl, htokens, hbefore, hcuts, htail⟩ := ih h
    exact ⟨c :: side, behind, before, after, rfl, htokens, hbefore,
      fun closing hclosing => (cuts_blank hblank _).cons (hcuts closing hclosing), htail⟩
  | case3 offset c rest hblank cause hread => cases h
  | case4 offset c rest hblank reading hread cause hscan => cases h
  | case5 offset c rest hblank reading hread others hscan ih =>
    cases h
    have happend := Token.spelling_append_rest hread
    by_cases htoken : ∃ relation, reading.token = .relation relation
    · obtain ⟨relation, hrelation⟩ := htoken
      have htail := Tail.operator (Token.mem_spellings_of_read hread hrelation) hscan
      rw [String.toList_ofList, happend] at htail
      refine ⟨[], c :: rest, [], _, rfl, ?_, fun _ => List.not_mem_nil, fun _ _ => cuts_nil, htail⟩
      rw [List.map_cons, hrelation, List.nil_append]
    · have hother : ∀ sign, reading.token ≠ .relation sign := fun sign hsign => htoken ⟨sign, hsign⟩
      obtain ⟨side, behind, before, after, hsplit, htokens, hbefore, hcuts, htail⟩ := ih hscan
      obtain ⟨token, spelling, rest⟩ := reading
      obtain ⟨first, more, rfl⟩ := List.exists_cons_of_ne_nil (Token.spelling_ne_nil hread)
      obtain rfl : rest = side ++ behind := hsplit
      obtain ⟨rfl, rfl⟩ := List.cons.inj happend
      refine ⟨first :: more ++ side, behind, token :: before, after,
        (List.append_assoc (first :: more) side behind).symm, congrArg (token :: ·) htokens,
        fun sign => List.not_mem_cons_of_ne_of_not_mem (hother sign).symm (hbefore sign),
        fun closing hclosing => ?_, htail⟩
      exact (cuts_of_read (Bool.eq_false_iff.mpr hblank) (fun position =>
        Token.read_closing htail.closing hclosing hother hread position)).append
          (hcuts closing hclosing)

/-- A side is cut alike, whatever closes it. -/
theorem cuts_side {offset : Nat} {text : List Char} {lexemes : List Lexeme}
    (h : scanFrom offset text = .ok lexemes)
    (hnone : ∀ sign, .relation sign ∉ lexemes.map Lexeme.token) {closing : List Char}
    (hclosing : Token.Closing closing) : Cuts text (lexemes.map Lexeme.token) closing := by
  obtain ⟨side, behind, before, after, rfl, htokens, -, hcuts, htail⟩ := exists_side h
  cases htail with
  | nothing =>
    rw [htokens, List.append_nil, List.append_nil]
    exact hcuts closing hclosing
  | operator =>
    rw [htokens] at hnone
    exact absurd (List.mem_append_right before List.mem_cons_self) (hnone _)

/-- No side begins with an equals sign. -/
theorem head?_ne_of_side {offset : Nat} {text : List Char} {lexemes : List Lexeme}
    (h : scanFrom offset text = .ok lexemes)
    (hnone : ∀ sign, .relation sign ∉ lexemes.map Lexeme.token) : text.head? ≠ some '=' := by
  intro hhead
  obtain ⟨rest, rfl⟩ := List.head?_eq_some_iff.mp hhead
  have hequals : Token.relations? '=' = some (some .equal, .equal) := rfl
  obtain ⟨hblank, hread⟩ := Token.read_of_relations hequals offset rest
  rw [scanFrom, if_neg (Bool.eq_false_iff.mp hblank)] at h
  split at h
  case h_1 => cases h
  case h_2 reading hreading =>
    rw [hread] at hreading
    obtain ⟨relation, htoken, -⟩ := Token.exists_spelling_of_readRelation hequals hreading
    split at h
    case h_1 => cases h
    case h_2 others hothers =>
      cases h
      exact hnone relation (htoken ▸ List.mem_cons_self)

/-- Two sides around a spelling of a relation have their own tokens and the operator between
them. -/
theorem scan_around {relation : Relation} {left sign right : String} {first second : List Lexeme}
    (hfirst : scan left = .ok first) (hleft : ∀ sign, .relation sign ∉ first.map Lexeme.token)
    (hsecond : scan right = .ok second) (hright : ∀ sign, .relation sign ∉ second.map Lexeme.token)
    (hsign : sign ∈ relation.spellings) :
    ∃ lexemes, scan (left ++ sign ++ right) = .ok lexemes ∧ lexemes.map Lexeme.token =
      first.map Lexeme.token ++ .relation relation :: second.map Lexeme.token := by
  have hbehind : Cuts (sign.toList ++ right.toList) (.relation relation :: second.map Lexeme.token)
      [] := by
    refine (cuts_spelling hsign ?_).append (cuts_side hsecond hright trivial)
    rw [List.append_nil]
    exact head?_ne_of_side hsecond hright
  have hclosing : Token.Closing (sign.toList ++ right.toList ++ []) := by
    rw [List.append_assoc]
    exact Token.closing_spelling hsign _
  obtain ⟨lexemes, hscan, htokens⟩ := ((cuts_side hfirst hleft hclosing).append hbehind).scan
  refine ⟨lexemes, ?_, htokens⟩
  rw [← hscan, ← List.append_assoc, ← String.toList_append, ← String.toList_append,
    String.ofList_toList]

/-- A text with one comparison operator is two sides around a spelling of its relation. -/
theorem exists_around {relation : Relation} {text : String} {lexemes : List Lexeme}
    {first second : List Token} (h : scan text = .ok lexemes)
    (htokens : lexemes.map Lexeme.token = first ++ .relation relation :: second)
    (hfirst : ∀ sign, .relation sign ∉ first) (hsecond : ∀ sign, .relation sign ∉ second) :
    ∃ left right, ∃ sign ∈ relation.spellings, IsSide left ∧ IsSide right ∧
      text = left ++ sign ++ right := by
  obtain ⟨side, behind, before, after, htext, hsplit, hbefore, hcuts, htail⟩ := exists_side h
  rw [htokens] at hsplit
  cases htail with
  | nothing =>
    rw [List.append_nil] at hsplit
    exact absurd (hsplit ▸ List.mem_append_right first List.mem_cons_self) (hbefore relation)
  | @operator other sign rest position others hsign hscan =>
    obtain ⟨rfl, hrelation, rfl⟩ :=
      (List.append_cons_inj_of_notMem (hfirst other) (hsecond other)).mp hsplit
    cases hrelation
    obtain ⟨left, hleft, hleftTokens⟩ := (hcuts [] trivial).scan
    have hrest : Cuts rest (others.map Lexeme.token) [] := cuts_side hscan hsecond trivial
    obtain ⟨right, hright, hrightTokens⟩ := hrest.scan
    refine ⟨_, _, sign, hsign, ⟨left, hleft, ?_⟩, ⟨right, hright, ?_⟩, ?_⟩
    · rwa [hleftTokens]
    · rwa [hrightTokens]
    · rw [← String.toList_inj, htext, String.toList_append, String.toList_append,
        String.toList_ofList, String.toList_ofList, List.append_assoc]

end Lexeme

namespace Comparison

/-- The tokens of a comparison around its only operator. -/
theorem IsComparison.around {m n : Nat} {relation : Relation} {first second : List Token}
    {comparison : Comparison}
    (h : IsComparison m n (first ++ .relation relation :: second) comparison)
    (hfirst : ∀ sign, .relation sign ∉ first) (hsecond : ∀ sign, .relation sign ∉ second) :
    comparison.relation = relation ∧ Operand.SumTokens m first comparison.left ∧
      Operand.SumTokens n second comparison.right := by
  obtain ⟨left, right, htokens, -, -, hleft, hright⟩ := h
  obtain ⟨rfl, hrelation, rfl⟩ :=
    (List.append_cons_inj_of_notMem (hfirst _) (hsecond _)).mp htokens
  exact ⟨(Token.relation.inj hrelation).symm, hleft, hright⟩

/-- Every rule is two sides around a spelling of its relation. -/
theorem exists_around_of_parse {source : String} {comparison : Comparison}
    (h : parse source = .ok comparison) :
    ∃ left right, ∃ sign ∈ comparison.relation.spellings, Lexeme.IsSide left ∧
      Lexeme.IsSide right ∧ source = left ++ sign ++ right := by
  cases hscan : Lexeme.scan source with
  | error cause =>
    rw [parse, hscan] at h
    cases h
  | ok lexemes =>
    rw [parse_of_scan hscan] at h
    obtain ⟨m, -, n, -, first, second, htokens, hfirst, hsecond, -, -⟩ := ofLexemes_sound h
    exact Lexeme.exists_around hscan htokens hfirst hsecond

end Comparison

end AccessControl
