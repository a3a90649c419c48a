import AccessControl.Proofs.Rule.Between
import AccessControl.Proofs.Rule.Quotation

/-!
# Paths into attribute bags

A path goes from a bag through its objects by keys and through its lists by positions. A rule writes
it as the name of the bag with every step in brackets behind it, keys between quotes and positions
by their digits. Within the limit such a text is read, whatever the keys are made of, and its value
is what the path leads to. It faults where a step has no target, and nowhere else. Lists and texts
have a length besides, under the key of that name.
-/

namespace AccessControl.Path

/-- A step of a path. -/
inductive Step where
  /-- To a member of an object, by its key between quotes. -/
  | member (quote : Quote) (key : String)
  /-- To an item of a list, by its position. -/
  | item (position : Nat) (fits : position < 9223372036854775808)

/-- Where a step leads from a value: to the member of an object under the key, to the item of a list
at the position, or to the length of a list or of a text. -/
inductive Step.Leads : Step → Json → Json → Prop where
  /-- To a member. -/
  | member {quote : Quote} {key : String} {members : List (String × Json)} {target : Json} :
    NameMap.find key members = some target → Leads (.member quote key) (.object members) target
  /-- To an item. -/
  | item {position : Nat} {fits : position < 9223372036854775808} {items : List Json}
    {target : Json} : items[position]? = some target →
    Leads (.item position fits) (.array items) target
  /-- To the number of items. -/
  | count {quote : Quote} {items : List Json} :
    Leads (.member quote "length") (.array items) (Json.ofNat items.length)
  /-- To the number of characters. -/
  | characters {quote : Quote} {text : String} :
    Leads (.member quote "length") (.string text) (Json.ofNat text.length)

/-- Where a path leads from a value. -/
inductive Reaches : Json → List Step → Json → Prop where
  /-- The path has no further step. -/
  | here {value : Json} : Reaches value [] value
  /-- A step, and the path from its target on. -/
  | further {value next target : Json} {step : Step} {path : List Step} :
    step.Leads value next → Reaches next path target → Reaches value (step :: path) target

/-- Whether some step of a path has no target. -/
def Blocked (value : Json) (path : List Step) : Prop :=
  ∃ front step back stop, path = front ++ step :: back ∧ Reaches value front stop ∧
    ∀ target, ¬step.Leads stop target

/-- A step in brackets. -/
def Step.text : Step → List Char
  | .member quote key => '[' :: (quote.around key.toList ++ [']'])
  | .item position _ => '[' :: (Nat.toDigits 10 position ++ [']'])

/-- The text of a path from a bag. -/
def text (bag : Bag) (path : List Step) : String :=
  String.ofList (bag.word.toList ++ path.flatMap Step.text)

/-- The value between the brackets of a step. -/
def Step.selector : Step → Json
  | .member _ key => .string key
  | .item position _ => Json.ofNat position

/-- The tokens of a step. -/
def Step.tokens (step : Step) : List Token :=
  [.openBracket, .literal step.selector, .closeBracket]

/-- An operand with a step behind it. -/
def Step.extend (base : Operand) (step : Step) : Operand := .index base (.literal step.selector)

/-- The operand of a path from a bag. -/
def operand (bag : Bag) (path : List Step) : Operand := path.foldl Step.extend (.bag bag)

/-- A natural number with at most 63 bits is the integer that it is. -/
theorem ofNat_eq {n : Nat} (h : n < 9223372036854775808) :
    ∃ fits, Number.ofNat n = .integer n fits := by
  have hmod : n % 18446744073709551616 = n := Nat.mod_eq_of_lt (by omega)
  refine ⟨⟨by omega, by omega⟩, ?_⟩
  simp only [Number.ofNat, hmod]

/-- A step is cut into its tokens. -/
theorem cuts_step (step : Step) (rest : List Char) :
    Lexeme.Cuts step.text step.tokens rest := by
  have hclose : Lexeme.Cuts [']'] [.closeBracket] rest := Lexeme.cuts_mark rfl (by decide) rest
  cases step with
  | member quote key =>
    have hkey := Lexeme.cuts_around quote key ([']'] ++ rest)
    exact (Lexeme.cuts_mark rfl (by decide) _).cons (hkey.append hclose)
  | item position fits =>
    obtain ⟨hfits, hnumber⟩ := ofNat_eq fits
    have hliteral : (Number.integer position hfits).IsLiteral :=
      ⟨Int.natCast_nonneg _, by omega, by omega⟩
    have hseparated : Token.Separated ([']'] ++ rest) := Operand.separated_mark (by decide) rest
    have hdigits := Lexeme.cuts_number hliteral hseparated
    have hnonneg : ¬(position : Int) < 0 := by omega
    have htext : (Number.integer position hfits).text = Nat.toDigits 10 position := by
      rw [Number.text]
      exact if_neg hnonneg
    rw [htext, ← hnumber] at hdigits
    exact (Lexeme.cuts_mark rfl (by decide) _).cons (hdigits.append hclose)

/-- The steps of a path are cut one after another. -/
theorem cuts_steps (path : List Step) (rest : List Char) :
    Lexeme.Cuts (path.flatMap Step.text) (path.flatMap Step.tokens) rest := by
  induction path with
  | nil => exact Lexeme.cuts_nil
  | cons step path ih => exact (cuts_step step _).append ih

/-- The steps of a path are accessors, of which each claims a level, and the last one a level for
what is in its brackets. -/
theorem exists_accessorTokens (path : List Step) (base : Operand) :
    ∃ n ≤ path.length + 1, Operand.AccessorTokens n (path.flatMap Step.tokens) base
      (path.foldl Step.extend base) := by
  induction path generalizing base with
  | nil => exact ⟨0, Nat.zero_le _, .done⟩
  | cons step path ih =>
    obtain ⟨n, hn, hothers⟩ := ih (step.extend base)
    have hliteral : Operand.FactorTokens 1 [.literal step.selector] (.literal step.selector) :=
      .postfixed .literal .done
    refine ⟨max 1 n + 1, ?_, .index hliteral.sum hothers⟩
    rw [List.length_cons]
    omega

/-- No comparison operator is among the tokens of a path. -/
theorem relation_notMem_tokens (relation : Relation) (path : List Step) :
    .relation relation ∉ path.flatMap Step.tokens := by
  intro hmem
  obtain ⟨step, -, htoken⟩ := List.mem_flatMap.mp hmem
  simp [Step.tokens] at htoken

/-- The text of a path of at most 62 steps is read as its operand. -/
theorem isSpelled_text (bag : Bag) {path : List Step} (hlength : path.length ≤ 62) :
    Operand.IsSpelled (text bag path) (operand bag path) := by
  have hbag : Lexeme.Cuts bag.word.toList [.name bag.word] (path.flatMap Step.text ++ []) := by
    refine Lexeme.cuts_name (Operand.isName_bag bag) ?_
    cases path with
    | nil => trivial
    | cons step path => cases step <;> exact Operand.separated_mark (by decide) _
  obtain ⟨lexemes, hscan, htokens⟩ := (hbag.append (cuts_steps path [])).scan
  obtain ⟨n, hn, haccessors⟩ := exists_accessorTokens path (.bag bag)
  have hword : Bag.ofWord? bag.word = some bag := by cases bag <;> rfl
  have hfactor : Operand.FactorTokens (max 0 n + 1) _ (operand bag path) :=
    .postfixed (.bag hword) haccessors
  refine Operand.isSpelled_iff.mpr ⟨lexemes, hscan, ?_, max 0 n + 1, ?_, ?_⟩
  · rw [htokens]
    intro relation hmem
    rcases List.mem_append.mp hmem with hname | hsteps
    · simp at hname
    · exact relation_notMem_tokens relation path hsteps
  · change max 0 n + 1 ≤ 64
    omega
  · rw [htokens]
    exact hfactor.sum

/-- The value behind the steps of a path, or the fault of the first step without a target. -/
def follow : Json → List Step → Except Fault Json
  | value, [] => .ok value
  | value, step :: path => (value.element step.selector).bind (fun next => follow next path)

/-- An operand with the steps of a path behind it has the value that the path leads to. -/
theorem outcome_foldl (registry : Registry) (attributes : Attributes) (path : List Step)
    (base : Operand) :
    ((path.foldl Step.extend base).evaluate registry attributes).outcome =
      (base.evaluate registry attributes).outcome.bind (fun value => follow value path) := by
  induction path generalizing base with
  | nil =>
    change (base.evaluate registry attributes).outcome = _
    cases (base.evaluate registry attributes).outcome <;> rfl
  | cons step path ih =>
    have hstep : ((step.extend base).evaluate registry attributes).outcome =
        (base.evaluate registry attributes).outcome.bind
          (fun value => value.element step.selector) := by
      rw [Step.extend, Operand.evaluate, Traced.outcome_andThen]
      rfl
    rw [List.foldl_cons, ih, hstep]
    cases (base.evaluate registry attributes).outcome <;> rfl

/-- A field has a value just where a key leads to one. -/
theorem field_eq_ok_iff {quote : Quote} {key : String} {value target : Json} :
    value.field key = .ok target ↔ (Step.member quote key).Leads value target := by
  constructor
  · intro h
    unfold Json.field at h
    split at h
    case h_1 members =>
      split at h
      case h_1 member hmember =>
        cases h
        exact .member hmember
      case h_2 => cases h
    case h_2 items =>
      split at h
      case isTrue hkey =>
        cases h
        exact hkey ▸ .count
      case isFalse => cases h
    case h_3 text =>
      split at h
      case isTrue hkey =>
        cases h
        exact hkey ▸ .characters
      case isFalse => cases h
    case h_4 => cases h
  · intro h
    cases h with
    | member hmember => simp only [Json.field, hmember]
    | count => rfl
    | characters => rfl

/-- A step has a target just where its selector has an element. -/
theorem element_eq_ok_iff {step : Step} {value target : Json} :
    value.element step.selector = .ok target ↔ step.Leads value target := by
  cases step with
  | member quote key =>
    rw [← field_eq_ok_iff, Step.selector, Json.element]
  | item position fits =>
    obtain ⟨hfits, hnumber⟩ := ofNat_eq fits
    have hunsigned : (Number.ofNat position).unsigned? = some position := by
      rw [hnumber, Number.unsigned?, if_pos (Int.natCast_nonneg _), Int.toNat_natCast]
    constructor
    · intro h
      cases value with
      | array items =>
        simp only [Step.selector, Json.ofNat, Json.element, hunsigned] at h
        split at h
        case h_1 item hitem =>
          cases h
          exact .item hitem
        case h_2 => cases h
      | _ => cases h
    · intro h
      cases h with
      | item hitem => simp only [Step.selector, Json.ofNat, Json.element, hunsigned, hitem]

/-- Following a path gives the value that it leads to. -/
theorem follow_eq_ok_iff {value target : Json} {path : List Step} :
    follow value path = .ok target ↔ Reaches value path target := by
  induction path generalizing value with
  | nil =>
    rw [follow]
    constructor
    · intro h
      cases h
      exact .here
    · intro h
      cases h
      rfl
  | cons step path ih =>
    constructor
    · intro h
      rw [follow] at h
      cases hnext : value.element step.selector with
      | error fault =>
        rw [hnext] at h
        cases h
      | ok next =>
        rw [hnext] at h
        exact .further (element_eq_ok_iff.mp hnext) (ih.mp h)
    · intro h
      cases h with
      | further hstep hothers =>
        rw [follow, element_eq_ok_iff.mpr hstep]
        exact ih.mpr hothers

/-- Following a path faults just where some step has no target. -/
theorem exists_follow_eq_error_iff {value : Json} {path : List Step} :
    (∃ fault, follow value path = .error fault) ↔ Blocked value path := by
  constructor
  · rintro ⟨fault, h⟩
    induction path generalizing value with
    | nil => cases h
    | cons step path ih =>
      rw [follow] at h
      cases hnext : value.element step.selector with
      | error cause =>
        refine ⟨[], step, path, value, rfl, .here, fun target hstep => ?_⟩
        rw [element_eq_ok_iff.mpr hstep] at hnext
        cases hnext
      | ok next =>
        rw [hnext] at h
        obtain ⟨front, other, back, stop, rfl, hfront, hother⟩ := ih h
        exact ⟨step :: front, other, back, stop, rfl,
          .further (element_eq_ok_iff.mp hnext) hfront, hother⟩
  · rintro ⟨front, step, back, stop, rfl, hfront, hstep⟩
    induction hfront with
    | here =>
      rw [List.nil_append, follow]
      cases hnext : Json.element _ step.selector with
      | error fault => exact ⟨fault, rfl⟩
      | ok next => exact absurd (element_eq_ok_iff.mp hnext) (hstep next)
    | further hfirst _ ih =>
      rw [List.cons_append, follow, element_eq_ok_iff.mpr hfirst]
      exact ih hstep

/-- For every bag and every path of at most 62 steps, the text of the path is read as an operand.
The operand has exactly the value that the path leads to, and faults just where some step has no
target. -/
theorem text_resolves (registry : Registry) (attributes : Attributes) (bag : Bag)
    {path : List Step} (hlength : path.length ≤ 62) :
    ∃ operand, Operand.IsSpelled (text bag path) operand ∧
      (∀ value, (operand.evaluate registry attributes).outcome = .ok value ↔
        Reaches (attributes.bag bag) path value) ∧
      ((∃ fault, (operand.evaluate registry attributes).outcome = .error fault) ↔
        Blocked (attributes.bag bag) path) := by
  have houtcome : ((operand bag path).evaluate registry attributes).outcome =
      follow (attributes.bag bag) path := outcome_foldl registry attributes path (.bag bag)
  refine ⟨operand bag path, isSpelled_text bag hlength, ?_, ?_⟩
  · intro value
    rw [houtcome]
    exact follow_eq_ok_iff
  · rw [houtcome]
    exact exists_follow_eq_error_iff

/-- A key with an apostrophe and a backslash, a position and the length of a text are such a
path. -/
theorem text_resolves_length :
    let attributes : Attributes :=
      { user := .object [("it's \\", .array [.null, .string "h\u00e9llo"])] }
    let path : List Step :=
      [.member .single "it's \\", .item 1 (by decide), .member .double "length"]
    text .user path = "user['it\\'s \\\\'][1][\"length\"]" ∧ path.length ≤ 62 ∧
      Reaches attributes.user path (Json.ofNat 5) ∧
      Operand.HasValue .empty attributes (text .user path) (Json.ofNat 5) := by
  intro attributes path
  have hlength : path.length ≤ 62 := by decide
  have hreaches : Reaches attributes.user path (Json.ofNat 5) :=
    .further (.member rfl) (.further (.item rfl) (.further .characters .here))
  obtain ⟨operand, hspelled, hvalue, -⟩ := text_resolves .empty attributes .user hlength
  exact ⟨by decide +kernel, hlength, hreaches, operand, hspelled, (hvalue _).mpr hreaches⟩

end AccessControl.Path
