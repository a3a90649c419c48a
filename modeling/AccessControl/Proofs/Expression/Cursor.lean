import AccessControl.Proofs.Expression.Refusals
import Mathlib.Data.List.DropRight

/-!
# Reading expressions at byte positions

An expression can be read with nothing but a position kept: the text is always looked at from the
position on, and the position moves on by the bytes of what was passed over. It never comes to be
inside a character, and what is read is the same as without positions. Only in what blanks it has
passed behind an item does a position differ from what a reader leaves.
-/

namespace AccessControl.Expression

/-- What reading at positions gives: nothing if the text would have to be cut inside a character,
otherwise an error, or a value with the position behind it. -/
abbrev Outcome (α : Type) := Option (Except ExpressionError (α × Nat))

/-- Goes on behind what was read, if there is no error. -/
def Outcome.andThen {α β : Type} (first : Outcome α) (next : α → Nat → Outcome β) : Outcome β :=
  match first with
  | none => none
  | some (.error cause) => some (.error cause)
  | some (.ok (value, position)) => next value position

section Positions

variable (text : List Char)

/-- The position behind the blanks at a position. -/
def skipAt (position : Nat) : Option Nat :=
  (Text.behind? text position).map
    (fun left => position + (Text.byteLength left - Text.byteLength (skipBlanks left)))

/-- Passes over a part if it stands at a position, and tells whether it does. -/
def takeAt (part : List Char) (position : Nat) : Option (Bool × Nat) :=
  (Text.behind? text position).map (fun left =>
    if part.isPrefixOf left then (true, position + Text.byteLength part) else (false, position))

/-- Passes over blanks and over a part behind them. -/
def skipTakeAt (part : List Char) (position : Nat) : Option (Bool × Nat) :=
  (skipAt text position).bind (takeAt text part)

/-- Refuses what stands at a position. -/
def refuseAt {α : Type} (position : Nat) : Outcome α :=
  (Text.behind? text position).map (fun left =>
    match left.head? with
    | none => .error .unexpectedEnd
    | some found => .error (.unexpectedCharacter found position))

/-- The bare name at a position, with the position behind it. -/
def nameAt (position : Nat) : Option (List Char × Nat) :=
  (Text.behind? text position).bind (fun left =>
    let length := Text.byteLength (left.takeWhile isBare)
    (Text.split? length left).map (fun (name, _) => (name, position + length)))

/-- The text at a position up to a quote, with the position behind the quote. -/
def quotedByAt (quote : Char) (position : Nat) : Outcome (List Char) :=
  (Text.behind? text position).bind (fun body =>
    if quote ∈ body then
      let length := Text.byteLength (body.takeWhile (fun c => c != quote))
      (Text.split? length body).map (fun (name, _) => .ok (name, position + length + 1))
    else some (.error .unexpectedEnd))

/-- The quoted name at a position. -/
def quotedAt (position : Nat) : Outcome (List Char) :=
  (skipAt text position).bind (fun position =>
    (Text.behind? text position).bind (fun left =>
      match left.head? with
      | some '"' => quotedByAt text '"' (position + 1)
      | some '\'' => quotedByAt text '\'' (position + 1)
      | _ => refuseAt text position))

/-- The name in a reference at a position behind `data`. -/
def selectorAt (position : Nat) : Outcome (List Char) :=
  (takeAt text ['.'] position).bind (fun (point, position) =>
    if point then
      (nameAt text position).bind (fun (name, position) =>
        if name.isEmpty then refuseAt text position else some (.ok (name, position)))
    else
      (takeAt text ['['] position).bind (fun (bracket, position) =>
        if bracket then
          (quotedAt text position).andThen (fun name position =>
            (skipTakeAt text [']'] position).bind (fun (closed, position) =>
              if closed then some (.ok (name, position)) else refuseAt text position))
        else refuseAt text position))

/-- The reference at a position. -/
def referenceAt (position : Nat) : Outcome Atom :=
  (takeAt text ['d', 'a', 't', 'a'] position).bind (fun (data, position) =>
    if data then
      (selectorAt text position).andThen
        (fun name position => some (.ok (.reference (String.ofList name), position)))
    else refuseAt text position)

/-- The items at a position with a connective between them, at most as many as the fuel says. -/
def chainWithinAt {α : Type} (connective : Connective) (item : Nat → Outcome α) :
    (fuel position : Nat) → Outcome (List α)
  | 0, position => refuseAt text position
  | fuel + 1, position =>
    (item position).andThen (fun first position =>
      (skipTakeAt text connective.spelling position).bind (fun (more, position) =>
        if more then
          (chainWithinAt connective item fuel position).andThen
            (fun others position => some (.ok (first :: others, position)))
        else some (.ok ([first], position))))

/-- The items at a position with a connective between them. -/
def chainAt {α : Type} (connective : Connective) (item : Nat → Outcome α) (position : Nat) :
    Outcome (List α) :=
  (Text.behind? text position).bind (fun left =>
    chainWithinAt text connective item (left.length + 1) position)

/-- The clauses at a position. -/
def clausesOfAt (atom : Nat → Outcome Atom) : Nat → Outcome Disjunction :=
  chainAt text .or (chainAt text .and atom)

/-- The atom at a position, where the clauses behind a parenthesis are read by `group`. -/
def atomOfAt (group : Nat → Outcome Disjunction) (position : Nat) : Outcome Atom :=
  (skipAt text position).bind (fun start =>
    (skipTakeAt text ['('] start).bind (fun (opened, position) =>
      if opened then
        (group position).andThen (fun clauses position =>
          (skipTakeAt text [')'] position).bind (fun (closed, position) =>
            if closed then some (.ok (.group clauses, position))
            else some (.error (.unbalanced start))))
      else referenceAt text position))

/-- The atom at a position, in which groups can nest as deep as the budget says. -/
def atomAt : (budget : Nat) → Nat → Outcome Atom
  | 0 => atomOfAt text (fun _ => some (.error (.tooDeep groupLimit)))
  | budget + 1 => atomOfAt text (clausesOfAt text (atomAt budget))

/-- The tree that a text spells, read at positions. -/
def treeAt : Option (Except ExpressionError Disjunction) :=
  (skipAt text 0).bind (fun position =>
    if position = Text.byteLength text then some (.error .empty)
    else
      ((clausesOfAt text (atomAt text groupLimit) position).andThen (fun tree position =>
        (skipAt text position).bind (fun position =>
          (Text.behind? text position).map (fun left =>
            match left.head? with
            | none => .ok (tree, position)
            | some ')' => .error (.unbalanced position)
            | some found => .error (.unexpectedCharacter found position))))).map
        (Except.map Prod.fst))

end Positions

section Steps

variable {text left : List Char}

/-- An end of a text is what stands from its offset on. -/
theorem behind?_offset (h : left <:+ text) : Text.behind? text (offset text left) = some left := by
  obtain ⟨before, rfl⟩ := h
  rw [offset_append, Text.behind?_append]

/-- The offset moves on by the bytes of what is passed over. -/
theorem offset_add {part : List Char} (h : part ++ left <:+ text) :
    offset text (part ++ left) + Text.byteLength part = offset text left := by
  obtain ⟨before, rfl⟩ := h
  rw [offset_append, ← List.append_assoc, offset_append, Text.byteLength_append]

/-- Blanks are passed over to what is left without them. -/
theorem skipAt_offset (h : left <:+ text) :
    skipAt text (offset text left) = some (offset text (skipBlanks left)) := by
  obtain ⟨blanks, -, hleft⟩ := exists_blanks left
  rw [skipAt, behind?_offset h, Option.map_some]
  generalize skipBlanks left = rest at hleft ⊢
  subst hleft
  rw [Text.byteLength_append, Nat.add_sub_cancel, offset_add h]

/-- A part is passed over where it stands. -/
theorem takeAt_append {part rest : List Char} (h : part ++ rest <:+ text) :
    takeAt text part (offset text (part ++ rest)) = some (true, offset text rest) := by
  have hlead : part.isPrefixOf (part ++ rest) = true :=
    List.isPrefixOf_iff_prefix.mpr (List.prefix_append part rest)
  rw [takeAt, behind?_offset h, Option.map_some, if_pos hlead, offset_add h]

/-- A part is not passed over where something else stands. -/
theorem takeAt_of_other {part : List Char} (h : left <:+ text) (hpart : ¬part <+: left) :
    takeAt text part (offset text left) = some (false, offset text left) := by
  have hlead : ¬part.isPrefixOf left = true :=
    fun hlead => hpart (List.isPrefixOf_iff_prefix.mp hlead)
  rw [takeAt, behind?_offset h, Option.map_some, if_neg hlead]

/-- A part is passed over with the blanks before it. -/
theorem skipTakeAt_append {part rest : List Char} (h : left <:+ text)
    (hleft : skipBlanks left = part ++ rest) :
    skipTakeAt text part (offset text left) = some (true, offset text rest) := by
  have hskip : part ++ rest <:+ text := hleft ▸ (skipBlanks_suffix left).trans h
  rw [skipTakeAt, skipAt_offset h, Option.bind_some, hleft, takeAt_append hskip]

/-- Only the blanks are passed over where something else stands behind them. -/
theorem skipTakeAt_of_other {part : List Char} (h : left <:+ text)
    (hpart : ¬part <+: skipBlanks left) :
    skipTakeAt text part (offset text left) = some (false, offset text (skipBlanks left)) := by
  rw [skipTakeAt, skipAt_offset h, Option.bind_some,
    takeAt_of_other ((skipBlanks_suffix left).trans h) hpart]

/-- What stands at a position is refused as at the place of a stop. -/
theorem refuseAt_offset {α : Type} (h : left <:+ text) :
    (refuseAt text (offset text left) : Outcome α) =
      some (.error ((Stop.unexpected left).error text)) := by
  rw [refuseAt, behind?_offset h, Option.map_some]
  cases left <;> rfl

end Steps

/-- What a reader gives, with the offset of what it leaves. -/
def located {α : Type} (text : List Char) :
    Except Stop (α × List Char) → Except ExpressionError (α × Nat)
  | .error stop => .error (stop.error text)
  | .ok (value, rest) => .ok (value, offset text rest)

section Names

variable {text left : List Char}

/-- A bare name is read at positions up to the first other character. -/
theorem nameAt_offset (h : left <:+ text) :
    nameAt text (offset text left) =
      some (left.takeWhile isBare, offset text (left.dropWhile isBare)) := by
  have hsplit : left = left.takeWhile isBare ++ left.dropWhile isBare :=
    List.takeWhile_append_dropWhile.symm
  rw [nameAt, behind?_offset h, Option.bind_some]
  dsimp only
  generalize left.takeWhile isBare = name, left.dropWhile isBare = rest at hsplit ⊢
  subst hsplit
  rw [Text.split?_append, Option.map_some, offset_add h]

/-- Without a further quote a text does not end. -/
theorem quotedBy_of_notMem {quote : Char} (hquote : quote ∉ left) :
    quotedBy quote left = .error (.unexpected []) := by
  induction left with
  | nil => rfl
  | cons c rest ih =>
    have hc : c ≠ quote := (List.ne_of_not_mem_cons hquote).symm
    rw [quotedBy, if_neg hc, ih (List.not_mem_of_not_mem_cons hquote)]

/-- A character of ASCII is passed over by one byte. -/
theorem offset_add_one {c : Char} {rest : List Char} (hascii : Text.IsAscii c)
    (h : c :: rest <:+ text) : offset text (c :: rest) + 1 = offset text rest := by
  have hadd : offset text ([c] ++ rest) + Text.byteLength [c] = offset text rest := offset_add h
  rwa [Text.byteLength_of_isAscii (List.forall_mem_singleton.mpr hascii)] at hadd

/-- Up to a quote, a text is read at positions as without. -/
theorem quotedByAt_offset {quote : Char} (hascii : Text.IsAscii quote) (h : left <:+ text) :
    quotedByAt text quote (offset text left) = some (located text (quotedBy quote left)) := by
  rw [quotedByAt, behind?_offset h, Option.bind_some]
  by_cases hmem : quote ∈ left
  · obtain ⟨name, rest, rfl, hname⟩ := List.eq_append_cons_of_mem hmem
    have hkept : ∀ c ∈ name, (c != quote) = true :=
      fun c hc => bne_iff_ne.mpr (fun heq => hname (heq ▸ hc))
    have htake : (name ++ quote :: rest).takeWhile (fun c => c != quote) = name := by
      rw [List.takeWhile_append_of_pos hkept, List.takeWhile_cons, bne_self_eq_false]
      exact List.append_nil name
    have hquote : quote :: rest <:+ text := (List.suffix_append name _).trans h
    rw [if_pos hmem]
    dsimp only
    rw [htake, Text.split?_append, Option.map_some, quotedBy_append hname, offset_add h,
      offset_add_one hascii hquote]
    rfl
  · rw [if_neg hmem, quotedBy_of_notMem hmem]
    rfl

/-- Behind an opening quote, a text is read at positions as without. -/
theorem quotedByAt_behind {quote : Char} {rest : List Char} (hascii : Text.IsAscii quote)
    (h : quote :: rest <:+ text) :
    quotedByAt text quote (offset text (quote :: rest) + 1) =
      some (located text (quotedBy quote rest)) := by
  rw [offset_add_one hascii h]
  exact quotedByAt_offset hascii ((List.suffix_cons quote rest).trans h)

/-- A quoted name is read at positions as without. -/
theorem quotedAt_offset (h : left <:+ text) :
    quotedAt text (offset text left) = some (located text (quoted left)) := by
  have hskip := (skipBlanks_suffix left).trans h
  rw [quotedAt, skipAt_offset h, Option.bind_some, behind?_offset hskip, Option.bind_some, quoted]
  split
  case h_1 hhead =>
    obtain ⟨rest, hrest⟩ := List.head?_eq_some_iff.mp hhead
    rw [hrest] at hskip ⊢
    exact quotedByAt_behind (by decide) hskip
  case h_2 hhead =>
    obtain ⟨rest, hrest⟩ := List.head?_eq_some_iff.mp hhead
    rw [hrest] at hskip ⊢
    exact quotedByAt_behind (by decide) hskip
  case h_3 hdouble hsingle =>
    split
    case h_1 rest hrest => exact absurd (congrArg List.head? hrest) hdouble
    case h_2 rest hrest => exact absurd (congrArg List.head? hrest) hsingle
    case h_3 => exact refuseAt_offset hskip

/-- A bare name in a reference is read at positions as without. -/
theorem selectorAt_point {rest : List Char} (h : '.' :: rest <:+ text) :
    selectorAt text (offset text ('.' :: rest)) = some (located text (selector ('.' :: rest))) := by
  have hrest : rest <:+ text := (List.suffix_cons '.' rest).trans h
  have htake : takeAt text ['.'] (offset text ('.' :: rest)) = some (true, offset text rest) :=
    @takeAt_append text ['.'] rest h
  rw [selectorAt, htake, Option.bind_some]
  dsimp only
  rw [if_pos rfl, nameAt_offset hrest, Option.bind_some, selector]
  cases hname : rest.takeWhile isBare with
  | nil =>
    have happend : rest.takeWhile isBare ++ rest.dropWhile isBare = rest :=
      List.takeWhile_append_dropWhile
    rw [hname, List.nil_append] at happend
    rw [happend]
    exact refuseAt_offset hrest
  | cons c name => rfl

/-- A name in brackets is read at positions as without. -/
theorem selectorAt_bracket {rest : List Char} (h : '[' :: rest <:+ text) :
    selectorAt text (offset text ('[' :: rest)) = some (located text (selector ('[' :: rest))) := by
  have hrest : rest <:+ text := (List.suffix_cons '[' rest).trans h
  have hpoint : takeAt text ['.'] (offset text ('[' :: rest)) =
      some (false, offset text ('[' :: rest)) :=
    takeAt_of_other h (by simp)
  have htake : takeAt text ['['] (offset text ('[' :: rest)) = some (true, offset text rest) :=
    @takeAt_append text ['['] rest h
  rw [selectorAt, hpoint, Option.bind_some]
  dsimp only
  rw [if_neg Bool.false_ne_true, htake, Option.bind_some]
  dsimp only
  rw [if_pos rfl, quotedAt_offset hrest]
  cases hread : quoted rest with
  | error stop =>
    rw [selector, hread]
    rfl
  | ok read =>
    obtain ⟨name, left⟩ := read
    have hleft : left <:+ text := (quoted_sound.trims _ _ _ hread).trans hrest
    dsimp only [located, Outcome.andThen]
    by_cases hclose : [']'] <+: skipBlanks left
    · obtain ⟨behind, hbehind⟩ := hclose
      have hskip : skipBlanks left = ']' :: behind := hbehind.symm
      simp only [skipTakeAt_append hleft hbehind.symm, selector, hread, hskip, Option.bind_some,
        if_true]
    · have hselector : selector ('[' :: rest) = .error (.unexpected (skipBlanks left)) := by
        rw [selector, hread]
        dsimp only
        split
        case h_1 behind hbehind => exact absurd ⟨behind, hbehind.symm⟩ hclose
        case h_2 => rfl
      rw [skipTakeAt_of_other hleft hclose, hselector]
      exact refuseAt_offset ((skipBlanks_suffix left).trans hleft)

/-- The name behind `data` is read at positions as without. -/
theorem selectorAt_offset (h : left <:+ text) :
    selectorAt text (offset text left) = some (located text (selector left)) := by
  by_cases hpoint : ['.'] <+: left
  · obtain ⟨rest, rfl⟩ := hpoint
    exact selectorAt_point h
  by_cases hbracket : ['['] <+: left
  · obtain ⟨rest, rfl⟩ := hbracket
    exact selectorAt_bracket h
  have hselector : selector left = .error (.unexpected left) := by
    unfold selector
    split
    case h_1 rest => exact absurd (List.prefix_append ['.'] rest) hpoint
    case h_2 rest => exact absurd (List.prefix_append ['['] rest) hbracket
    case h_3 => rfl
  rw [selectorAt, takeAt_of_other h hpoint, Option.bind_some]
  dsimp only
  rw [if_neg Bool.false_ne_true, takeAt_of_other h hbracket, Option.bind_some]
  dsimp only
  rw [if_neg Bool.false_ne_true, refuseAt_offset h, hselector]
  rfl

/-- A reference is read at positions as without. -/
theorem referenceAt_offset (h : left <:+ text) :
    referenceAt text (offset text left) = some (located text (reference left)) := by
  by_cases hdata : ['d', 'a', 't', 'a'] <+: left
  · obtain ⟨rest, rfl⟩ := hdata
    have hrest : rest <:+ text := (List.suffix_append ['d', 'a', 't', 'a'] rest).trans h
    rw [referenceAt, takeAt_append h, Option.bind_some]
    dsimp only
    rw [if_pos rfl, selectorAt_offset hrest]
    change _ = some (located text (reference ('d' :: 'a' :: 't' :: 'a' :: rest)))
    rw [reference]
    cases selector rest <;> rfl
  · have hreference : reference left = .error (.unexpected left) := by
      unfold reference
      split
      case h_1 rest => exact absurd (List.prefix_append ['d', 'a', 't', 'a'] rest) hdata
      case h_2 => rfl
    rw [referenceAt, takeAt_of_other h hdata, Option.bind_some]
    dsimp only
    rw [if_neg Bool.false_ne_true, refuseAt_offset h, hreference]
    rfl

end Names

/-- Whether two readers give the same: the same stop, or the same value with the same text left, up
to blanks that only one of them has passed over. -/
inductive Matches {α : Type} (text : List Char) :
    Except Stop (α × List Char) → Except Stop (α × List Char) → Prop where
  /-- The same stop. -/
  | error {stop : Stop} : Matches text (.error stop) (.error stop)
  /-- The same value. -/
  | ok {value : α} {further rest : List Char} : further <:+ text →
    skipBlanks further = skipBlanks rest → Matches text (.ok (value, further)) (.ok (value, rest))

/-- A reading at positions does as a reader does, up to blanks behind what is read. -/
def Tracks {α : Type} (text : List Char) (cursor : Nat → Outcome α) (read : Reader α) : Prop :=
  ∀ left, left <:+ text → ∃ given, cursor (offset text left) = some (located text given) ∧
    Matches text given (read left)

/-- What a reader gives is the same as itself, where it leaves an end of the text. -/
theorem Matches.refl {α : Type} {text : List Char} (given : Except Stop (α × List Char))
    (h : ∀ value rest, given = .ok (value, rest) → rest <:+ text) : Matches text given given := by
  cases given with
  | error stop => exact .error
  | ok read => exact .ok (h _ _ rfl) rfl

section Chains

variable {text : List Char} {α : Type} {connective : Connective} {cursor : Nat → Outcome α}
  {item : Reader α}

/-- Behind an item without a connective, a chain ends behind the blanks. -/
theorem chainWithinAt_last {left further : List Char} {first : α} {fuel : Nat}
    (hfurther : further <:+ text)
    (hfirst : cursor (offset text left) = some (.ok (first, offset text further)))
    (hend : ¬connective.spelling <+: skipBlanks further) :
    chainWithinAt text connective cursor (fuel + 1) (offset text left) =
      some (.ok ([first], offset text (skipBlanks further))) := by
  rw [chainWithinAt, hfirst]
  dsimp only [Outcome.andThen]
  rw [skipTakeAt_of_other hfurther hend]
  rfl

/-- Behind an item with a connective, a chain goes on behind the connective. -/
theorem chainWithinAt_more {left further behind : List Char} {first : α} {fuel : Nat}
    (hfurther : further <:+ text)
    (hfirst : cursor (offset text left) = some (.ok (first, offset text further)))
    (hmore : skipBlanks further = connective.spelling ++ behind) :
    chainWithinAt text connective cursor (fuel + 1) (offset text left) =
      (chainWithinAt text connective cursor fuel (offset text behind)).andThen
        (fun others position => some (.ok (first :: others, position))) := by
  rw [chainWithinAt, hfirst]
  dsimp only [Outcome.andThen]
  rw [skipTakeAt_append hfurther hmore]
  rfl

/-- A chain is read at positions as without, if its items are. -/
theorem Tracks.chainWithin (h : Tracks text cursor item) (fuel : Nat) :
    Tracks text (chainWithinAt text connective cursor fuel)
      (Expression.chainWithin connective item fuel) := by
  induction fuel with
  | zero => exact fun left hleft => ⟨.error (.unexpected left), refuseAt_offset hleft, .error⟩
  | succ fuel ih =>
    intro left hleft
    obtain ⟨given, hfirst, hmatches⟩ := h left hleft
    rw [Expression.chainWithin]
    cases hitem : item left with
    | error stop =>
      rw [hitem] at hmatches
      cases hmatches
      refine ⟨.error stop, ?_, .error⟩
      rw [chainWithinAt, hfirst]
      rfl
    | ok read =>
      obtain ⟨first, rest⟩ := read
      rw [hitem] at hmatches
      obtain _ | @⟨_, further, _, hfurther, hskip⟩ := hmatches
      dsimp only
      cases hlead : connective.spelling.isPrefixOf? (skipBlanks rest) with
      | none =>
        have hend : ¬connective.spelling <+: skipBlanks further := by
          rintro ⟨behind, hbehind⟩
          rw [hskip] at hbehind
          rw [List.isPrefixOf?_eq_some_iff_append_eq.mpr hbehind] at hlead
          cases hlead
        have hsettled : skipBlanks (skipBlanks further) = skipBlanks rest := by
          rw [hskip]
          exact List.dropWhile_idempotent _ _
        exact ⟨.ok ([first], skipBlanks further), chainWithinAt_last hfurther hfirst hend,
          .ok ((skipBlanks_suffix further).trans hfurther) hsettled⟩
      | some behind =>
        have hmore : skipBlanks further = connective.spelling ++ behind := by
          rw [hskip, List.isPrefixOf?_eq_some_iff_append_eq.mp hlead]
        have hbehind : behind <:+ text := (List.suffix_append _ behind).trans
          (hmore ▸ (skipBlanks_suffix further).trans hfurther)
        obtain ⟨given, hothers, hmatches⟩ := ih behind hbehind
        dsimp only
        cases hread : Expression.chainWithin connective item fuel behind with
        | error stop =>
          rw [hread] at hmatches
          cases hmatches
          refine ⟨.error stop, ?_, .error⟩
          rw [chainWithinAt_more hfurther hfirst hmore, hothers]
          rfl
        | ok read =>
          obtain ⟨others, tail⟩ := read
          rw [hread] at hmatches
          obtain _ | @⟨_, last, _, hlast, hskip'⟩ := hmatches
          refine ⟨.ok (first :: others, last), ?_, .ok hlast hskip'⟩
          rw [chainWithinAt_more hfurther hfirst hmore, hothers]
          rfl

/-- A chain is read at positions as without, whatever its length. -/
theorem Tracks.chain (h : Tracks text cursor item) :
    Tracks text (chainAt text connective cursor) (Expression.chain connective item) := by
  intro left hleft
  rw [chainAt, behind?_offset hleft, Option.bind_some]
  exact h.chainWithin (left.length + 1) left hleft

end Chains

/-- The clauses of an expression are read at positions as without, if atoms are. -/
theorem Tracks.clausesOf {text : List Char} {cursor : Nat → Outcome Atom} {read : Reader Atom}
    (h : Tracks text cursor read) :
    Tracks text (clausesOfAt text cursor) (Expression.clausesOf read) :=
  h.chain.chain

section Atoms

variable {text left : List Char}

/-- Without a parenthesis, an atom is read as a reference at positions as without. -/
theorem atomOfAt_reference {group : Nat → Outcome Disjunction} (h : left <:+ text)
    (hopen : ¬['('] <+: skipBlanks left) :
    atomOfAt text group (offset text left) =
      some (located text (reference (skipBlanks left))) := by
  have hskip := (skipBlanks_suffix left).trans h
  have hidem : skipBlanks (skipBlanks left) = skipBlanks left := List.dropWhile_idempotent _ _
  rw [← hidem] at hopen
  rw [atomOfAt, skipAt_offset h, Option.bind_some, skipTakeAt_of_other hskip hopen,
    Option.bind_some, hidem]
  dsimp only
  rw [if_neg Bool.false_ne_true, referenceAt_offset hskip]

/-- Behind a parenthesis, an atom is read at positions as a group. -/
theorem atomOfAt_group {group : Nat → Outcome Disjunction} {inside : List Char} (h : left <:+ text)
    (hopen : skipBlanks left = '(' :: inside) :
    atomOfAt text group (offset text left) =
      (group (offset text inside)).andThen (fun clauses position =>
        (skipTakeAt text [')'] position).bind (fun (closed, position) =>
          if closed then some (.ok (.group clauses, position))
          else some (.error (.unbalanced (offset text ('(' :: inside)))))) := by
  have hskip := (skipBlanks_suffix left).trans h
  have hidem : skipBlanks (skipBlanks left) = ['('] ++ inside := by
    rw [List.singleton_append, ← hopen]
    exact List.dropWhile_idempotent _ _
  rw [atomOfAt, skipAt_offset h, Option.bind_some, skipTakeAt_append hskip hidem, Option.bind_some,
    hopen]
  rfl

/-- Without a parenthesis, an atom is read as a reference. -/
theorem atom_of_not_open (budget : Nat) (hopen : ¬['('] <+: skipBlanks left) :
    atom budget left = reference (skipBlanks left) := by
  have hother : ∀ inside, skipBlanks left ≠ '(' :: inside :=
    fun inside hinside => hopen ⟨inside, hinside.symm⟩
  cases budget with
  | zero =>
    unfold atom
    split
    case h_1 inside hinside => exact absurd hinside (hother inside)
    case h_2 => rfl
  | succ budget =>
    unfold atom
    split
    case h_1 inside hinside => exact absurd hinside (hother inside)
    case h_2 => rfl

/-- Behind a parenthesis, an atom is read as a group. -/
theorem atom_of_open (budget : Nat) {inside : List Char} (hopen : skipBlanks left = '(' :: inside) :
    atom (budget + 1) left =
      (clausesOf (atom budget) inside).bind (fun (clauses, behind) =>
        match skipBlanks behind with
        | ')' :: rest => .ok (.group clauses, rest)
        | _ => .error (.unbalanced ('(' :: inside))) := by
  rw [atom]
  dsimp only
  split
  case h_1 rest hrest =>
    obtain rfl : inside = rest := (List.cons.inj (hopen.symm.trans hrest)).2
    cases clausesOf (atom budget) inside <;> rfl
  case h_2 hother => exact absurd hopen (hother inside)

/-- An atom without a parenthesis is read at positions as without. -/
theorem exists_matches_reference {group : Nat → Outcome Disjunction} (budget : Nat)
    (h : left <:+ text) (hopen : ¬['('] <+: skipBlanks left) :
    ∃ given, atomOfAt text group (offset text left) = some (located text given) ∧
      Matches text given (atom budget left) := by
  have hskip := (skipBlanks_suffix left).trans h
  rw [atom_of_not_open budget hopen]
  refine ⟨_, atomOfAt_reference h hopen, .refl _ (fun found rest hread => ?_)⟩
  exact (reference_sound.trims _ _ _ hread).trans hskip

/-- An atom is read at positions as without, whatever the budget. -/
theorem atomAt_tracks (budget : Nat) : Tracks text (atomAt text budget) (atom budget) := by
  induction budget with
  | zero =>
    intro left hleft
    by_cases hopen : ['('] <+: skipBlanks left
    · obtain ⟨inside, hinside⟩ := hopen
      have hskip : skipBlanks left = '(' :: inside := hinside.symm
      refine ⟨.error .tooDeep, ?_, ?_⟩
      · rw [atomAt, atomOfAt_group hleft hskip]
        rfl
      · rw [atom]
        dsimp only
        rw [hskip]
        exact .error
    · exact exists_matches_reference 0 hleft hopen
  | succ budget ih =>
    intro left hleft
    by_cases hopen : ['('] <+: skipBlanks left
    · obtain ⟨inside, hinside⟩ := hopen
      have hskip : skipBlanks left = '(' :: inside := hinside.symm
      have hwhole : '(' :: inside <:+ text := hskip ▸ (skipBlanks_suffix left).trans hleft
      have hinner : inside <:+ text := (List.suffix_cons '(' inside).trans hwhole
      obtain ⟨given, hgroup, hmatches⟩ := ih.clausesOf inside hinner
      rw [atomAt, atomOfAt_group hleft hskip, hgroup, atom_of_open budget hskip]
      cases hread : clausesOf (atom budget) inside with
      | error stop =>
        rw [hread] at hmatches
        cases hmatches
        exact ⟨.error stop, rfl, .error⟩
      | ok read =>
        obtain ⟨clauses, behind⟩ := read
        rw [hread] at hmatches
        obtain _ | @⟨_, further, _, hfurther, hblanks⟩ := hmatches
        dsimp only [located, Outcome.andThen, Except.bind]
        by_cases hclose : [')'] <+: skipBlanks behind
        · obtain ⟨rest, hrest⟩ := hclose
          have hbehind : skipBlanks behind = ')' :: rest := hrest.symm
          have hclosed : skipBlanks further = [')'] ++ rest := hblanks.trans hbehind
          have hsuffix : rest <:+ text := (List.suffix_append [')'] rest).trans
            (hclosed ▸ (skipBlanks_suffix further).trans hfurther)
          rw [skipTakeAt_append hfurther hclosed, hbehind]
          exact ⟨.ok (.group clauses, rest), rfl, .ok hsuffix rfl⟩
        · have hother : ¬[')'] <+: skipBlanks further := hblanks ▸ hclose
          rw [skipTakeAt_of_other hfurther hother]
          refine ⟨.error (.unbalanced ('(' :: inside)), rfl, ?_⟩
          split
          case h_1 rest hrest => exact absurd ⟨rest, hrest.symm⟩ hclose
          case h_2 => exact .error
    · exact exists_matches_reference (budget + 1) hleft hopen

end Atoms

section Fuel

variable {α : Type} {connective : Connective} {item : Reader α}

/-- More fuel than there are characters changes nothing. -/
theorem chainWithin_congr (htrims : Trims item) {fuel other : Nat} {left : List Char}
    (hfuel : left.length < fuel) (hother : left.length < other) :
    chainWithin connective item fuel left = chainWithin connective item other left := by
  induction fuel generalizing other left with
  | zero => exact absurd hfuel (Nat.not_lt_zero _)
  | succ fuel ih =>
    obtain ⟨other, rfl⟩ := Nat.exists_eq_add_one_of_ne_zero (Nat.ne_zero_of_lt hother)
    rw [chainWithin, chainWithin]
    cases hitem : item left with
    | error stop => rfl
    | ok read =>
      obtain ⟨first, rest⟩ := read
      dsimp only
      cases hlead : connective.spelling.isPrefixOf? (skipBlanks rest) with
      | none => rfl
      | some behind =>
        have hsplit := List.isPrefixOf?_eq_some_iff_append_eq.mp hlead
        have hrest : (skipBlanks rest).length ≤ left.length :=
          ((skipBlanks_suffix rest).trans (htrims _ _ _ hitem)).length_le
        have hspelling : 0 < connective.spelling.length := by cases connective <;> decide
        have hbehind : behind.length < left.length := by
          rw [← hsplit, List.length_append] at hrest
          omega
        dsimp only
        rw [ih (Nat.lt_of_lt_of_le hbehind (Nat.le_of_lt_succ hfuel))
          (Nat.lt_of_lt_of_le hbehind (Nat.le_of_lt_succ hother))]

/-- Blanks before a chain make no difference if none before an item does. -/
theorem chain_skipBlanks (htrims : Trims item) (h : ∀ left, item (skipBlanks left) = item left)
    (left : List Char) :
    chain connective item (skipBlanks left) = chain connective item left := by
  have hlength : (skipBlanks left).length < left.length + 1 :=
    Nat.lt_succ_of_le (skipBlanks_suffix left).length_le
  have hfuel : chain connective item (skipBlanks left) =
      chainWithin connective item (left.length + 1) (skipBlanks left) :=
    chainWithin_congr htrims (Nat.lt_succ_self _) hlength
  rw [hfuel, chain, chainWithin, chainWithin, h]

end Fuel

/-- Blanks before an atom make no difference. -/
theorem atom_skipBlanks (budget : Nat) (left : List Char) :
    atom budget (skipBlanks left) = atom budget left := by
  have hidem : skipBlanks (skipBlanks left) = skipBlanks left := List.dropWhile_idempotent _ _
  cases budget <;> simp only [atom, hidem]

/-- Blanks before the clauses of an expression make no difference. -/
theorem clausesOf_skipBlanks (budget : Nat) (left : List Char) :
    clausesOf (atom budget) (skipBlanks left) = clausesOf (atom budget) left :=
  chain_skipBlanks (chain_sound (atom_sound budget)).trims
    (chain_skipBlanks (atom_sound budget).trims (atom_skipBlanks budget)) left

/-- Only what is empty stands at the end of a text. -/
theorem offset_eq_byteLength_iff {text left : List Char} (h : left <:+ text) :
    offset text left = Text.byteLength text ↔ left = [] := by
  obtain ⟨before, rfl⟩ := h
  rw [offset_append, Text.byteLength_append]
  constructor
  · intro hlength
    cases left with
    | nil => rfl
    | cons c rest =>
      have hsize := c.utf8Size_pos
      rw [Text.byteLength_cons] at hlength
      omega
  · rintro rfl
    rfl

/-- The tree that a text spells, or the error, is read at positions as without: no position at which
the text is cut is inside a character. -/
theorem treeAt_eq_treeOf (text : List Char) : treeAt text = some (treeOf text) := by
  have hstart : offset text text = 0 := Nat.sub_self _
  have hwhole : text <:+ text := List.suffix_rfl
  have hskip := skipBlanks_suffix text
  have hfirst := skipAt_offset hwhole
  rw [hstart] at hfirst
  rw [treeAt, hfirst, Option.bind_some, treeOf]
  by_cases hempty : skipBlanks text = []
  · rw [if_pos ((offset_eq_byteLength_iff hskip).mpr hempty), hempty]
    rfl
  · have hnotEmpty : ¬(skipBlanks text).isEmpty = true := by rwa [List.isEmpty_iff]
    rw [if_neg (mt (offset_eq_byteLength_iff hskip).mp hempty), if_neg hnotEmpty]
    obtain ⟨given, hclauses, hmatches⟩ := (atomAt_tracks groupLimit).clausesOf _ hskip
    rw [clausesOf_skipBlanks] at hmatches
    rw [hclauses, clauses]
    cases hread : clausesOf (atom groupLimit) text with
    | error stop =>
      rw [hread] at hmatches
      cases hmatches
      rfl
    | ok read =>
      obtain ⟨tree, rest⟩ := read
      rw [hread] at hmatches
      obtain _ | @⟨_, further, _, hfurther, hblanks⟩ := hmatches
      have hend : skipBlanks rest <:+ text := hblanks ▸ (skipBlanks_suffix further).trans hfurther
      dsimp only [located, Outcome.andThen]
      rw [skipAt_offset hfurther, hblanks, Option.bind_some, behind?_offset hend]
      split
      case h_1 hrest =>
        rw [hrest]
        rfl
      case h_2 behind hrest =>
        rw [hrest]
        rfl
      case h_3 hsome hother =>
        obtain ⟨found, behind, hrest⟩ := List.exists_cons_of_ne_nil hsome
        have hfound : found ≠ ')' := by
          rintro rfl
          exact hother behind hrest
        rw [hrest, Option.map_some, List.head?_cons]
        split
        case h_1 hnone => cases hnone
        case h_2 hclose => exact absurd (Option.some.inj hclose) hfound
        case h_3 other hsome =>
          obtain rfl := Option.some.inj hsome
          rfl

end AccessControl.Expression
