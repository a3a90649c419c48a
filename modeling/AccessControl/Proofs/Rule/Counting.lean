import AccessControl.Proofs.Rule.Acceptance

/-!
# Counting levels

The readers of operands are given the levels that are left. The same readers can keep a count
instead: a position in the tokens and the number of levels claimed, which goes up before a part is
read and is put back when the part is complete. Only the test before a level is claimed limits them.
Each of them is told how deep calls may be nested in it, and has no outcome where that is too few;
a chain or a list that goes on counts as a call too.

From some number of calls on, which is linear in the number of tokens, reading with a count gives
what the readers give for the levels that are left. Every part that is read leaves the number of
levels as it was and takes off at least one token, and at no time are there more levels claimed than
the limit allows. A factor has begun before it claims its level, so there may be one more factor
begun than there are levels: that one is refused its level and ends.
-/

namespace AccessControl.Operand

/-- Where reading with a count is. -/
structure Count where
  /-- The number of tokens passed over. -/
  position : Nat
  /-- The number of levels claimed. -/
  depth : Nat
  /-- The number of factors that have begun and have not ended. A factor begins before it claims its
  level, so one that is refused it has begun as well. -/
  pending : Nat
  /-- The number of those factors that have claimed their level. -/
  holding : Nat
  /-- The greatest number of levels claimed so far. -/
  deepest : Nat
  /-- The greatest number of factors begun and not ended so far. -/
  busiest : Nat
  /-- The greatest number of factors holding a level so far. -/
  fullest : Nat

namespace Count

/-- The count behind one more token. -/
def pass (count : Count) : Count := { count with position := count.position + 1 }

/-- The count with a number of levels claimed. -/
def claim (depth : Nat) (count : Count) : Count :=
  { count with depth := depth, deepest := max count.deepest depth }

/-- The count with a number of factors begun and not ended. -/
def attend (pending : Nat) (count : Count) : Count :=
  { count with pending := pending, busiest := max count.busiest pending }

/-- The count with a number of factors holding a level. -/
def hold (holding : Nat) (count : Count) : Count :=
  { count with holding := holding, fullest := max count.fullest holding }

/-- The count inside a factor that begins at a count and has claimed its level. -/
def inside (start : Count) : Count :=
  ((start.attend (start.pending + 1)).claim (start.depth + 1)).hold (start.holding + 1)

/-- The count behind a factor that began at another count. -/
def leave (start after : Count) : Count :=
  ((after.hold start.holding).claim start.depth).attend start.pending

end Count

/-- Reading with a count. There may be no outcome, where calls are nested too deep; an error comes
with the count as well. -/
abbrev Counted (α : Type) := ExceptT SyntaxError (StateT Count Option) α

section Readers

variable (tokens : List Lexeme) (side : Side)

/-- The next token, if there is one. -/
def peek : Counted (Option Token) := do
  return tokens[(← get).position]?.map Lexeme.token

/-- Passes over a token. -/
def pass : Counted Unit := modify Count.pass

/-- Takes the next token off. -/
def take : Counted Lexeme := do
  match tokens[(← get).position]? with
  | none => throw (.unexpectedEnd side)
  | some lexeme =>
    pass
    return lexeme

/-- Takes the next token off, which has to be the given one. -/
def takeOnly (token : Token) : Counted Unit := do
  let lexeme ← take tokens side
  if lexeme.token = token then return () else throw (unexpected lexeme)

/-- Claims a level, if one is left. -/
def enter : Counted Unit := do
  let count ← get
  if count.depth = levels then throw (.tooDeep side levels) else set (count.claim (count.depth + 1))

/-- Puts the number of levels claimed back. -/
def restore (depth : Nat) : Counted Unit := modify (Count.claim depth)

/-- Reads with the count changed before, and changed again behind, after an error as well. -/
def during {α : Type} (before behind : Count → Count) (read : Counted α) : Counted α :=
  (do
    modify before
    let outcome ← read.run
    modify behind
    return outcome : StateT Count Option (Except SyntaxError α))

/-- Reads as a factor: it begins, claims its level, and holds it while it is read. However it ends,
the level is put back. -/
def framed {α : Type} (read : Counted α) : Counted α := do
  let start ← get
  during (Count.attend (start.pending + 1)) (Count.attend start.pending) do
    enter side
    during (Count.hold (start.holding + 1))
      (fun count => (count.hold start.holding).claim start.depth) read

/-- No outcome. -/
def unended {α : Type} : Counted α := ExceptT.mk failure

mutual

/-- Reads an operand with a count: a sum of terms. -/
def sumAt : (calls : Nat) → Counted Operand
  | 0 => unended
  | calls + 1 => do
    let base := (← get).depth
    let first ← termAt calls
    let operand ← moreTermsAt calls first
    restore base
    return operand

/-- Reads the operators of a sum and their right operands with a count. -/
def moreTermsAt : (calls : Nat) → (left : Operand) → Counted Operand
  | 0, _ => unended
  | calls + 1, left => do
    match ← peek tokens with
    | some (.operator operator) =>
      if isSumOperator operator then
        pass
        enter side
        let right ← termAt calls
        moreTermsAt calls (.arithmetic left operator right)
      else return left
    | _ => return left

/-- Reads a product of factors with a count. -/
def termAt : (calls : Nat) → Counted Operand
  | 0 => unended
  | calls + 1 => do
    let base := (← get).depth
    let first ← factorAt calls
    let operand ← moreFactorsAt calls first
    restore base
    return operand

/-- Reads the operators of a product and their right operands with a count. -/
def moreFactorsAt : (calls : Nat) → (left : Operand) → Counted Operand
  | 0, _ => unended
  | calls + 1, left => do
    match ← peek tokens with
    | some (.operator operator) =>
      if isSumOperator operator then return left
      else
        pass
        enter side
        let right ← factorAt calls
        moreFactorsAt calls (.arithmetic left operator right)
    | _ => return left

/-- Reads a factor with a count. -/
def factorAt : (calls : Nat) → Counted Operand
  | 0 => unended
  | calls + 1 => framed side do
    match ← peek tokens with
    | some (.operator .minus) =>
      pass
      let inner ← factorAt calls
      return .negative inner
    | _ => postfixAt calls

/-- Reads a primary operand and its accessors with a count. -/
def postfixAt : (calls : Nat) → Counted Operand
  | 0 => unended
  | calls + 1 => do
    let base := (← get).depth
    let first ← primaryAt calls
    let operand ← accessorsAt calls first
    restore base
    return operand

/-- Reads the accessors behind an operand with a count. -/
def accessorsAt : (calls : Nat) → (base : Operand) → Counted Operand
  | 0, _ => unended
  | calls + 1, base => do
    match ← peek tokens with
    | some .dot =>
      enter side
      pass
      let lexeme ← take tokens side
      match lexeme.token with
      | .name key => accessorsAt calls (.field base key)
      | _ => throw (unexpected lexeme)
    | some .openBracket =>
      enter side
      pass
      let position ← sumAt calls
      takeOnly tokens side .closeBracket
      accessorsAt calls (.index base position)
    | _ => return base

/-- Reads a primary operand with a count. -/
def primaryAt : (calls : Nat) → Counted Operand
  | 0 => unended
  | calls + 1 => do
    let lexeme ← take tokens side
    match lexeme.token with
    | .literal value => return .literal value
    | .name word =>
      match Bag.ofWord? word with
      | some which => return .bag which
      | none =>
        match ← peek tokens with
        | some .openParen =>
          pass
          let operands ← argumentsAt calls
          return .call word operands
        | _ => return .name word
    | .openParen =>
      let inner ← sumAt calls
      takeOnly tokens side .closeParen
      return inner
    | _ => throw (unexpected lexeme)

/-- Reads the arguments of a call with a count. -/
def argumentsAt : (calls : Nat) → Counted (List Operand)
  | 0 => unended
  | calls + 1 => do
    match ← peek tokens with
    | some .closeParen =>
      pass
      return []
    | _ => moreArgumentsAt calls

/-- Reads arguments up to the closing parenthesis with a count. -/
def moreArgumentsAt : (calls : Nat) → Counted (List Operand)
  | 0 => unended
  | calls + 1 => do
    let operand ← sumAt calls
    let lexeme ← take tokens side
    match lexeme.token with
    | .comma =>
      let others ← moreArgumentsAt calls
      return operand :: others
    | .closeParen => return [operand]
    | _ => throw (unexpected lexeme)

end

/-- Reads all the tokens of one side with a count. -/
def allAt (calls : Nat) : Counted Operand := do
  if tokens.isEmpty then throw (.emptyOperand side)
  else
    let operand ← sumAt tokens side calls
    match tokens[(← get).position]? with
    | none => return operand
    | some lexeme => throw (unexpected lexeme)

end Readers

/-- What reading from a count gives: nothing if calls are nested too deep, otherwise the value or
the error, and the count at the end. -/
def runFrom {α : Type} (read : Counted α) (start : Count) : Option (Except SyntaxError α × Count) :=
  read.run.run start

section Running

variable {α β : Type} {tokens : List Lexeme} {side : Side} {start after : Count}

/-- Where the first part gives an error, the second one is not read. -/
theorem runFrom_bind_error {read : Counted α} {cause : SyntaxError}
    (h : runFrom read start = some (.error cause, after)) (next : α → Counted β) :
    runFrom (read >>= next) start = some (.error cause, after) := by
  rw [runFrom] at h
  rw [runFrom, ExceptT.run_bind, StateT.run_bind, h]
  rfl

/-- Where the first part gives a value, the second one is read from the count that it leaves. -/
theorem runFrom_bind_ok {read : Counted α} {value : α}
    (h : runFrom read start = some (.ok value, after)) (next : α → Counted β) :
    runFrom (read >>= next) start = runFrom (next value) after := by
  rw [runFrom] at h
  rw [runFrom, ExceptT.run_bind, StateT.run_bind, h]
  rfl

/-- The count can be looked at. -/
theorem runFrom_get (start : Count) : runFrom get start = some (.ok start, start) := rfl

/-- A token is passed over. -/
theorem runFrom_pass (start : Count) : runFrom pass start = some (.ok (), start.pass) := rfl

/-- The levels are put back. -/
theorem runFrom_restore (depth : Nat) (start : Count) :
    runFrom (restore depth) start = some (.ok (), start.claim depth) := rfl

/-- The next token is the first of those that are left. -/
theorem runFrom_peek (tokens : List Lexeme) (start : Count) :
    runFrom (peek tokens) start =
      some (.ok ((tokens.drop start.position).head?.map Lexeme.token), start) := by
  rw [List.head?_drop]
  rfl

/-- Without a token left, none is taken off. -/
theorem runFrom_take_nil (h : tokens.drop start.position = []) :
    runFrom (take tokens side) start = some (.error (.unexpectedEnd side), start) := by
  have hnone : tokens[start.position]? = none := by rw [← List.head?_drop, h]; rfl
  rw [take, runFrom_bind_ok (runFrom_get start), hnone]
  rfl

/-- The first of the tokens that are left is taken off. -/
theorem runFrom_take_cons {lexeme : Lexeme} {rest : List Lexeme}
    (h : tokens.drop start.position = lexeme :: rest) :
    runFrom (take tokens side) start = some (.ok lexeme, start.pass) := by
  have hsome : tokens[start.position]? = some lexeme := by rw [← List.head?_drop, h]; rfl
  rw [take, runFrom_bind_ok (runFrom_get start), hsome]
  rfl

/-- The count is changed before and behind, whatever is read. -/
theorem runFrom_during (before behind : Count → Count) (read : Counted α) (start : Count) :
    runFrom (during before behind read) start =
      (runFrom read (before start)).map (fun given => (given.1, behind given.2)) := by
  change (runFrom read (before start)).bind (fun given => some (given.1, behind given.2)) = _
  rw [Option.map_eq_bind]
  rfl

/-- At the limit, no level is claimed. -/
theorem runFrom_enter_limit (h : start.depth = levels) :
    runFrom (enter side) start = some (.error (.tooDeep side levels), start) := by
  rw [enter, runFrom_bind_ok (runFrom_get start), if_pos h]
  rfl

/-- Below the limit, a level is claimed. -/
theorem runFrom_enter (h : start.depth < levels) :
    runFrom (enter side) start = some (.ok (), start.claim (start.depth + 1)) := by
  rw [enter, runFrom_bind_ok (runFrom_get start), if_neg (Nat.ne_of_lt h)]
  rfl

/-- At the limit, a factor begins and is refused its level. -/
theorem runFrom_framed_limit (h : start.depth = levels) (read : Counted α) :
    runFrom (framed side read) start = some (.error (.tooDeep side levels),
      (start.attend (start.pending + 1)).attend start.pending) := by
  have hlimit : (start.attend (start.pending + 1)).depth = levels := h
  rw [framed, runFrom_bind_ok (runFrom_get start), runFrom_during,
    runFrom_bind_error (runFrom_enter_limit hlimit)]
  rfl

/-- Below the limit, a factor claims its level and puts it back. -/
theorem runFrom_framed (h : start.depth < levels) (read : Counted α) :
    runFrom (framed side read) start =
      (runFrom read start.inside).map (fun given => (given.1, start.leave given.2)) := by
  have hlevel : (start.attend (start.pending + 1)).depth < levels := h
  rw [framed, runFrom_bind_ok (runFrom_get start), runFrom_during,
    runFrom_bind_ok (runFrom_enter hlevel), runFrom_during, Option.map_map]
  rfl

end Running

/-- The limit was kept to so far. -/
structure Count.Limited (count : Count) : Prop where
  /-- There were never more levels claimed. -/
  deepest_le : count.deepest ≤ levels
  /-- There was never more than one factor above the limit. -/
  busiest_le : count.busiest ≤ levels + 1
  /-- There were never more factors holding a level. -/
  fullest_le : count.fullest ≤ levels

/-- The limit was kept to so far and is kept to, with a level for every factor. -/
structure Count.Bounded (count : Count) : Prop extends count.Limited where
  /-- Every factor that has begun holds its level. -/
  holding_eq : count.holding = count.pending
  /-- These levels are claimed. -/
  pending_le : count.pending ≤ count.depth
  /-- There are no more levels claimed than the limit allows. -/
  depth_le : count.depth ≤ levels

namespace Count.Bounded

variable {count : Count}

/-- Passing over a token keeps to the limit. -/
theorem pass (h : count.Bounded) : count.pass.Bounded :=
  ⟨⟨h.deepest_le, h.busiest_le, h.fullest_le⟩, h.holding_eq, h.pending_le, h.depth_le⟩

/-- Claiming levels up to the limit keeps to it, if the factors have theirs. -/
theorem claim (h : count.Bounded) {depth : Nat} (hpending : count.pending ≤ depth)
    (hdepth : depth ≤ levels) : (count.claim depth).Bounded :=
  ⟨⟨Nat.max_le.mpr ⟨h.deepest_le, hdepth⟩, h.busiest_le, h.fullest_le⟩, h.holding_eq, hpending,
    hdepth⟩

/-- No more factors hold a level than there are levels. -/
theorem holding_le (h : count.Bounded) : count.holding ≤ count.depth := by
  rw [h.holding_eq]
  exact h.pending_le

/-- A factor more than there were keeps to the limit. -/
theorem pending_lt (h : count.Bounded) : count.pending + 1 ≤ levels + 1 :=
  Nat.succ_le_succ (Nat.le_trans h.pending_le h.depth_le)

/-- A factor that is refused its level leaves the limit kept to. -/
theorem refused (h : count.Bounded) :
    ((count.attend (count.pending + 1)).attend count.pending).Limited := by
  have hbusiest : max count.busiest (count.pending + 1) ≤ levels + 1 :=
    Nat.max_le.mpr ⟨h.busiest_le, h.pending_lt⟩
  exact ⟨h.deepest_le, Nat.max_le.mpr ⟨hbusiest, Nat.le_of_lt h.pending_lt⟩, h.fullest_le⟩

/-- A factor that has claimed its level keeps to the limit. -/
theorem inside (h : count.Bounded) (hdepth : count.depth < levels) : count.inside.Bounded := by
  have hholding : count.holding + 1 ≤ levels := Nat.lt_of_le_of_lt h.holding_le hdepth
  exact ⟨⟨Nat.max_le.mpr ⟨h.deepest_le, hdepth⟩, Nat.max_le.mpr ⟨h.busiest_le, h.pending_lt⟩,
    Nat.max_le.mpr ⟨h.fullest_le, hholding⟩⟩, congrArg Nat.succ h.holding_eq,
    Nat.succ_le_succ h.pending_le, hdepth⟩

/-- Where a factor ends, the limit is kept to as it was before the factor. -/
theorem leave (h : count.Bounded) {after : Count} (hafter : after.Limited) :
    (count.leave after).Bounded := by
  have hholding : count.holding ≤ levels := Nat.le_trans h.holding_le h.depth_le
  exact ⟨⟨Nat.max_le.mpr ⟨hafter.deepest_le, h.depth_le⟩,
    Nat.max_le.mpr ⟨hafter.busiest_le, Nat.le_of_lt h.pending_lt⟩,
    Nat.max_le.mpr ⟨hafter.fullest_le, hholding⟩⟩, h.holding_eq, h.pending_le, h.depth_le⟩

end Count.Bounded

/-- How reading ends beside what a reader gives: with the same error, or with the same value behind
the same tokens and a count that has moved in some way. The limit was kept to in either case. -/
inductive Ends {α : Type} (tokens : List Lexeme) (moves : Count → Prop) :
    Except SyntaxError (α × List Lexeme) → Option (Except SyntaxError α × Count) → Prop where
  /-- The same error. -/
  | error {cause : SyntaxError} {after : Count} : after.Limited →
    Ends tokens moves (.error cause) (some (.error cause, after))
  /-- The same value. -/
  | ok {value : α} {after : Count} : after.Bounded → moves after →
    Ends tokens moves (.ok (value, tokens.drop after.position)) (some (.ok value, after))

/-- How a count moves where a part is read: a token or more are taken off, and everything else is
put back. -/
structure Completes (tokens : List Lexeme) (start after : Count) : Prop where
  /-- The levels are put back. -/
  depth_eq : after.depth = start.depth
  /-- As many factors have begun and not ended as before. -/
  pending_eq : after.pending = start.pending
  /-- A token is taken off. -/
  position_lt : start.position < after.position
  /-- No more tokens are taken off than there are. -/
  position_le : after.position ≤ tokens.length

/-- How a count moves where a chain goes on, or does not: the levels claimed are not put back
yet. -/
structure Proceeds (tokens : List Lexeme) (start after : Count) : Prop where
  /-- Levels may have been claimed. -/
  depth_le : start.depth ≤ after.depth
  /-- As many factors have begun and not ended as before. -/
  pending_eq : after.pending = start.pending
  /-- Tokens may have been taken off. -/
  position_ge : start.position ≤ after.position
  /-- No more tokens are taken off than there are. -/
  position_le : after.position ≤ max start.position tokens.length

/-- Reading with a count does as a reader does, wherever as many levels are left as a budget says,
if as many calls may be nested as it costs. -/
def Counts {α : Type} (tokens : List Lexeme) (budget cost : Nat) (moves : Count → Count → Prop)
    (reader : Reader α) (read : Nat → Counted α) : Prop :=
  ∀ calls, cost ≤ calls → ∀ start : Count, start.Bounded → start.depth + budget = levels →
    Ends tokens (moves start) (reader (tokens.drop start.position)) (runFrom (read calls) start)

section Steps

variable {α β : Type} {tokens : List Lexeme} {side : Side} {start : Count}
  {moves further : Count → Prop}

/-- Where a token is left, the other tokens are left behind it. -/
theorem drop_pass {lexeme : Lexeme} {rest : List Lexeme}
    (h : tokens.drop start.position = lexeme :: rest) :
    start.position < tokens.length ∧ tokens.drop start.pass.position = rest := by
  have hlength : (tokens.drop start.position).length = rest.length + 1 := congrArg List.length h
  rw [List.length_drop] at hlength
  refine ⟨by omega, ?_⟩
  rw [Count.pass, ← List.tail_drop, h, List.tail_cons]

/-- How a count moves can be said with less. -/
theorem Ends.mono {given : Except SyntaxError (α × List Lexeme)}
    {outcome : Option (Except SyntaxError α × Count)} (h : Ends tokens moves given outcome)
    (himp : ∀ after, moves after → further after) : Ends tokens further given outcome := by
  cases h with
  | error hlimited => exact .error hlimited
  | ok hbounded hmoves => exact .ok hbounded (himp _ hmoves)

/-- Where a reader gives an error, reading with a count gives it. -/
theorem Ends.exists_of_error {cause : SyntaxError} {outcome : Option (Except SyntaxError α × Count)}
    (h : Ends tokens moves (.error cause) outcome) :
    ∃ after : Count, after.Limited ∧ outcome = some (.error cause, after) := by
  cases h with
  | error hlimited => exact ⟨_, hlimited, rfl⟩

/-- Where a reader gives a value, reading with a count gives it and stands before the same
tokens. -/
theorem Ends.exists_of_ok {value : α} {rest : List Lexeme}
    {outcome : Option (Except SyntaxError α × Count)}
    (h : Ends tokens moves (.ok (value, rest)) outcome) :
    ∃ after : Count, after.Bounded ∧ moves after ∧ tokens.drop after.position = rest ∧
      outcome = some (.ok value, after) := by
  generalize hgiven : Except.ok (value, rest) = given at h
  cases h with
  | error => cases hgiven
  | ok hbounded hmoves =>
    cases hgiven
    exact ⟨_, hbounded, hmoves, rfl, rfl⟩

/-- Two parts end as a reader does that refuses what the first part refuses and otherwise goes on
behind it. -/
theorem Ends.andThen {given : Except SyntaxError (α × List Lexeme)}
    {result : Except SyntaxError (β × List Lexeme)} {read : Counted α} {next : α → Counted β}
    (h : Ends tokens moves given (runFrom read start))
    (herror : ∀ cause, given = .error cause → result = .error cause)
    (hok : ∀ value after, after.Bounded → moves after →
      given = .ok (value, tokens.drop after.position) →
      Ends tokens further result (runFrom (next value) after)) :
    Ends tokens further result (runFrom (read >>= next) start) := by
  generalize hrun : runFrom read start = outcome at h
  cases h with
  | error hlimited =>
    rw [runFrom_bind_error hrun, herror _ rfl]
    exact .error hlimited
  | ok hbounded hmoves =>
    rw [runFrom_bind_ok hrun]
    exact hok _ _ hbounded hmoves rfl

/-- Taking off a given token goes on where the readers find it. -/
theorem takeOnly_andThen {token : Token} {result : Except SyntaxError (β × List Lexeme)}
    {next : Unit → Counted β} (h : start.Bounded)
    (herror : ∀ cause, expect side token (tokens.drop start.position) = .error cause →
      result = .error cause)
    (hok : start.position < tokens.length →
      expect side token (tokens.drop start.position) = .ok (tokens.drop start.pass.position) →
      Ends tokens further result (runFrom (next ()) start.pass)) :
    Ends tokens further result (runFrom (takeOnly tokens side token >>= next) start) := by
  cases hleft : tokens.drop start.position with
  | nil =>
    have htake : runFrom (takeOnly tokens side token) start =
        some (.error (.unexpectedEnd side), start) :=
      runFrom_bind_error (runFrom_take_nil hleft) _
    rw [runFrom_bind_error htake, herror _ (by rw [hleft]; rfl)]
    exact .error h.toLimited
  | cons lexeme rest =>
    obtain ⟨hlt, hrest⟩ := drop_pass hleft
    have htake : runFrom (takeOnly tokens side token) start =
        runFrom (if lexeme.token = token then pure () else throw (unexpected lexeme)) start.pass :=
      runFrom_bind_ok (runFrom_take_cons hleft) _
    by_cases htoken : lexeme.token = token
    · rw [if_pos htoken] at htake
      rw [runFrom_bind_ok htake]
      exact hok hlt (by rw [hleft, hrest, expect, if_pos htoken])
    · rw [if_neg htoken] at htake
      rw [runFrom_bind_error htake, herror _ (by rw [hleft, expect, if_neg htoken])]
      exact .error h.pass.toLimited

/-- Nothing goes on: the count stays. -/
theorem ends_stay {value : α} {rest : List Lexeme} (h : start.Bounded)
    (hleft : tokens.drop start.position = rest) :
    Ends tokens (Proceeds tokens start) (.ok (value, rest)) (some (.ok value, start)) := by
  subst hleft
  exact .ok h ⟨Nat.le_refl _, rfl, Nat.le_refl _, Nat.le_max_left _ _⟩

/-- A part and what goes on behind it are one part, when the levels are put back. It is read in a
call of its own. -/
theorem Counts.chain {budget cost : Nat} {head : Reader Operand} {tail : Operand → Reader Operand}
    {read first : Nat → Counted Operand} {others : Nat → Operand → Counted Operand}
    (hfirst : Counts tokens budget cost (Completes tokens) head first)
    (hothers : ∀ left, Counts tokens budget cost (Proceeds tokens) (tail left)
      (fun calls => others calls left))
    (hread : ∀ calls, read (calls + 1) = (do
      let base := (← get).depth
      let left ← first calls
      let operand ← others calls left
      restore base
      return operand)) :
    Counts tokens budget (cost + 1) (Completes tokens) (continued head tail) read := by
  intro outer houter start hbounded hlevels
  obtain ⟨calls, rfl⟩ : ∃ calls, outer = calls + 1 := ⟨outer - 1, by omega⟩
  have hcalls : cost ≤ calls := Nat.le_of_succ_le_succ houter
  rw [hread, runFrom_bind_ok (runFrom_get start), continued]
  refine (hfirst calls hcalls start hbounded hlevels).andThen
    (fun cause hcause => by rw [hcause]) ?_
  intro left middle hmiddle hcompletes hgiven
  have hmiddleLevels : middle.depth + budget = levels := by
    rw [hcompletes.depth_eq]
    exact hlevels
  rw [hgiven]
  dsimp only
  refine (hothers left calls hcalls middle hmiddle hmiddleLevels).andThen
    (fun cause hcause => hcause) ?_
  intro operand after hafter hproceeds hresult
  have hpending : after.pending ≤ start.depth := by
    rw [hproceeds.pending_eq, hcompletes.pending_eq]
    exact hbounded.pending_le
  have hlt : start.position < after.position :=
    Nat.lt_of_lt_of_le hcompletes.position_lt hproceeds.position_ge
  have hle : after.position ≤ tokens.length := by
    have hmax := hproceeds.position_le
    have hmiddle := hcompletes.position_le
    omega
  have hcount : (after.claim start.depth).pending = start.pending :=
    hproceeds.pending_eq.trans hcompletes.pending_eq
  rw [hresult, runFrom_bind_ok (runFrom_restore start.depth after)]
  exact .ok (hafter.claim hpending hbounded.depth_le) ⟨rfl, hcount, hlt, hle⟩

/-- A token alone is a part. -/
theorem ends_token {value : α} {lexeme : Lexeme} {rest : List Lexeme} (h : start.Bounded)
    (hleft : tokens.drop start.position = lexeme :: rest) :
    Ends tokens (Completes tokens start) (.ok (value, rest)) (some (.ok value, start.pass)) := by
  obtain ⟨hlt, hrest⟩ := drop_pass hleft
  subst hrest
  exact .ok h.pass ⟨rfl, rfl, Nat.lt_succ_self _, hlt⟩

/-- A part behind a token is one part with it. -/
theorem Completes.of_pass {after : Count} (h : Completes tokens start.pass after) :
    Completes tokens start after :=
  ⟨h.depth_eq, h.pending_eq, Nat.lt_of_succ_lt h.position_lt, h.position_le⟩

/-- A part with a token behind it is one part. -/
theorem Completes.pass {after : Count} (h : Completes tokens start after)
    (hlt : after.position < tokens.length) : Completes tokens start after.pass :=
  ⟨h.depth_eq, h.pending_eq, Nat.lt_succ_of_lt h.position_lt, hlt⟩

/-- Two parts one behind the other are one part. -/
theorem Completes.trans {middle after : Count} (h : Completes tokens start middle)
    (hafter : Completes tokens middle after) : Completes tokens start after :=
  ⟨hafter.depth_eq.trans h.depth_eq, hafter.pending_eq.trans h.pending_eq,
    Nat.lt_trans h.position_lt hafter.position_lt, hafter.position_le⟩

/-- A part goes on. -/
theorem Completes.proceeds {after : Count} (h : Completes tokens start after) :
    Proceeds tokens start after :=
  ⟨Nat.le_of_eq h.depth_eq.symm, h.pending_eq, Nat.le_of_lt h.position_lt,
    Nat.le_trans h.position_le (Nat.le_max_right _ _)⟩

/-- A token goes on. -/
theorem proceeds_pass (hlt : start.position < tokens.length) :
    Proceeds tokens start start.pass :=
  ⟨Nat.le_refl _, rfl, Nat.le_succ _, Nat.le_trans hlt (Nat.le_max_right _ _)⟩

/-- A level claimed goes on. -/
theorem proceeds_claim : Proceeds tokens start (start.claim (start.depth + 1)) :=
  ⟨Nat.le_succ _, rfl, Nat.le_refl _, Nat.le_max_left _ _⟩

/-- What goes on may go on further. -/
theorem Proceeds.trans {middle after : Count} (h : Proceeds tokens start middle)
    (hafter : Proceeds tokens middle after) : Proceeds tokens start after := by
  have hmiddle := h.position_le
  have hlength := hafter.position_le
  exact ⟨Nat.le_trans h.depth_le hafter.depth_le, hafter.pending_eq.trans h.pending_eq,
    Nat.le_trans h.position_ge hafter.position_ge, by omega⟩

/-- Claiming a level stops where none is left, and otherwise goes on with one level less. -/
theorem enter_andThen {budget : Nat} {result : Except SyntaxError (β × List Lexeme)}
    {next : Unit → Counted β} (hbounded : start.Bounded) (hlevels : start.depth + budget = levels)
    (hnone : budget = 0 → result = .error (.tooDeep side levels))
    (hsome : ∀ below, budget = below + 1 → (start.claim (start.depth + 1)).Bounded →
      (start.claim (start.depth + 1)).depth + below = levels →
      Ends tokens further result (runFrom (next ()) (start.claim (start.depth + 1)))) :
    Ends tokens further result (runFrom (enter side >>= next) start) := by
  cases budget with
  | zero =>
    rw [runFrom_bind_error (runFrom_enter_limit hlevels), hnone rfl]
    exact .error hbounded.toLimited
  | succ below =>
    have hdepth : start.depth + 1 ≤ levels := by omega
    have hbelow : start.depth + 1 + below = levels := by omega
    rw [runFrom_bind_ok (runFrom_enter hdepth)]
    exact hsome below rfl (hbounded.claim (Nat.le_succ_of_le hbounded.pending_le) hdepth) hbelow

/-- An operator of a chain claims a level, and its right operand and what is behind it are read with
one level less. -/
theorem ends_operator (others : Nat → Operand → Counted Operand) {budget cost calls : Nat}
    {lexeme : Lexeme} {rest : List Lexeme} {result : Except SyntaxError (Operand × List Lexeme)}
    {head : Nat → Reader Operand} {tail : Nat → Operand → Reader Operand}
    {next : Nat → Counted Operand} (hcalls : cost ≤ calls) (hbounded : start.Bounded)
    (hlevels : start.depth + budget = levels) (hleft : tokens.drop start.position = lexeme :: rest)
    (hnext : ∀ below, budget = below + 1 →
      Counts tokens below cost (Completes tokens) (head below) next)
    (hothers : ∀ below, budget = below + 1 → ∀ right,
      Counts tokens below cost (Proceeds tokens) (tail below right)
        (fun calls => others calls right))
    (hnone : budget = 0 → result = .error (.tooDeep side levels))
    (hsome : ∀ below, budget = below + 1 → result = continued (head below) (tail below) rest) :
    Ends tokens (Proceeds tokens start) result (runFrom (do
      pass
      enter side
      let right ← next calls
      others calls right) start) := by
  obtain ⟨hlt, hrest⟩ := drop_pass hleft
  rw [runFrom_bind_ok (runFrom_pass start)]
  refine enter_andThen hbounded.pass hlevels hnone ?_
  intro below hbudget hclaimed hlevelsBelow
  change tokens.drop (start.pass.claim (start.pass.depth + 1)).position = rest at hrest
  rw [hsome below hbudget, ← hrest, continued]
  refine (hnext below hbudget calls hcalls _ hclaimed hlevelsBelow).andThen
    (fun cause hcause => by rw [hcause]) ?_
  intro right middle hmiddle hcompletes hgiven
  rw [hgiven]
  have hlevelsBehind : middle.depth + below = levels := by
    rw [hcompletes.depth_eq]
    exact hlevelsBelow
  refine (hothers below hbudget right calls hcalls middle hmiddle hlevelsBehind).mono
    (fun after hafter => ?_)
  exact (((proceeds_pass hlt).trans proceeds_claim).trans hcompletes.proceeds).trans hafter

/-- A factor ends at once where no level is left, and otherwise is read with one level less. -/
theorem Ends.framed {budget : Nat} {result : Except SyntaxError (α × List Lexeme)}
    {inner : Counted α} (hbounded : start.Bounded) (hlevels : start.depth + budget = levels)
    (hnone : budget = 0 → result = .error (.tooDeep side levels))
    (hsome : ∀ below, budget = below + 1 → start.inside.Bounded →
      start.inside.depth + below = levels →
      Ends tokens (Completes tokens start.inside) result (runFrom inner start.inside)) :
    Ends tokens (Completes tokens start) result (runFrom (framed side inner) start) := by
  cases budget with
  | zero =>
    rw [runFrom_framed_limit hlevels, hnone rfl]
    exact .error hbounded.refused
  | succ below =>
    have hdepth : start.depth < levels := by omega
    have hbelow : start.depth + 1 + below = levels := by omega
    have hinner := hsome below rfl (hbounded.inside hdepth) hbelow
    rw [runFrom_framed hdepth]
    generalize runFrom inner start.inside = outcome at hinner
    cases hinner with
    | error hlimited => exact .error (hbounded.leave hlimited).toLimited
    | ok hafter hcompletes =>
      exact .ok (hbounded.leave hafter.toLimited)
        ⟨rfl, rfl, hcompletes.position_lt, hcompletes.position_le⟩

end Steps

/-- All readers of operands are followed with a count where as many levels are left as a budget
says, if as many calls may be nested as they cost. -/
structure CountsWithin (tokens : List Lexeme) (side : Side) (budget cost : Nat) : Prop where
  /-- Factors are. -/
  factor : Counts tokens budget cost (Completes tokens) (factor side budget) (factorAt tokens side)
  /-- Accessors are. -/
  accessors (base : Operand) : Counts tokens budget cost (Proceeds tokens)
    (accessors side budget base) (fun calls => accessorsAt tokens side calls base)
  /-- Further factors of a term are. -/
  moreFactors (left : Operand) : Counts tokens budget cost (Proceeds tokens)
    (moreFactors side budget left) (fun calls => moreFactorsAt tokens side calls left)
  /-- Further terms of a sum are. -/
  moreTerms (left : Operand) : Counts tokens budget cost (Proceeds tokens)
    (moreTerms side budget left) (fun calls => moreTermsAt tokens side calls left)

section Parts

variable {tokens : List Lexeme} {side : Side} {budget cost : Nat} {inner : Reader Operand}

/-- Arguments are followed if operands are. The fuel of the readers is enough, since every argument
takes off a token. -/
theorem moreArgumentsAt_counts (hsum : Counts tokens budget cost (Completes tokens) inner
      (sumAt tokens side)) (fuel outer : Nat) (houter : cost + fuel ≤ outer) {start : Count}
    (hbounded : start.Bounded) (hlevels : start.depth + budget = levels)
    (hfuel : (tokens.drop start.position).length < fuel) :
    Ends tokens (Completes tokens start)
      (argumentsWithin side inner fuel (tokens.drop start.position))
      (runFrom (moreArgumentsAt tokens side outer) start) := by
  induction fuel generalizing start outer with
  | zero => exact absurd hfuel (Nat.not_lt_zero _)
  | succ fuel ih =>
    obtain ⟨calls, rfl⟩ : ∃ calls, outer = calls + 1 := ⟨outer - 1, by omega⟩
    have hcalls : cost + fuel ≤ calls := Nat.le_of_succ_le_succ houter
    rw [moreArgumentsAt, argumentsWithin]
    refine (hsum calls (by omega) start hbounded hlevels).andThen
      (fun cause hcause => by rw [hcause]) ?_
    intro operand middle hmiddle hcompletes hgiven
    rw [hgiven]
    cases hleft : tokens.drop middle.position with
    | nil =>
      rw [runFrom_bind_error (runFrom_take_nil hleft)]
      exact .error hmiddle.toLimited
    | cons lexeme rest =>
      obtain ⟨hlt, hrest⟩ := drop_pass hleft
      obtain ⟨token, offset⟩ := lexeme
      rw [runFrom_bind_ok (runFrom_take_cons hleft)]
      cases token with
      | comma =>
        have hlevelsBehind : middle.pass.depth + budget = levels := by
          rw [← hlevels, ← hcompletes.depth_eq]
          rfl
        have hposition : start.position < middle.position := hcompletes.position_lt
        have hbehind : middle.pass.position = middle.position + 1 := rfl
        have hfuelBehind : (tokens.drop middle.pass.position).length < fuel := by
          rw [List.length_drop] at hfuel ⊢
          omega
        subst hrest
        dsimp only
        refine (ih calls hcalls hmiddle.pass hlevelsBehind hfuelBehind).andThen
          (fun cause hcause => by rw [hcause]) ?_
        intro others after hafter hrest hothers
        rw [hothers]
        exact .ok hafter ((hcompletes.pass hlt).trans hrest)
      | closeParen =>
        subst hrest
        exact .ok hmiddle.pass (hcompletes.pass hlt)
      | _ => exact .error hmiddle.pass.toLimited

/-- The arguments of a call are followed if operands are. -/
theorem argumentsAt_counts (hsum : Counts tokens budget cost (Completes tokens) inner
      (sumAt tokens side)) :
    Counts tokens budget (cost + tokens.length + 2) (Completes tokens) (arguments side inner)
      (argumentsAt tokens side) := by
  intro outer houter start hbounded hlevels
  obtain ⟨calls, rfl⟩ : ∃ calls, outer = calls + 1 := ⟨outer - 1, by omega⟩
  have hlength : (tokens.drop start.position).length ≤ tokens.length := by
    rw [List.length_drop]
    exact Nat.sub_le _ _
  have hmore := moreArgumentsAt_counts hsum ((tokens.drop start.position).length + 1) calls
    (by omega) hbounded hlevels (Nat.lt_succ_self _)
  rw [argumentsAt, runFrom_bind_ok (runFrom_peek tokens start)]
  unfold arguments
  cases hleft : tokens.drop start.position with
  | nil =>
    rw [hleft] at hmore
    exact hmore
  | cons lexeme rest =>
    obtain ⟨token, offset⟩ := lexeme
    rw [hleft] at hmore
    cases token with
    | closeParen => exact ends_token hbounded hleft
    | _ => exact hmore

/-- A word is followed, and its arguments if it is called. -/
theorem primaryAt_name (hsum : Counts tokens budget cost (Completes tokens) inner
      (sumAt tokens side)) {calls : Nat} (hcalls : cost + tokens.length + 2 ≤ calls) {start : Count}
    (hbounded : start.Bounded) (hlevels : start.depth + budget = levels) {word : String}
    {offset : Nat} {rest : List Lexeme}
    (hleft : tokens.drop start.position = ⟨.name word, offset⟩ :: rest) :
    Ends tokens (Completes tokens start) (primary side inner (⟨.name word, offset⟩ :: rest))
      (runFrom (primaryAt tokens side (calls + 1)) start) := by
  obtain ⟨-, hrest⟩ := drop_pass hleft
  subst hrest
  rw [primaryAt, runFrom_bind_ok (runFrom_take_cons hleft)]
  unfold primary
  dsimp only
  cases Bag.ofWord? word with
  | some which => exact ends_token hbounded hleft
  | none =>
    dsimp only
    rw [runFrom_bind_ok (runFrom_peek tokens start.pass)]
    cases hnext : tokens.drop start.pass.position with
    | nil => exact ends_token hbounded (hnext ▸ hleft)
    | cons follower rest =>
      obtain ⟨opening, place⟩ := follower
      cases opening with
      | openParen =>
        obtain ⟨-, hrest⟩ := drop_pass hnext
        subst hrest
        dsimp only [List.head?_cons, Option.map_some]
        rw [runFrom_bind_ok (runFrom_pass start.pass)]
        refine (argumentsAt_counts hsum calls hcalls start.pass.pass hbounded.pass.pass
          hlevels).andThen (fun cause hcause => by rw [hcause]) ?_
        intro operands after hafter hcompletes hgiven
        rw [hgiven]
        exact .ok hafter hcompletes.of_pass.of_pass
      | _ => exact ends_token hbounded (hnext ▸ hleft)

/-- A group is followed if operands are. -/
theorem primaryAt_group (hsum : Counts tokens budget cost (Completes tokens) inner
      (sumAt tokens side)) {calls : Nat} (hcalls : cost ≤ calls) {start : Count}
    (hbounded : start.Bounded) (hlevels : start.depth + budget = levels) {offset : Nat}
    {rest : List Lexeme} (hleft : tokens.drop start.position = ⟨.openParen, offset⟩ :: rest) :
    Ends tokens (Completes tokens start) (primary side inner (⟨.openParen, offset⟩ :: rest))
      (runFrom (primaryAt tokens side (calls + 1)) start) := by
  obtain ⟨-, hrest⟩ := drop_pass hleft
  subst hrest
  rw [primaryAt, runFrom_bind_ok (runFrom_take_cons hleft), primary]
  dsimp only
  refine (hsum calls hcalls start.pass hbounded.pass hlevels).andThen
    (fun cause hcause => by rw [hcause]) ?_
  intro operand middle hmiddle hcompletes hgiven
  rw [hgiven]
  dsimp only
  refine takeOnly_andThen hmiddle (fun cause hcause => by rw [hcause]) ?_
  intro hlength hclose
  rw [hclose]
  exact .ok hmiddle.pass (hcompletes.of_pass.pass hlength)

/-- Primary operands are followed if operands are. -/
theorem primaryAt_counts (hsum : Counts tokens budget cost (Completes tokens) inner
      (sumAt tokens side)) :
    Counts tokens budget (cost + tokens.length + 3) (Completes tokens) (primary side inner)
      (primaryAt tokens side) := by
  intro outer houter start hbounded hlevels
  obtain ⟨calls, rfl⟩ : ∃ calls, outer = calls + 1 := ⟨outer - 1, by omega⟩
  have hcalls : cost + tokens.length + 2 ≤ calls := Nat.le_of_succ_le_succ houter
  cases hleft : tokens.drop start.position with
  | nil =>
    rw [primaryAt, runFrom_bind_error (runFrom_take_nil hleft)]
    exact .error hbounded.toLimited
  | cons lexeme rest =>
    obtain ⟨token, offset⟩ := lexeme
    cases token with
    | literal value =>
      rw [primaryAt, runFrom_bind_ok (runFrom_take_cons hleft)]
      exact ends_token hbounded hleft
    | name word => exact primaryAt_name hsum hcalls hbounded hlevels hleft
    | openParen => exact primaryAt_group hsum (by omega) hbounded hlevels hleft
    | _ =>
      rw [primaryAt, runFrom_bind_ok (runFrom_take_cons hleft)]
      exact .error hbounded.pass.toLimited

/-- Fewer calls cost no more. -/
theorem Counts.mono {α : Type} {moves : Count → Count → Prop} {reader : Reader α}
    {read : Nat → Counted α} {more : Nat} (h : Counts tokens budget cost moves reader read)
    (hcost : cost ≤ more) : Counts tokens budget more moves reader read :=
  fun calls hcalls => h calls (Nat.le_trans hcost hcalls)

/-- Products are followed if factors are. -/
theorem CountsWithin.term (h : CountsWithin tokens side budget cost) :
    Counts tokens budget (cost + 1) (Completes tokens) (term side budget) (termAt tokens side) :=
  h.factor.chain h.moreFactors (fun calls => by rw [termAt])

/-- Sums are followed if factors are. -/
theorem CountsWithin.sum (h : CountsWithin tokens side budget cost) :
    Counts tokens budget (cost + 2) (Completes tokens) (sum side budget) (sumAt tokens side) :=
  h.term.chain (fun left => (h.moreTerms left).mono (Nat.le_succ _)) (fun calls => by rw [sumAt])

/-- Primary operands are followed if factors are. -/
theorem CountsWithin.primary (h : CountsWithin tokens side budget cost) :
    Counts tokens budget (cost + tokens.length + 5) (Completes tokens)
      (primary side (Operand.sum side budget)) (primaryAt tokens side) :=
  (primaryAt_counts h.sum).mono (by omega)

/-- Primary operands with accessors behind them are followed if factors are. -/
theorem CountsWithin.postfixed (h : CountsWithin tokens side budget cost) :
    Counts tokens budget (cost + tokens.length + 6) (Completes tokens)
      (continued (Operand.primary side (Operand.sum side budget)) (Operand.accessors side budget))
      (postfixAt tokens side) :=
  h.primary.chain (fun base => (h.accessors base).mono (by omega)) (fun calls => by rw [postfixAt])

/-- A field and the accessors behind it are followed if everything is with one level less. -/
theorem accessorsAt_dot
    (hbelow : ∀ below, budget = below + 1 → CountsWithin tokens side below cost) {calls : Nat}
    (hcalls : cost ≤ calls) {start : Count} (hbounded : start.Bounded)
    (hlevels : start.depth + budget = levels) (base : Operand) {offset : Nat} {rest : List Lexeme}
    (hleft : tokens.drop start.position = ⟨.dot, offset⟩ :: rest) :
    Ends tokens (Proceeds tokens start) (accessors side budget base (⟨.dot, offset⟩ :: rest))
      (runFrom (accessorsAt tokens side (calls + 1) base) start) := by
  obtain ⟨hlt, hrest⟩ := drop_pass hleft
  rw [accessorsAt, runFrom_bind_ok (runFrom_peek tokens start), hleft]
  refine enter_andThen hbounded hlevels (fun hzero => by subst hzero; rfl) ?_
  intro below hbudget hclaimed hlevelsBelow
  change tokens.drop (start.claim (start.depth + 1)).pass.position = rest at hrest
  subst hbudget hrest
  rw [runFrom_bind_ok (runFrom_pass _)]
  cases hnext : tokens.drop (start.claim (start.depth + 1)).pass.position with
  | nil =>
    rw [runFrom_bind_error (runFrom_take_nil hnext)]
    exact .error hclaimed.pass.toLimited
  | cons follower rest =>
    obtain ⟨hnextLt, hrest⟩ := drop_pass hnext
    obtain ⟨token, place⟩ := follower
    rw [runFrom_bind_ok (runFrom_take_cons hnext)]
    cases token with
    | name key =>
      subst hrest
      refine ((hbelow below rfl).accessors (.field base key) calls hcalls _ hclaimed.pass.pass
        hlevelsBelow).mono (fun after hafter => ?_)
      exact ((proceeds_claim.trans (proceeds_pass hlt)).trans (proceeds_pass hnextLt)).trans hafter
    | _ => exact .error hclaimed.pass.pass.toLimited

/-- An element and the accessors behind it are followed if everything is with one level less. -/
theorem accessorsAt_openBracket
    (hbelow : ∀ below, budget = below + 1 → CountsWithin tokens side below cost) {calls : Nat}
    (hcalls : cost + 2 ≤ calls) {start : Count} (hbounded : start.Bounded)
    (hlevels : start.depth + budget = levels) (base : Operand) {offset : Nat} {rest : List Lexeme}
    (hleft : tokens.drop start.position = ⟨.openBracket, offset⟩ :: rest) :
    Ends tokens (Proceeds tokens start)
      (accessors side budget base (⟨.openBracket, offset⟩ :: rest))
      (runFrom (accessorsAt tokens side (calls + 1) base) start) := by
  obtain ⟨-, hrest⟩ := drop_pass hleft
  rw [accessorsAt, runFrom_bind_ok (runFrom_peek tokens start), hleft]
  refine enter_andThen hbounded hlevels (fun hzero => by subst hzero; rfl) ?_
  intro below hbudget hclaimed hlevelsBelow
  change tokens.drop (start.claim (start.depth + 1)).pass.position = rest at hrest
  subst hbudget hrest
  have hcost : cost ≤ calls := by omega
  rw [runFrom_bind_ok (runFrom_pass _), accessors]
  dsimp only
  refine ((hbelow below rfl).sum calls hcalls _ hclaimed.pass hlevelsBelow).andThen
    (fun cause hcause => ?_) ?_
  · rw [sum, term] at hcause
    rw [hcause]
  intro position middle hmiddle hcompletes hgiven
  rw [sum, term] at hgiven
  rw [hgiven]
  dsimp only
  refine takeOnly_andThen hmiddle (fun cause hcause => by rw [hcause]) ?_
  intro hclosing hclose
  rw [hclose]
  have hlevelsBehind : middle.pass.depth + below = levels := by
    rw [← hlevelsBelow, Count.pass, hcompletes.depth_eq, Count.pass]
  refine ((hbelow below rfl).accessors (.index base position) calls hcost middle.pass hmiddle.pass
    hlevelsBehind).mono (fun after hafter => ?_)
  exact (proceeds_claim.trans (hcompletes.of_pass.pass hclosing).proceeds).trans hafter

/-- Accessors are followed if everything is with one level less. -/
theorem accessorsAt_counts
    (hbelow : ∀ below, budget = below + 1 → CountsWithin tokens side below cost) (base : Operand) :
    Counts tokens budget (cost + tokens.length + 7) (Proceeds tokens) (accessors side budget base)
      (fun calls => accessorsAt tokens side calls base) := by
  intro outer houter start hbounded hlevels
  obtain ⟨calls, rfl⟩ : ∃ calls, outer = calls + 1 := ⟨outer - 1, by omega⟩
  have hcalls : cost + tokens.length + 6 ≤ calls := Nat.le_of_succ_le_succ houter
  cases hleft : tokens.drop start.position with
  | nil =>
    dsimp only
    rw [accessorsAt, runFrom_bind_ok (runFrom_peek tokens start), hleft]
    cases budget <;> exact ends_stay hbounded hleft
  | cons lexeme rest =>
    obtain ⟨token, offset⟩ := lexeme
    cases token with
    | dot => exact accessorsAt_dot hbelow (by omega) hbounded hlevels base hleft
    | openBracket => exact accessorsAt_openBracket hbelow (by omega) hbounded hlevels base hleft
    | _ =>
      dsimp only
      rw [accessorsAt, runFrom_bind_ok (runFrom_peek tokens start), hleft]
      cases budget <;> exact ends_stay hbounded hleft

/-- Further factors are followed if everything is with one level less. -/
theorem moreFactorsAt_counts
    (hbelow : ∀ below, budget = below + 1 → CountsWithin tokens side below cost) (left : Operand) :
    Counts tokens budget (cost + tokens.length + 7) (Proceeds tokens) (moreFactors side budget left)
      (fun calls => moreFactorsAt tokens side calls left) := by
  intro outer houter start hbounded hlevels
  obtain ⟨calls, rfl⟩ : ∃ calls, outer = calls + 1 := ⟨outer - 1, by omega⟩
  have hcalls : cost + tokens.length + 6 ≤ calls := Nat.le_of_succ_le_succ houter
  dsimp only
  rw [moreFactorsAt, runFrom_bind_ok (runFrom_peek tokens start)]
  cases hleft : tokens.drop start.position with
  | nil => cases budget <;> exact ends_stay hbounded hleft
  | cons lexeme rest =>
    obtain ⟨hlt, hrest⟩ := drop_pass hleft
    obtain ⟨token, offset⟩ := lexeme
    cases token with
    | operator operator =>
      dsimp only [List.head?_cons, Option.map_some]
      by_cases hsum : isSumOperator operator = true
      · rw [if_pos hsum]
        cases budget <;> simp only [moreFactors, hsum, if_true] <;>
          exact ends_stay hbounded hleft
      · rw [if_neg hsum]
        have hcost : cost ≤ calls := by omega
        refine ends_operator
          (fun calls right => moreFactorsAt tokens side calls (.arithmetic left operator right))
          hcost hbounded hlevels hleft (fun below hbudget => (hbelow below hbudget).factor)
          (fun below hbudget right => (hbelow below hbudget).moreFactors _) ?_ ?_
        · intro hzero
          subst hzero
          simp only [moreFactors, hsum, Bool.false_eq_true, if_false]
        · intro below hbudget
          subst hbudget
          simp only [moreFactors, hsum, Bool.false_eq_true, if_false]
          rfl
    | _ => cases budget <;> exact ends_stay hbounded hleft

/-- Further terms are followed if everything is with one level less. -/
theorem moreTermsAt_counts
    (hbelow : ∀ below, budget = below + 1 → CountsWithin tokens side below cost) (left : Operand) :
    Counts tokens budget (cost + tokens.length + 7) (Proceeds tokens) (moreTerms side budget left)
      (fun calls => moreTermsAt tokens side calls left) := by
  intro outer houter start hbounded hlevels
  obtain ⟨calls, rfl⟩ : ∃ calls, outer = calls + 1 := ⟨outer - 1, by omega⟩
  have hcalls : cost + tokens.length + 6 ≤ calls := Nat.le_of_succ_le_succ houter
  dsimp only
  rw [moreTermsAt, runFrom_bind_ok (runFrom_peek tokens start)]
  cases hleft : tokens.drop start.position with
  | nil => cases budget <;> exact ends_stay hbounded hleft
  | cons lexeme rest =>
    obtain ⟨hlt, hrest⟩ := drop_pass hleft
    obtain ⟨token, offset⟩ := lexeme
    cases token with
    | operator operator =>
      dsimp only [List.head?_cons, Option.map_some]
      by_cases hsum : isSumOperator operator = true
      · rw [if_pos hsum]
        have hcost : cost + 1 ≤ calls := by omega
        refine ends_operator
          (fun calls right => moreTermsAt tokens side calls (.arithmetic left operator right))
          hcost hbounded hlevels hleft (fun below hbudget => (hbelow below hbudget).term)
          (fun below hbudget right =>
            ((hbelow below hbudget).moreTerms _).mono (Nat.le_succ _)) ?_ ?_
        · intro hzero
          subst hzero
          simp only [moreTerms, hsum, if_true]
        · intro below hbudget
          subst hbudget
          simp only [moreTerms, hsum, if_true]
          rfl
      · rw [if_neg hsum]
        cases budget <;> simp only [moreTerms, hsum, Bool.false_eq_true, if_false] <;>
          exact ends_stay hbounded hleft
    | _ => cases budget <;> exact ends_stay hbounded hleft

/-- Factors are followed if everything is with one level less. -/
theorem factorAt_counts
    (hbelow : ∀ below, budget = below + 1 → CountsWithin tokens side below cost) :
    Counts tokens budget (cost + tokens.length + 7) (Completes tokens) (factor side budget)
      (factorAt tokens side) := by
  intro outer houter start hbounded hlevels
  obtain ⟨calls, rfl⟩ : ∃ calls, outer = calls + 1 := ⟨outer - 1, by omega⟩
  have hcalls : cost + tokens.length + 6 ≤ calls := Nat.le_of_succ_le_succ houter
  rw [factorAt]
  refine Ends.framed hbounded hlevels (fun hzero => by subst hzero; rfl) ?_
  intro below hbudget hinside hlevelsBelow
  subst hbudget
  have hpostfixed := (hbelow below rfl).postfixed calls hcalls start.inside hinside hlevelsBelow
  change Ends tokens (Completes tokens start.inside)
    (factor side (below + 1) (tokens.drop start.inside.position)) _
  rw [runFrom_bind_ok (runFrom_peek tokens start.inside)]
  cases hleft : tokens.drop start.inside.position with
  | nil =>
    rw [hleft] at hpostfixed
    exact hpostfixed
  | cons lexeme rest =>
    obtain ⟨-, hrest⟩ := drop_pass hleft
    obtain ⟨token, offset⟩ := lexeme
    rw [hleft] at hpostfixed
    cases token with
    | operator operator =>
      cases operator with
      | minus =>
        subst hrest
        dsimp only [List.head?_cons, Option.map_some]
        rw [runFrom_bind_ok (runFrom_pass start.inside), factor]
        dsimp only
        refine ((hbelow below rfl).factor calls (by omega) start.inside.pass hinside.pass
          hlevelsBelow).andThen (fun cause hcause => by rw [hcause]) ?_
        intro operand after hafter hcompletes hgiven
        rw [hgiven]
        exact .ok hafter hcompletes.of_pass
      | _ => exact hpostfixed
    | _ => exact hpostfixed

/-- Everything is followed if everything is with one level less. -/
theorem CountsWithin.above
    (hbelow : ∀ below, budget = below + 1 → CountsWithin tokens side below cost) :
    CountsWithin tokens side budget (cost + tokens.length + 7) :=
  ⟨factorAt_counts hbelow, accessorsAt_counts hbelow, moreFactorsAt_counts hbelow,
    moreTermsAt_counts hbelow⟩

/-- Everything is followed. A level costs as many calls as there are tokens, and seven more. -/
theorem countsWithin (tokens : List Lexeme) (side : Side) (budget : Nat) :
    CountsWithin tokens side budget ((budget + 1) * (tokens.length + 7)) := by
  induction budget with
  | zero =>
    have hbelow : ∀ below, 0 = below + 1 → CountsWithin tokens side below 0 := by omega
    have habove := CountsWithin.above hbelow
    rw [Nat.zero_add] at habove
    rw [Nat.zero_add, Nat.one_mul]
    exact habove
  | succ budget ih =>
    have hbelow : ∀ below, budget + 1 = below + 1 →
        CountsWithin tokens side below ((budget + 1) * (tokens.length + 7)) := by
      intro below hbudget
      rw [← Nat.succ.inj hbudget]
      exact ih
    rw [Nat.succ_mul, ← Nat.add_assoc]
    exact CountsWithin.above hbelow

end Parts

/-- The count at a position with some levels claimed, and some factors each holding one of these.
There were never more of either. -/
def Count.fresh (position depth pending : Nat) : Count :=
  ⟨position, depth, pending, pending, depth, pending, pending⟩

/-- A fresh count keeps to the limit if no more levels are claimed than it allows, with one for
every factor. -/
theorem Count.fresh_bounded {depth pending : Nat} (position : Nat) (hdepth : depth ≤ levels)
    (hpending : pending ≤ depth) : (fresh position depth pending).Bounded := by
  have hlimit : pending ≤ levels := Nat.le_trans hpending hdepth
  exact ⟨⟨hdepth, Nat.le_succ_of_le hlimit, hlimit⟩, rfl, hpending, hdepth⟩

/-- The nested calls that are enough for an operand. -/
def enoughCalls (tokens : List Lexeme) : Nat := (levels + 2) * (tokens.length + 7)

/-- As many calls as are enough for an operand are enough for each of its parts. -/
theorem cost_le_enoughCalls (tokens : List Lexeme) {budget : Nat} (hbudget : budget ≤ levels) :
    (budget + 1) * (tokens.length + 7) + tokens.length + 6 ≤ enoughCalls tokens := by
  have hmul : (budget + 2) * (tokens.length + 7) ≤ (levels + 2) * (tokens.length + 7) :=
    Nat.mul_le_mul_right _ (Nat.add_le_add_right hbudget 2)
  rw [Nat.succ_mul] at hmul
  rw [enoughCalls]
  omega

/-- Reading a side with a count gives what the reader of a side does, and keeps to the limit. -/
theorem allAt_counts (tokens : List Lexeme) (side : Side) {calls : Nat}
    (hcalls : enoughCalls tokens ≤ calls) :
    ∃ after : Count, after.Limited ∧
      runFrom (allAt tokens side calls) (.fresh 0 0 0) = some (ofLexemes side tokens, after) := by
  have hstart : (Count.fresh 0 0 0).Bounded :=
    Count.fresh_bounded 0 (Nat.zero_le _) (Nat.le_refl _)
  have hcost := cost_le_enoughCalls tokens (Nat.le_refl levels)
  have hsum := (countsWithin tokens side levels).sum calls (by omega) _ hstart (Nat.zero_add _)
  rw [allAt, ofLexemes]
  by_cases hempty : tokens.isEmpty = true
  · rw [if_pos hempty, if_pos hempty]
    exact ⟨_, hstart.toLimited, rfl⟩
  rw [if_neg hempty, if_neg hempty]
  change Ends tokens _ (sum side levels tokens) _ at hsum
  cases hgiven : sum side levels tokens with
  | error cause =>
    rw [hgiven] at hsum
    obtain ⟨after, hlimited, hrun⟩ := hsum.exists_of_error
    exact ⟨after, hlimited, runFrom_bind_error hrun _⟩
  | ok read =>
    obtain ⟨operand, rest⟩ := read
    rw [hgiven] at hsum
    obtain ⟨after, hafter, -, hrest, hrun⟩ := hsum.exists_of_ok
    refine ⟨after, hafter.toLimited, ?_⟩
    rw [runFrom_bind_ok hrun, runFrom_bind_ok (runFrom_get after), ← List.head?_drop, hrest]
    cases rest with
    | nil => rfl
    | cons lexeme rest => rfl

/-- Whatever the tokens are, wherever reading is in them and however many levels are claimed, as
long as the limit allows them, each part is read to an end with a count, if only enough calls may be
nested: with the error that the reader with the levels left gives, or with its value. A part that is
read puts the levels back just as they were, and takes off at least one token and no more than there
are. Nowhere on the way are there more levels claimed than the limit allows, nor more factors
holding one. Of factors begun and not ended there is at most one more, since a factor has begun
before it is refused its level. A whole side is read like that from its first token. -/
theorem counted_parts_complete (tokens : List Lexeme) (side : Side) (position depth pending : Nat)
    (hdepth : depth ≤ levels) (hpending : pending ≤ depth) {calls : Nat}
    (hcalls : enoughCalls tokens ≤ calls) :
    let start : Count := .fresh position depth pending
    let budget := levels - depth
    let left := tokens.drop position
    Ends tokens (Completes tokens start) (sum side budget left)
      (runFrom (sumAt tokens side calls) start) ∧
    Ends tokens (Completes tokens start) (term side budget left)
      (runFrom (termAt tokens side calls) start) ∧
    Ends tokens (Completes tokens start) (factor side budget left)
      (runFrom (factorAt tokens side calls) start) ∧
    Ends tokens (Completes tokens start)
      (continued (primary side (sum side budget)) (accessors side budget) left)
      (runFrom (postfixAt tokens side calls) start) ∧
    Ends tokens (Completes tokens start) (primary side (sum side budget) left)
      (runFrom (primaryAt tokens side calls) start) ∧
    Ends tokens (Completes tokens start) (arguments side (sum side budget) left)
      (runFrom (argumentsAt tokens side calls) start) ∧
    ∃ after : Count, after.Limited ∧
      runFrom (allAt tokens side calls) (.fresh 0 0 0) = some (ofLexemes side tokens, after) := by
  intro start budget left
  have hcounts := countsWithin tokens side budget
  have hbounded : start.Bounded := Count.fresh_bounded position hdepth hpending
  have hlevels : start.depth + budget = levels := Nat.add_sub_cancel' hdepth
  have hcost : (budget + 1) * (tokens.length + 7) + tokens.length + 6 ≤ enoughCalls tokens :=
    cost_le_enoughCalls tokens (Nat.sub_le levels depth)
  exact ⟨hcounts.sum calls (by omega) start hbounded hlevels,
    hcounts.term calls (by omega) start hbounded hlevels,
    hcounts.factor calls (by omega) start hbounded hlevels,
    hcounts.postfixed calls (by omega) start hbounded hlevels,
    hcounts.primary calls (by omega) start hbounded hlevels,
    argumentsAt_counts hcounts.sum calls (by omega) start hbounded hlevels,
    allAt_counts tokens side hcalls⟩

/-- The negative of an element, times a name, with 60 levels claimed before: the four levels left
are claimed for the negative, the element, its accessor and the position in it. All are put back.
With one level claimed more, the position is refused its level. -/
theorem counted_parts_complete_deep :
    let tokens : List Lexeme := [⟨.operator .minus, 0⟩, ⟨.name "rows", 1⟩, ⟨.openBracket, 5⟩,
      ⟨.name "place", 6⟩, ⟨.closeBracket, 11⟩, ⟨.operator .times, 13⟩, ⟨.name "factor", 15⟩]
    let negative : Operand := .negative (.index (.name "rows") (.name "place"))
    (60 ≤ levels ∧ 61 ≤ levels ∧ enoughCalls tokens ≤ 1000) ∧
    (∃ after : Count, after.Bounded ∧ after.depth = 60 ∧ after.pending = 60 ∧ after.position = 7 ∧
      runFrom (sumAt tokens .left 1000) (.fresh 0 60 60) =
        some (.ok (.arithmetic negative .times (.name "factor")), after)) ∧
    ∃ after : Count, after.Limited ∧
      runFrom (sumAt tokens .left 1000) (.fresh 0 61 61) =
        some (.error (.tooDeep .left levels), after) := by
  intro tokens negative
  have hcalls : enoughCalls tokens ≤ 1000 := by decide
  have hfits := (counted_parts_complete tokens .left 0 60 60 (by decide) (by decide) hcalls).1
  have hrefused := (counted_parts_complete tokens .left 0 61 61 (by decide) (by decide) hcalls).1
  have hread : sum .left (levels - 60) (tokens.drop 0) =
      .ok (.arithmetic negative .times (.name "factor"), []) := by rfl
  have hdeep : sum .left (levels - 61) (tokens.drop 0) = .error (.tooDeep .left levels) := by rfl
  rw [hread] at hfits
  rw [hdeep] at hrefused
  obtain ⟨after, hbounded, hcompletes, hrest, hrun⟩ := hfits.exists_of_ok
  have hlength : tokens.length ≤ after.position := List.drop_eq_nil_iff.mp hrest
  exact ⟨⟨by decide, by decide, hcalls⟩, ⟨after, hbounded, hcompletes.depth_eq,
    hcompletes.pending_eq, Nat.le_antisymm hcompletes.position_le hlength, hrun⟩,
    hrefused.exists_of_error⟩

/-- More factors are begun at once than there are levels: behind as many negations as there are
levels, which hold all of them, the literal is a factor that begins and is refused its level. -/
theorem levels_lt_busiest :
    let tokens : List Lexeme := (List.range 64).map (fun offset => ⟨.operator .minus, offset⟩) ++
      [⟨.literal (.ofNat 1), 64⟩]
    Lexeme.scan "----------------------------------------------------------------1==1" =
        .ok (tokens ++ [⟨.relation .equal, 65⟩, ⟨.literal (.ofNat 1), 67⟩]) ∧
      ∃ after : Count, runFrom (allAt tokens .left (enoughCalls tokens)) (.fresh 0 0 0) =
          some (.error (.tooDeep .left levels), after) ∧
        after.fullest = levels ∧ levels < after.busiest := by
  intro tokens
  have hscan : Lexeme.scan "----------------------------------------------------------------1==1" =
      .ok (tokens ++ [⟨.relation .equal, 65⟩, ⟨.literal (.ofNat 1), 67⟩]) := by
    decide +kernel
  have hmarks : (runFrom (allAt tokens .left (enoughCalls tokens)) (.fresh 0 0 0)).map
      (fun given => (given.2.fullest, given.2.busiest)) = some (levels, levels + 1) := by
    decide +kernel
  have hdeep : ofLexemes .left tokens = .error (.tooDeep .left levels) := by rfl
  obtain ⟨after, -, hrun⟩ := allAt_counts tokens .left (Nat.le_refl (enoughCalls tokens))
  rw [hrun] at hmarks
  obtain ⟨hfullest, hbusiest⟩ := Prod.mk.inj (Option.some.inj hmarks)
  rw [hdeep] at hrun
  have hlt : levels < after.busiest := by
    change after.busiest = levels + 1 at hbusiest
    omega
  exact ⟨hscan, after, hrun, hfullest, hlt⟩

end AccessControl.Operand
