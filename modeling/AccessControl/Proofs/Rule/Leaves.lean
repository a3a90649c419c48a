import AccessControl.Proofs.Rule.Language

/-!
# The leaves of operands

Whatever holds of the tokens of an operand holds of the tokens that its leaves were read from, and
none of the names that an operand needs is that of an attribute bag, for such a name is read as the
bag.
-/

namespace AccessControl.Operand

variable {p : Token → Prop}

mutual

/-- Whether the literals, names and fields of an operand are tokens with a property, and no name is
that of a bag. -/
def MadeOf (p : Token → Prop) : Operand → Prop
  | .literal value => p (.literal value)
  | .bag _ => True
  | .name word => Bag.ofWord? word = none ∧ p (.name word)
  | .field base key => MadeOf p base ∧ p (.name key)
  | .index base position => MadeOf p base ∧ MadeOf p position
  | .call function operands => (Bag.ofWord? function = none ∧ p (.name function)) ∧
      AllMadeOf p operands
  | .negative inner => MadeOf p inner
  | .arithmetic left _ right => MadeOf p left ∧ MadeOf p right

/-- Whether this is so of all operands of a list. -/
def AllMadeOf (p : Token → Prop) : List Operand → Prop
  | [] => True
  | operand :: rest => MadeOf p operand ∧ AllMadeOf p rest

end

mutual

/-- The leaves of a sum are among its tokens. -/
theorem SumTokens.madeOf {n : Nat} {tokens : List Token} {operand : Operand} :
    SumTokens n tokens operand → (∀ token ∈ tokens, p token) → MadeOf p operand
  | .chain hterm hothers, h =>
    hothers.madeOf (List.forall_mem_append.mp h).2 (hterm.madeOf (List.forall_mem_append.mp h).1)

/-- Further terms add leaves that are among their tokens. -/
theorem FurtherTerms.madeOf {n : Nat} {tokens : List Token} {left operand : Operand} :
    FurtherTerms n tokens left operand → (∀ token ∈ tokens, p token) → MadeOf p left →
      MadeOf p operand
  | .done, _, hleft => hleft
  | .more _ hterm hothers, h, hleft =>
    have hbehind := List.forall_mem_append.mp (List.forall_mem_cons.mp h).2
    hothers.madeOf hbehind.2 ⟨hleft, hterm.madeOf hbehind.1⟩

/-- The leaves of a term are among its tokens. -/
theorem TermTokens.madeOf {n : Nat} {tokens : List Token} {operand : Operand} :
    TermTokens n tokens operand → (∀ token ∈ tokens, p token) → MadeOf p operand
  | .chain hfactor hothers, h =>
    hothers.madeOf (List.forall_mem_append.mp h).2 (hfactor.madeOf (List.forall_mem_append.mp h).1)

/-- Further factors add leaves that are among their tokens. -/
theorem FurtherFactors.madeOf {n : Nat} {tokens : List Token} {left operand : Operand} :
    FurtherFactors n tokens left operand → (∀ token ∈ tokens, p token) → MadeOf p left →
      MadeOf p operand
  | .done, _, hleft => hleft
  | .more _ hfactor hothers, h, hleft =>
    have hbehind := List.forall_mem_append.mp (List.forall_mem_cons.mp h).2
    hothers.madeOf hbehind.2 ⟨hleft, hfactor.madeOf hbehind.1⟩

/-- The leaves of a factor are among its tokens. -/
theorem FactorTokens.madeOf {n : Nat} {tokens : List Token} {operand : Operand} :
    FactorTokens n tokens operand → (∀ token ∈ tokens, p token) → MadeOf p operand
  | .negative hinner, h => hinner.madeOf (List.forall_mem_cons.mp h).2
  | .postfixed hbase hothers, h =>
    hothers.madeOf (List.forall_mem_append.mp h).2 (hbase.madeOf (List.forall_mem_append.mp h).1)

/-- Accessors add leaves that are among their tokens. -/
theorem AccessorTokens.madeOf {n : Nat} {tokens : List Token} {base operand : Operand} :
    AccessorTokens n tokens base operand → (∀ token ∈ tokens, p token) → MadeOf p base →
      MadeOf p operand
  | .done, _, hbase => hbase
  | .field hothers, h, hbase =>
    have hbehind := List.forall_mem_cons.mp (List.forall_mem_cons.mp h).2
    hothers.madeOf hbehind.2 ⟨hbase, hbehind.1⟩
  | .index hposition hothers, h, hbase =>
    have hbehind := List.forall_mem_append.mp (List.forall_mem_cons.mp h).2
    hothers.madeOf (List.forall_mem_cons.mp hbehind.2).2 ⟨hbase, hposition.madeOf hbehind.1⟩

/-- The leaves of a primary operand are among its tokens. -/
theorem PrimaryTokens.madeOf {n : Nat} {tokens : List Token} {operand : Operand} :
    PrimaryTokens n tokens operand → (∀ token ∈ tokens, p token) → MadeOf p operand
  | .literal, h => (List.forall_mem_cons.mp h).1
  | .bag _, _ => trivial
  | .name hword, h => ⟨hword, (List.forall_mem_cons.mp h).1⟩
  | .callOfNone hword, h => ⟨⟨hword, (List.forall_mem_cons.mp h).1⟩, trivial⟩
  | .call hword harguments, h =>
    have hbehind := List.forall_mem_cons.mp (List.forall_mem_cons.mp h).2
    ⟨⟨hword, (List.forall_mem_cons.mp h).1⟩,
      harguments.madeOf (List.forall_mem_append.mp hbehind.2).1⟩
  | .group hinner, h => hinner.madeOf (List.forall_mem_append.mp (List.forall_mem_cons.mp h).2).1

/-- The leaves of arguments are among their tokens. -/
theorem ArgumentTokens.madeOf {n : Nat} {tokens : List Token} {operands : List Operand} :
    ArgumentTokens n tokens operands → (∀ token ∈ tokens, p token) → AllMadeOf p operands
  | .last hsum, h => ⟨hsum.madeOf h, trivial⟩
  | .more hsum hothers, h =>
    have hparts := List.forall_mem_append.mp h
    ⟨hsum.madeOf hparts.1, hothers.madeOf (List.forall_mem_cons.mp hparts.2).2⟩

end

mutual

/-- No name that an operand needs is that of a bag. -/
theorem MadeOf.ofWord?_eq_none : {operand : Operand} → MadeOf p operand →
    ∀ name ∈ operand.names, Bag.ofWord? name = none
  | .literal _, _ => List.forall_mem_nil _
  | .bag _, _ => List.forall_mem_nil _
  | .name _, h => List.forall_mem_singleton.mpr h.1
  | .field _ _, h => h.1.ofWord?_eq_none
  | .index _ _, h =>
    List.forall_mem_append.mpr ⟨h.1.ofWord?_eq_none, h.2.ofWord?_eq_none⟩
  | .call _ _, h => List.forall_mem_cons.mpr ⟨h.1.1, AllMadeOf.ofWord?_eq_none h.2⟩
  | .negative inner, h => (show MadeOf p inner from h).ofWord?_eq_none
  | .arithmetic _ _ _, h =>
    List.forall_mem_append.mpr ⟨h.1.ofWord?_eq_none, h.2.ofWord?_eq_none⟩

/-- No name that a list of operands needs is that of a bag. -/
theorem AllMadeOf.ofWord?_eq_none : {operands : List Operand} → AllMadeOf p operands →
    ∀ name ∈ namesOfAll operands, Bag.ofWord? name = none
  | [], _ => List.forall_mem_nil _
  | _ :: _, h => List.forall_mem_append.mpr ⟨h.1.ofWord?_eq_none, AllMadeOf.ofWord?_eq_none h.2⟩

end

end AccessControl.Operand
