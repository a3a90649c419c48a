import AccessControl.Proofs.Rule.Acceptance
import AccessControl.Proofs.Rule.Spelling
import Mathlib.Tactic.Ring

/-!
# How tall operands can be

An operand is taller than its parts by one. Whatever is wrapped around an operand claims a level,
but the levels of an operand are given back as soon as it is complete: accessors, operators of a
product and signs of a sum claim theirs anew around an operand that had used up its own. So the
limit on levels does not bound the height of an operand by the same number. The bound that there is
grows with the square of the levels, and there are rules of every height up to it.
-/

namespace AccessControl

namespace Operand

mutual

/-- The height of an operand: how many operations are nested in it. -/
def height : Operand → Nat
  | .literal _ => 0
  | .bag _ => 0
  | .name _ => 0
  | .field base _ => height base + 1
  | .index base position => max (height base) (height position) + 1
  | .call _ operands => greatestHeight operands + 1
  | .negative inner => height inner + 1
  | .arithmetic left _ right => max (height left) (height right) + 1

/-- The greatest height in a list of operands. -/
def greatestHeight : List Operand → Nat
  | [] => 0
  | operand :: rest => max (height operand) (greatestHeight rest)

end

/-- The greatest height of an operand that claims so many levels and has so many kinds of chains at
its top: a factor has one, its accessors, a term has the operators of a product as well, and a sum
has all three. Below its chains stands a call of a sum that claims one level less. -/
def tallest (chains : Nat) : (levels : Nat) → Nat
  | 0 => 0
  | levels + 1 => tallest 3 levels + chains * levels + 1

/-- One kind of chains more adds the levels but one. -/
theorem tallest_succ (chains levels : Nat) :
    tallest (chains + 1) levels = tallest chains levels + (levels - 1) := by
  cases levels with
  | zero => rfl
  | succ levels =>
    rw [tallest, tallest, Nat.add_mul]
    omega

/-- With more levels operands can be taller. -/
theorem tallest_mono (chains : Nat) {m n : Nat} (h : m ≤ n) :
    tallest chains m ≤ tallest chains n := by
  refine monotone_nat_of_le_succ (fun levels => ?_) h
  induction levels generalizing chains with
  | zero => exact Nat.zero_le _
  | succ levels ih =>
    have hinner := ih 3
    rw [tallest, tallest, Nat.mul_succ]
    omega

/-- The greatest height of a sum grows with the square of its levels. -/
theorem two_mul_tallest (levels : Nat) : 2 * tallest 3 levels + levels = 3 * levels ^ 2 := by
  induction levels with
  | zero => rfl
  | succ levels ih =>
    rw [tallest, add_sq]
    omega

/-- The greatest height of a sum as a function of its levels. -/
theorem tallest_eq (levels : Nat) : tallest 3 levels = levels * (3 * levels - 1) / 2 := by
  have hsquare := two_mul_tallest levels
  have hproduct : levels * (3 * levels - 1) = 3 * levels ^ 2 - levels := by
    rw [Nat.mul_sub, Nat.mul_one]
    ring_nf
  omega

/-- A link of a chain claims a level more than its right operand and than the rest of the chain. A
bound that covers both operands and the levels of the link covers, once it is raised by one, the
joined operand and the rest of the chain. -/
theorem joined_le {chains m n left right bound : Nat} (hleft : left ≤ bound)
    (hright : right ≤ tallest chains m) (hbound : tallest chains (max m n + 1) ≤ bound) :
    max left right + 1 ≤ bound + 1 ∧ tallest chains n ≤ bound + 1 := by
  have hm := tallest_mono chains (Nat.le_succ_of_le (Nat.le_max_left m n))
  have hn := tallest_mono chains (Nat.le_succ_of_le (Nat.le_max_right m n))
  exact ⟨Nat.succ_le_succ (Nat.max_le.mpr ⟨hleft, hright.trans (hm.trans hbound)⟩),
    Nat.le_succ_of_le (hn.trans hbound)⟩

/-- A factor claims a level. -/
theorem FactorTokens.levels_pos {n : Nat} {tokens : List Token} {operand : Operand}
    (h : FactorTokens n tokens operand) : 0 < n := by
  cases h <;> exact Nat.succ_pos _

/-- A term claims a level. -/
theorem TermTokens.levels_pos {n : Nat} {tokens : List Token} {operand : Operand}
    (h : TermTokens n tokens operand) : 0 < n := by
  cases h with
  | chain hfactor _ => exact Nat.lt_of_lt_of_le hfactor.levels_pos (Nat.le_max_left _ _)

mutual

/-- A sum is at most as tall as its levels allow. -/
theorem SumTokens.height_le {n : Nat} {tokens : List Token} {operand : Operand} :
    SumTokens n tokens operand → operand.height ≤ tallest 3 n
  | .chain (m := m) (n := n) hterm hothers => by
    have hleft := hterm.height_le.trans (tallest_mono 2 (Nat.le_max_left m n))
    have hsum := hothers.height_le hleft (tallest_mono 2 (Nat.le_max_right m n))
    rw [tallest_succ 2]
    omega

/-- Signs and terms behind an operand add their levels but one to a height that neither the operand
nor the terms exceed. -/
theorem FurtherTerms.height_le {n : Nat} {tokens : List Token} {left operand : Operand}
    {bound : Nat} : FurtherTerms n tokens left operand → left.height ≤ bound →
      tallest 2 n ≤ bound → operand.height ≤ bound + (n - 1)
  | .done, hleft, _ => hleft
  | .more _ hterm hothers, hleft, hbound => by
    have hpos := hterm.levels_pos
    obtain ⟨hjoined, hnext⟩ := joined_le hleft hterm.height_le hbound
    have hsum := hothers.height_le hjoined hnext
    omega

/-- A term is at most as tall as its levels allow. -/
theorem TermTokens.height_le {n : Nat} {tokens : List Token} {operand : Operand} :
    TermTokens n tokens operand → operand.height ≤ tallest 2 n
  | .chain (m := m) (n := n) hfactor hothers => by
    have hleft := hfactor.height_le.trans (tallest_mono 1 (Nat.le_max_left m n))
    have hterm := hothers.height_le hleft (tallest_mono 1 (Nat.le_max_right m n))
    rw [tallest_succ 1]
    omega

/-- Operators and factors behind an operand add their levels but one to a height that neither the
operand nor the factors exceed. -/
theorem FurtherFactors.height_le {n : Nat} {tokens : List Token} {left operand : Operand}
    {bound : Nat} : FurtherFactors n tokens left operand → left.height ≤ bound →
      tallest 1 n ≤ bound → operand.height ≤ bound + (n - 1)
  | .done, hleft, _ => hleft
  | .more _ hfactor hothers, hleft, hbound => by
    have hpos := hfactor.levels_pos
    obtain ⟨hjoined, hnext⟩ := joined_le hleft hfactor.height_le hbound
    have hterm := hothers.height_le hjoined hnext
    omega

/-- A factor is at most as tall as its levels allow. -/
theorem FactorTokens.height_le {n : Nat} {tokens : List Token} {operand : Operand} :
    FactorTokens n tokens operand → operand.height ≤ tallest 1 n
  | .negative (n := n) hinner => by
    have hheight := hinner.height_le
    have hterm : tallest 2 n = tallest 1 n + (n - 1) := tallest_succ 1 n
    have hsum : tallest 3 n = tallest 2 n + (n - 1) := tallest_succ 2 n
    rw [height, tallest]
    omega
  | .postfixed (m := m) (n := n) hbase hothers => by
    have hm := tallest_mono 3 (Nat.le_max_left m n)
    have hn := tallest_mono 3 (Nat.le_max_right m n)
    have hheight := hbase.height_le.trans (Nat.succ_le_succ hm)
    have hfactor := hothers.height_le hheight (Nat.le_succ_of_le hn)
    rw [tallest]
    omega

/-- Accessors add their levels to a height that neither the operand nor the positions exceed. -/
theorem AccessorTokens.height_le {n : Nat} {tokens : List Token} {base operand : Operand}
    {bound : Nat} : AccessorTokens n tokens base operand → base.height ≤ bound →
      tallest 3 n ≤ bound → operand.height ≤ bound + n
  | .done, hbase, _ => hbase
  | .field (n := n) hothers, hbase, hbound => by
    have hn := tallest_mono 3 (Nat.le_succ n)
    have hfactor := hothers.height_le (Nat.succ_le_succ hbase) (Nat.le_succ_of_le (hn.trans hbound))
    omega
  | .index hposition hothers, hbase, hbound => by
    obtain ⟨hjoined, hnext⟩ := joined_le hbase hposition.height_le hbound
    have hfactor := hothers.height_le hjoined hnext
    omega

/-- A primary operand is at most a call of a sum. -/
theorem PrimaryTokens.height_le {n : Nat} {tokens : List Token} {operand : Operand} :
    PrimaryTokens n tokens operand → operand.height ≤ tallest 3 n + 1
  | .literal => Nat.zero_le _
  | .bag _ => Nat.zero_le _
  | .name _ => Nat.zero_le _
  | .callOfNone _ => Nat.le_refl _
  | .call _ harguments => Nat.succ_le_succ harguments.height_le
  | .group hinner => Nat.le_succ_of_le hinner.height_le

/-- Arguments are at most as tall as their levels allow. -/
theorem ArgumentTokens.height_le {n : Nat} {tokens : List Token} {operands : List Operand} :
    ArgumentTokens n tokens operands → greatestHeight operands ≤ tallest 3 n
  | .last hsum => Nat.max_le.mpr ⟨hsum.height_le, Nat.zero_le _⟩
  | .more (m := m) (n := n) hsum hothers =>
    Nat.max_le.mpr ⟨hsum.height_le.trans (tallest_mono 3 (Nat.le_max_left m n)),
      hothers.height_le.trans (tallest_mono 3 (Nat.le_max_right m n))⟩

end

/-- The tokens that operands of every height can do with. -/
def scaffold : List Token :=
  [.literal (.ofNat 1), .name "a", .dot, .openParen, .closeParen, .operator .times, .operator .plus]

/-- A chain can have as many links as there are levels beside those that a link claims for its right
operand. The links of the chain are alike: each is wrapped around the operand before it. -/
theorem exists_chain (chain : Nat → List Token → Operand → Operand → Prop) (link : List Token)
    (beside : Nat) (wrap : Operand → Operand) (hlink : link ⊆ scaffold)
    (hwrap : ∀ left, (wrap left).height = left.height + 1)
    (hdone : ∀ left, chain 0 [] left left)
    (hmore : ∀ {m others left operand}, chain m others (wrap left) operand →
      chain (max beside m + 1) (link ++ others) left operand) (n : Nat) (left : Operand) :
    ∃ m ≤ n + beside, ∃ tokens operand, chain m tokens left operand ∧ tokens ⊆ scaffold ∧
      operand.height = left.height + n := by
  induction n generalizing left with
  | zero => exact ⟨0, Nat.zero_le _, [], left, hdone left, List.nil_subset _, rfl⟩
  | succ n ih =>
    obtain ⟨m, hm, tokens, operand, htokens, hsubset, hheight⟩ := ih (wrap left)
    refine ⟨_, ?_, _, operand, hmore htokens, List.append_subset.mpr ⟨hlink, hsubset⟩, ?_⟩
    · omega
    · rw [hheight, hwrap]
      omega

/-- Around a primary operand there can be all three kinds of chains, each with as many links as
there are levels, or with fewer. -/
theorem PrimaryTokens.exists_sumTokens {k n links : Nat} {tokens : List Token} {base : Operand}
    (h : PrimaryTokens k tokens base) (hk : k ≤ n) (htokens : tokens ⊆ scaffold)
    (hlinks : links ≤ 3 * n) :
    ∃ m ≤ n + 1, ∃ tokens operand, SumTokens m tokens operand ∧ tokens ⊆ scaffold ∧
      operand.height = base.height + links := by
  have hone : FactorTokens 1 [.literal (.ofNat 1)] (.literal (.ofNat 1)) :=
    .postfixed .literal .done
  have hnumber : TermTokens 1 [.literal (.ofNat 1)] (.literal (.ofNat 1)) := .chain hone .done
  have hjoined : ∀ left operator,
      (Operand.arithmetic left operator (.literal (.ofNat 1))).height = left.height + 1 := by
    intro left operator
    rw [height, height, Nat.max_zero]
  obtain ⟨i, hi, j, hj, k', hk', rfl⟩ : ∃ i ≤ n, ∃ j ≤ n, ∃ k ≤ n, links = i + j + k :=
    ⟨min links n, by omega, min (links - n) n, by omega, links - 2 * n, by omega, by omega⟩
  obtain ⟨m, hm, accessors, factor, haccessors, hfirst, hfactor⟩ :=
    exists_chain AccessorTokens [.dot, .name "a"] 0 (fun left => .field left "a")
      (by simp [scaffold]) (fun _ => rfl) (fun _ => .done)
      (fun hchain => by rw [Nat.zero_max]; exact .field hchain) i base
  obtain ⟨m', hm', factors, term, hfactors, hsecond, hterm⟩ :=
    exists_chain FurtherFactors [.operator .times, .literal (.ofNat 1)] 1
      (fun left => .arithmetic left .times (.literal (.ofNat 1)))
      (by simp [scaffold]) (fun left => hjoined left .times) (fun _ => .done)
      (fun hchain => .more rfl hone hchain) j factor
  obtain ⟨m'', hm'', terms, sum, hterms, hthird, hsum⟩ :=
    exists_chain FurtherTerms [.operator .plus, .literal (.ofNat 1)] 1
      (fun left => .arithmetic left .plus (.literal (.ofNat 1)))
      (by simp [scaffold]) (fun left => hjoined left .plus) (fun _ => .done)
      (fun hchain => .more rfl hnumber hchain) k' term
  refine ⟨_, ?_, _, sum, .chain (.chain (.postfixed h haccessors) hfactors) hterms, ?_, ?_⟩
  · omega
  · simp only [List.append_subset]
    exact ⟨⟨⟨htokens, hfirst⟩, hsecond⟩, hthird⟩
  · omega

/-- At every number of levels there are sums of every height up to the greatest. -/
theorem exists_sumTokens (n : Nat) {size : Nat} (hsize : size ≤ tallest 3 (n + 1)) :
    ∃ m ≤ n + 1, ∃ tokens operand,
      SumTokens m tokens operand ∧ tokens ⊆ scaffold ∧ operand.height = size := by
  have hword : Bag.ofWord? "a" = none := rfl
  have hone : PrimaryTokens 0 [.literal (.ofNat 1)] (.literal (.ofNat 1)) := .literal
  induction n generalizing size with
  | zero =>
    obtain rfl | rfl : size = 0 ∨ size = 1 := Nat.le_one_iff_eq_zero_or_eq_one.mp hsize
    · exact hone.exists_sumTokens (Nat.le_refl 0) (by simp [scaffold]) (Nat.zero_le _)
    · exact (PrimaryTokens.callOfNone hword).exists_sumTokens (Nat.le_refl 0) (by simp [scaffold])
        (Nat.zero_le _)
  | succ n ih =>
    obtain rfl | ⟨inner, links, hinner, hlinks, rfl⟩ : size = 0 ∨ ∃ inner links,
        inner ≤ tallest 3 (n + 1) ∧ links ≤ 3 * (n + 1) ∧ size = inner + 1 + links := by
      rw [tallest] at hsize
      exact or_iff_not_imp_left.mpr fun hpos => ⟨min (size - 1) (tallest 3 (n + 1)),
        size - 1 - tallest 3 (n + 1), by omega, by omega, by omega⟩
    · exact hone.exists_sumTokens (Nat.zero_le _) (by simp [scaffold]) (Nat.zero_le _)
    · obtain ⟨k, hk, argument, operand, hargument, hsubset, hheight⟩ := ih hinner
      have hcall : PrimaryTokens k _ (.call "a" [operand]) := .call hword (.last hargument)
      have hcallHeight : (Operand.call "a" [operand]).height = inner + 1 := by
        rw [height, greatestHeight, greatestHeight, hheight, Nat.max_zero]
      have hbrackets : [Token.name "a", .openParen, .closeParen] ⊆ scaffold := by simp [scaffold]
      have hscaffold : .name "a" :: .openParen :: (argument ++ [.closeParen]) ⊆ scaffold := by
        simp only [List.cons_subset, List.append_subset] at hbrackets ⊢
        exact ⟨hbrackets.1, hbrackets.2.1, hsubset, hbrackets.2.2⟩
      rw [← hcallHeight]
      exact hcall.exists_sumTokens hk hscaffold hlinks

/-- Tokens that have a spelling each are those of a text. -/
theorem exists_cuts {tokens : List Token}
    (h : ∀ token ∈ tokens, ∃ spelling, ∀ rest, Lexeme.Cuts spelling [token] (' ' :: rest)) :
    ∃ text, Lexeme.Cuts text tokens [] := by
  induction tokens with
  | nil => exact ⟨[], Lexeme.cuts_nil⟩
  | cons token others ih =>
    obtain ⟨⟨spelling, hspelling⟩, hothers⟩ := List.forall_mem_cons.mp h
    obtain ⟨text, htext⟩ := ih hothers
    have hblank := (Lexeme.cuts_blank (c := ' ') rfl (text ++ [])).cons htext
    exact ⟨_, (hspelling (text ++ [])).append hblank⟩

/-- The tokens of tall operands have spellings. -/
theorem exists_spelling_scaffold : ∀ token ∈ scaffold, ∃ spelling, ∀ rest,
    Lexeme.Cuts spelling [token] (' ' :: rest) := by
  have hname : Token.IsName "a" := ⟨⟨'a', [], rfl, rfl, List.forall_mem_nil _⟩, rfl⟩
  have hone : (Number.ofNat 1).IsLiteral := ⟨by decide, by decide⟩
  have hblank : ∀ rest, Token.Separated (' ' :: rest) := fun rest => ⟨rfl, nofun⟩
  simp only [scaffold, List.forall_mem_cons]
  refine ⟨⟨_, fun rest => Lexeme.cuts_number hone (hblank rest)⟩,
    ⟨_, fun rest => Lexeme.cuts_name hname (hblank rest)⟩,
    ⟨['.'], fun rest => Lexeme.cuts_sign rfl (fun _ => rfl)⟩,
    ⟨['('], fun rest => Lexeme.cuts_mark rfl (by decide) _⟩,
    ⟨[')'], fun rest => Lexeme.cuts_mark rfl (by decide) _⟩,
    ⟨_, fun rest => Lexeme.cuts_operator .times _⟩,
    ⟨_, fun rest => Lexeme.cuts_operator .plus _⟩, List.forall_mem_nil _⟩

end Operand

namespace Comparison

/-- The height of a comparison is that of the taller of its operands. -/
def height (comparison : Comparison) : Nat := max comparison.left.height comparison.right.height

/-- Whether a text is read as a comparison of which neither side claims more than so many levels. -/
def ParsesWithin (levels : Nat) (text : String) (comparison : Comparison) : Prop :=
  parse text = .ok comparison ∧ ∃ lexemes, Lexeme.scan text = .ok lexemes ∧
    ∃ m ≤ levels, ∃ n ≤ levels, IsComparison m n (lexemes.map Lexeme.token) comparison

/-- No side of a rule claims more levels than the limit. -/
theorem parsesWithin_levels_iff {text : String} {comparison : Comparison} :
    ParsesWithin Operand.levels text comparison ↔ parse text = .ok comparison := by
  refine ⟨And.left, fun hparse => ⟨hparse, ?_⟩⟩
  cases hscan : Lexeme.scan text with
  | error cause =>
    rw [parse, hscan] at hparse
    cases hparse
  | ok lexemes =>
    rw [parse_of_scan hscan] at hparse
    exact ⟨lexemes, rfl, ofLexemes_sound hparse⟩

/-- A comparison is at most as tall as the levels of its sides allow. -/
theorem ParsesWithin.height_le {levels : Nat} {text : String} {comparison : Comparison}
    (h : ParsesWithin levels text comparison) :
    comparison.height ≤ Operand.tallest 3 levels := by
  obtain ⟨-, lexemes, -, m, hm, n, hn, left, right, -, -, -, hleft, hright⟩ := h
  exact Nat.max_le.mpr ⟨hleft.height_le.trans (Operand.tallest_mono 3 hm),
    hright.height_le.trans (Operand.tallest_mono 3 hn)⟩

/-- Within so many levels there are rules of every height up to the greatest. -/
theorem exists_parsesWithin {n size : Nat} (hn : n + 1 ≤ Operand.levels)
    (hsize : size ≤ Operand.tallest 3 (n + 1)) :
    ∃ text comparison, ParsesWithin (n + 1) text comparison ∧ comparison.height = size := by
  obtain ⟨m, hm, tokens, operand, hsum, hsubset, hheight⟩ := Operand.exists_sumTokens n hsize
  have hone : Operand.SumTokens 1 [.literal (.ofNat 1)] (.literal (.ofNat 1)) :=
    .chain (.chain (.postfixed .literal .done) .done) .done
  have hspelled : ∀ token ∈ tokens ++ [.relation .equal, .literal (.ofNat 1)],
      ∃ spelling, ∀ rest, Lexeme.Cuts spelling [token] (' ' :: rest) := by
    simp only [List.forall_mem_append, List.forall_mem_cons]
    exact ⟨fun token hmem => Operand.exists_spelling_scaffold token (hsubset hmem),
      ⟨_, fun rest => Lexeme.cuts_relation .equal rest⟩,
      Operand.exists_spelling_scaffold _ (by simp [Operand.scaffold]), List.forall_mem_nil _⟩
  obtain ⟨text, htext⟩ := Operand.exists_cuts hspelled
  obtain ⟨lexemes, hscan, htokens⟩ := htext.scan
  have hfree : ∀ sign, .relation sign ∉ tokens := fun sign hmem => by
    have hscaffold := hsubset hmem
    simp [Operand.scaffold] at hscaffold
  have hcomparison : IsComparison m 1 (lexemes.map Lexeme.token)
      ⟨operand, .equal, .literal (.ofNat 1)⟩ :=
    ⟨tokens, [.literal (.ofNat 1)], htokens, hfree, by simp, hsum, hone⟩
  have hparse : parse (String.ofList text) = .ok ⟨operand, .equal, .literal (.ofNat 1)⟩ := by
    rw [parse_of_isComparison hscan hcomparison, if_pos (hm.trans hn), if_pos (by decide)]
  refine ⟨String.ofList text, ⟨operand, .equal, .literal (.ofNat 1)⟩,
    ⟨hparse, lexemes, hscan, m, hm, 1, Nat.le_add_left 1 n, hcomparison⟩, ?_⟩
  rw [height, hheight, Operand.height, Nat.max_zero]

/-- How tall rules can be, by the levels that their sides claim. Every rule claims levels within the
limit. Within `n` levels there are rules of every height up to `n * (3 * n - 1) / 2` and of no other
one, and so only up to six levels all rules are at most as tall as the limit on levels. -/
theorem heights_of_parsesWithin {n : Nat} (hpos : 0 < n) (hlimit : n ≤ Operand.levels) :
    (∀ text comparison,
        ParsesWithin Operand.levels text comparison ↔ parse text = .ok comparison) ∧
      (∀ size, (∃ text comparison, ParsesWithin n text comparison ∧ comparison.height = size) ↔
        size ≤ n * (3 * n - 1) / 2) ∧
      ((∀ text comparison, ParsesWithin n text comparison → comparison.height ≤ Operand.levels) ↔
        n ≤ 6) := by
  have hheights : ∀ size,
      (∃ text comparison, ParsesWithin n text comparison ∧ comparison.height = size) ↔
        size ≤ Operand.tallest 3 n := by
    intro size
    obtain ⟨n, rfl⟩ := Nat.exists_eq_add_one.mpr hpos
    refine ⟨?_, exists_parsesWithin hlimit⟩
    rintro ⟨text, comparison, hparse, rfl⟩
    exact hparse.height_le
  refine ⟨fun _ _ => parsesWithin_levels_iff, ?_, ?_⟩
  · rw [← Operand.tallest_eq]
    exact hheights
  · constructor
    · intro hall
      by_contra hseven
      have hsize : Operand.levels + 1 ≤ Operand.tallest 3 n :=
        le_trans (by decide) (Operand.tallest_mono 3 (Nat.lt_of_not_le hseven))
      obtain ⟨text, comparison, hparse, hheight⟩ := (hheights _).mpr hsize
      exact absurd (hall text comparison hparse) (by omega)
    · intro hsix text comparison hparse
      exact hparse.height_le.trans ((Operand.tallest_mono 3 hsix).trans (by decide))

/-- Within all of the levels rules can have a height of 6112, and within six none is too tall. -/
theorem heights_of_parsesWithin_levels :
    (∀ size, (∃ text comparison, parse text = .ok comparison ∧ comparison.height = size) ↔
        size ≤ 6112) ∧
      ∀ text comparison, ParsesWithin 6 text comparison → comparison.height ≤ Operand.levels := by
  obtain ⟨hparses, hheights, -⟩ :=
    heights_of_parsesWithin (by decide : 0 < Operand.levels) (Nat.le_refl _)
  simp only [hparses] at hheights
  exact ⟨hheights, (heights_of_parsesWithin (by decide) (by decide)).2.2.mpr (Nat.le_refl 6)⟩

/-- A rule whose left operand is taller than the limit on levels: negations take up all the levels,
and two operators of a product are put behind them. -/
theorem levels_lt_height :
    ∃ comparison, parse
        "---------------------------------------------------------------1*1*1==1" =
          .ok comparison ∧
      Operand.levels < comparison.left.height := by
  have hscan : Lexeme.scan
      "---------------------------------------------------------------1*1*1==1" =
      .ok ((List.range 63).map (fun offset => ⟨.operator .minus, offset⟩) ++
        [⟨.literal (.ofNat 1), 63⟩, ⟨.operator .times, 64⟩, ⟨.literal (.ofNat 1), 65⟩,
          ⟨.operator .times, 66⟩, ⟨.literal (.ofNat 1), 67⟩, ⟨.relation .equal, 68⟩,
          ⟨.literal (.ofNat 1), 70⟩]) := by
    decide +kernel
  have hparse : parse
      "---------------------------------------------------------------1*1*1==1" =
      .ok ⟨.arithmetic (.arithmetic (Nat.repeat Operand.negative 63 (.literal (.ofNat 1))) .times
          (.literal (.ofNat 1))) .times (.literal (.ofNat 1)),
        .equal, .literal (.ofNat 1)⟩ := by
    rw [parse_of_scan hscan]
    rfl
  exact ⟨_, hparse, by decide +kernel⟩

end Comparison

end AccessControl
