import AccessControl.Proofs.Expression.Completeness

/-!
# Text and tree agree

An expression is kept as a text and a tree, and joining two expressions joins both. The tree of the
joined text is the join of the trees, since the grammar resumes behind the connective where the left
text ends. Hence every expression that is composed of texts and references by joining is the one
that its own text is read as, whether it can be read or not.
-/

namespace AccessControl

namespace Disjunction

/-- Behind a clause that is not the last one, the seam is that of the other clauses. -/
theorem seam_cons (clause : List Atom) {left right : Disjunction} (hleft : left ≠ [])
    (hright : right ≠ []) : seam (clause :: left) right = clause :: seam left right := by
  obtain ⟨next, left, rfl⟩ := List.exists_cons_of_ne_nil hleft
  obtain ⟨first, right, rfl⟩ := List.exists_cons_of_ne_nil hright
  rw [seam]
  · exact List.cons_ne_nil _ _
  · exact fun _ _ _ => List.cons_ne_nil _ _

/-- The clauses before the seam and those behind it stay, and those at the seam become one. -/
theorem seam_append (front back : Disjunction) (last first : List Atom) :
    seam (front ++ [last]) (first :: back) = front ++ (last ++ first) :: back := by
  induction front with
  | nil => rfl
  | cons clause rest ih =>
    rw [List.cons_append, seam_cons clause (by simp) (List.cons_ne_nil _ _), ih, List.cons_append]

/-- The atoms of joined expressions are those of both, in order. -/
theorem flatten_join (connective : Connective) {left right : Disjunction} (hleft : left ≠ []) :
    (join connective left right).flatten = left.flatten ++ right.flatten := by
  cases connective with
  | or => exact List.flatten_append
  | and =>
    rw [join]
    induction left with
    | nil => exact absurd rfl hleft
    | cons clause rest ih =>
      cases right with
      | nil => rw [seam, List.flatten_nil, List.append_nil]; exact hleft
      | cons first others =>
        by_cases hrest : rest = []
        · subst hrest
          simp only [seam, List.flatten_cons, List.flatten_nil, List.append_nil, List.append_assoc]
        · rw [seam_cons clause hrest (List.cons_ne_nil _ _), List.flatten_cons, ih hrest,
            List.flatten_cons (l := clause), List.append_assoc]

/-- Joined expressions nest as deep as the deeper of both. -/
theorem depth_join_le {connective : Connective} {left right : Disjunction} {bound : Nat}
    (hne : left ≠ []) (hleft : left.depth ≤ bound) (hright : right.depth ≤ bound) :
    (join connective left right).depth ≤ bound := by
  simp only [depth, Atom.clausesDepth_le_iff] at hleft hright ⊢
  intro clause hclause atom hatom
  have hmem := List.mem_flatten_of_mem hclause hatom
  rw [flatten_join connective hne, List.mem_append] at hmem
  rcases hmem with hmem | hmem
  · obtain ⟨other, hother, hin⟩ := List.mem_flatten.mp hmem
    exact hleft other hother atom hin
  · obtain ⟨other, hother, hin⟩ := List.mem_flatten.mp hmem
    exact hright other hother atom hin

end Disjunction

namespace Expression

/-- Two texts of clauses with `&&` between them are one, in which the clauses at the seam are
one. -/
theorem clausesText_seam {text blanks rest : List Char} {left right : Disjunction}
    (hleft : ClausesText text left) (hblank : Blank blanks) (hright : ClausesText rest right) :
    ClausesText (text ++ (blanks ++ (Connective.and.spelling ++ rest)))
      (Disjunction.seam left right) := by
  induction hleft with
  | single hclause =>
    cases hright with
    | single hother => exact .single (hclause.append hblank hother)
    | more hother hbetween hothers =>
      have hchain := Chained.more (hclause.append hblank hother) hbetween hothers
      simpa only [Disjunction.seam, List.append_assoc] using hchain
  | more hclause hfirst hclauses ih =>
    rw [Disjunction.seam_cons _ hclauses.ne_nil hright.ne_nil]
    simp only [List.append_assoc]
    exact .more hclause hfirst ih

/-- Two texts that spell trees spell the join of the trees, with the connective between them. -/
theorem Spells.join {text rest : List Char} {left right : Disjunction} (connective : Connective)
    (hleft : Spells text left) (hright : Spells rest right) :
    Spells (text ++ (connective.spelling ++ rest)) (left.join connective right) := by
  obtain ⟨body, blanks, rfl, hbody, hblank⟩ := hleft
  obtain ⟨other, behind, rfl, hother, hbehind⟩ := hright
  refine ⟨body ++ (blanks ++ (connective.spelling ++ other)), behind, ?_, ?_, hbehind⟩
  · simp only [List.append_assoc]
  · cases connective with
    | or => exact hbody.append hblank hother
    | and => exact clausesText_seam hbody hblank hother

/-- A tree that is spelled has a clause. -/
theorem Spells.ne_nil {text : List Char} {tree : Disjunction} (h : Spells text tree) :
    tree ≠ [] := by
  obtain ⟨_, _, _, hbody, _⟩ := h
  exact hbody.ne_nil

/-- Reading a joined text gives the join of the trees that its halves are read as. -/
theorem treeOf_join {text rest : List Char} {left right : Disjunction} (connective : Connective)
    (hleft : treeOf text = .ok left) (hright : treeOf rest = .ok right) :
    treeOf (text ++ (connective.spelling ++ rest)) = .ok (left.join connective right) := by
  obtain ⟨hspells, hdepth⟩ := treeOf_sound hleft
  obtain ⟨hother, hbound⟩ := treeOf_sound hright
  exact treeOf_eq_ok_iff.mpr ⟨hspells.join connective hother,
    Disjunction.depth_join_le hspells.ne_nil hdepth hbound⟩

/-- The tree of an expression is what its text is read as. -/
def TextAgrees (expression : Expression) : Prop :=
  expression.tree = treeOf expression.text.toList

/-- An expression agrees with its text just where it is the expression of this text. -/
theorem textAgrees_iff {expression : Expression} :
    expression.TextAgrees ↔ expression = parse expression.text := by
  constructor
  · intro h
    cases expression
    exact congrArg _ h
  · intro h
    rw [h]
    rfl

/-- The expression of a text agrees with it. -/
theorem textAgrees_parse (text : String) : (parse text).TextAgrees := rfl

/-- A reference to a bare name agrees with its text. -/
theorem textAgrees_referTo {name : String} (h : IsBareName name.toList) :
    (referTo name).TextAgrees := by
  have href : ReferenceText ('d' :: 'a' :: 't' :: 'a' :: '.' :: name.toList) name := by
    simpa only [String.ofList_toList] using ReferenceText.bare h
  have htext : (referTo name).text.toList = 'd' :: 'a' :: 't' :: 'a' :: '.' :: name.toList := by
    rw [referTo, String.toList_append]
    rfl
  have hblank : Blank [] := List.forall_mem_nil _
  have hspells : Spells (referTo name).text.toList [[.reference name]] := by
    rw [htext]
    exact ⟨_, [], (List.append_nil _).symm, .single (.single (.reference hblank href)), hblank⟩
  exact (treeOf_eq_ok_iff.mpr ⟨hspells, Nat.zero_le _⟩).symm

/-- The characters of two texts with a connective between them. -/
theorem toList_joined (left right : String) (connective : Connective) :
    (left ++ connective.symbol ++ right).toList =
      left.toList ++ (connective.spelling ++ right.toList) := by
  rw [String.toList_append, String.toList_append, Connective.symbol, String.toList_ofList,
    List.append_assoc]

/-- The text of joined expressions is that of both with the connective between them. -/
theorem concat_text (left right : Expression) (connective : Connective) :
    (left.concat connective right).text = left.text ++ connective.symbol ++ right.text := by
  rw [concat]
  split <;> rfl

/-- Joining expressions that agree with their texts gives one that does. -/
theorem TextAgrees.concat {left right : Expression} (hleft : left.TextAgrees)
    (hright : right.TextAgrees) (connective : Connective) :
    (left.concat connective right).TextAgrees := by
  rw [TextAgrees, concat_text, toList_joined, Expression.concat]
  split
  case h_1 first second hfirst hsecond =>
    exact (treeOf_join connective (hleft ▸ hfirst) (hright ▸ hsecond)).symm
  case h_2 => exact congrArg treeOf (toList_joined left.text right.text connective)

/-- Whether the text of an expression spells nothing. -/
def malformed (expression : Expression) : Bool := expression.error?.isSome

/-- An expression is malformed just where it has no tree. -/
theorem malformed_eq_false_iff {expression : Expression} :
    expression.malformed = false ↔ ∃ tree, expression.tree = .ok tree := by
  rw [malformed, error?]
  cases expression.tree with
  | error cause => simp
  | ok tree => simp

/-- An expression that agrees with its text is malformed just where the text is not read. -/
theorem TextAgrees.malformed_eq_false_iff {expression : Expression} (h : expression.TextAgrees) :
    expression.malformed = false ↔ ∃ tree, treeOf expression.text.toList = .ok tree := by
  rw [Expression.malformed_eq_false_iff, h]

/-- The expressions that are composed of texts and of references to bare names by joining. -/
inductive Composed : Expression → Prop where
  /-- The expression of any text. -/
  | parse (text : String) : Composed (.parse text)
  /-- A reference to a bare name. -/
  | referTo {name : String} : IsBareName name.toList → Composed (.referTo name)
  /-- Two composed expressions, joined. -/
  | concat {left right : Expression} (connective : Connective) : Composed left → Composed right →
    Composed (left.concat connective right)

/-- A composed expression is the one that its own text is read as. -/
theorem composed_eq_parse {expression : Expression} (h : Composed expression) :
    expression = parse expression.text := by
  rw [← textAgrees_iff]
  induction h with
  | parse text => exact textAgrees_parse text
  | referTo hname => exact textAgrees_referTo hname
  | concat connective _ _ hleft hright => exact hleft.concat hright connective

/-- Two halves of a group, which complete each other, joined with a reference. -/
theorem composed_eq_parse_halves :
    Composed (((parse "(data.a").concat .and (parse "data.b)")).concat .or (referTo "_c")) ∧
      ((parse "(data.a").concat .and (parse "data.b)")).concat .or (referTo "_c") =
        parse "(data.a&&data.b)||data._c" := by
  have hname : IsBareName "_c".toList := by
    have hunderscore : isBare '_' = true := by decide +kernel
    have hletter : isBare 'c' = true := by decide +kernel
    exact ⟨List.cons_ne_nil _ _, List.forall_mem_cons.mpr
      ⟨hunderscore, List.forall_mem_singleton.mpr hletter⟩⟩
  have hcomposed : Composed
      (((parse "(data.a").concat .and (parse "data.b)")).concat .or (referTo "_c")) :=
    .concat .or (.concat .and (.parse _) (.parse _)) (.referTo hname)
  have htext : (((parse "(data.a").concat .and (parse "data.b)")).concat .or (referTo "_c")).text =
      "(data.a&&data.b)||data._c" := by
    rw [concat_text, concat_text]
    rfl
  exact ⟨hcomposed, (composed_eq_parse hcomposed).trans (congrArg parse htext)⟩

end Expression

end AccessControl
