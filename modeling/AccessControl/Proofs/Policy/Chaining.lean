import AccessControl.Proofs.Policy.Merging

/-!
# Chains of single target policies

Single target policies are merged from left to right, one after the other. A merge by `and` attaches
the next one to the last clause of the expression and a merge by `or` opens a clause for it, so the
clauses are the runs of the sequence between its cuts at `or`. Under distinct names every reference
keeps the target policy that it was made for, however many merges follow, and so the chain grants
where all policies of some run do.
-/

namespace AccessControl

namespace Connective

variable {α : Type}

/-- The runs of a sequence with connectives, cut at every `or`. The first run has begun already. -/
def runsFrom (run : List α) : List (Connective × α) → List (List α)
  | [] => [run]
  | (.and, next) :: rest => runsFrom (run ++ [next]) rest
  | (.or, next) :: rest => run :: runsFrom [next] rest

/-- The runs of a sequence with connectives, cut at every `or`. -/
def runs (first : α) (further : List (Connective × α)) : List (List α) := runsFrom [first] further

/-- Cutting loses nothing and keeps the order. -/
theorem flatten_runsFrom (run : List α) (further : List (Connective × α)) :
    (runsFrom run further).flatten = run ++ further.map Prod.snd := by
  induction further generalizing run with
  | nil => rw [runsFrom, List.flatten_singleton, List.map_nil, List.append_nil]
  | cons step rest ih =>
    obtain ⟨connective, next⟩ := step
    cases connective with
    | and => rw [runsFrom, ih, List.append_assoc, List.singleton_append, List.map_cons]
    | or => rw [runsFrom, List.flatten_cons, ih, List.singleton_append, List.map_cons]

/-- What stands in a run is one of the sequence. -/
theorem mem_of_mem_runs {first x : α} {further : List (Connective × α)} {run : List α}
    (hrun : run ∈ runs first further) (hx : x ∈ run) : x ∈ first :: further.map Prod.snd := by
  rw [← List.singleton_append, ← flatten_runsFrom]
  exact List.mem_flatten.mpr ⟨run, hrun, hx⟩

end Connective

namespace Policy

/-- What a single target policy is built from. -/
structure Sole where
  /-- The generated name. -/
  name : String
  /-- The declaration. -/
  spec : TargetSpec
  /-- The registry that the rules are compiled over. -/
  registry : Registry
  /-- Whether failing rules are reported. -/
  logging : Bool
  /-- Whether problems with the expression are reported. -/
  reporting : Bool

namespace Sole

/-- The policy. -/
def policy (sole : Sole) : Policy :=
  (single sole.name sole.spec sole.registry sole.logging).withLogging sole.reporting

/-- The target policy under its name. -/
def entry (sole : Sole) : String × TargetPolicy :=
  (sole.name, .compile sole.spec sole.registry sole.logging)

/-- The reference to the target policy. -/
def reference (sole : Sole) : Atom := .reference sole.name

/-- A single target policy grants where its target policy does. -/
theorem check_policy (sole : Sole) (attributes : Attributes) :
    sole.policy.check attributes = (sole.entry.2.evaluate attributes).value := by
  have htree : sole.policy.expression.tree = .ok [[sole.reference]] := rfl
  have hresults : (sole.policy.results attributes).get? sole.name =
      some (sole.entry.2.evaluate attributes).value := by
    rw [results, NameMap.get?_mapValues]
    exact congrArg _ ((NameMap.get?_insert _ _ _ _).trans (if_pos rfl))
  rw [check_of_tree htree, Disjunction.holds, Atom.anyHolds, Atom.allHold, reference, Atom.holds,
    hresults, Atom.allHold, Atom.anyHolds, Option.getD_some, Bool.and_true, Bool.or_false]

end Sole

/-- A policy merged with single target policies, one after the other from left to right. -/
def chained (start : Policy) (further : List (Connective × Sole)) : Policy :=
  further.foldl (fun policy step => policy.merge step.1 step.2.policy) start

/-- A chain has the target policies that it was built from. -/
theorem targets_chained (start : Policy) (further : List (Connective × Sole)) :
    (start.chained further).targets =
      start.targets.insertAll (further.map (fun step => step.2.entry)) := by
  induction further generalizing start with
  | nil => rfl
  | cons step rest ih =>
    have hstep : start.chained (step :: rest) =
        (start.merge step.1 step.2.policy).chained rest := rfl
    rw [hstep, ih]
    rfl

/-- The clauses of a chain are its runs, the first of which goes on with the last clause before. -/
theorem tree_chained {start : Policy} {front : Disjunction} {run : List Sole}
    (h : start.expression.tree = .ok (front ++ [run.map Sole.reference]))
    (further : List (Connective × Sole)) :
    (start.chained further).expression.tree =
      .ok (front ++ (Connective.runsFrom run further).map (List.map Sole.reference)) := by
  induction further generalizing start front run with
  | nil => exact h
  | cons step rest ih =>
    obtain ⟨connective, next⟩ := step
    have hstep : start.chained ((connective, next) :: rest) =
        (start.merge connective next.policy).chained rest := rfl
    have hmerged : (start.merge connective next.policy).expression.tree =
        .ok (Disjunction.join connective (front ++ [run.map Sole.reference])
          [[next.reference]]) := by
      rw [merge, Expression.concat, h]
      rfl
    cases connective with
    | and =>
      have htree : (start.merge .and next.policy).expression.tree =
          .ok (front ++ [(run ++ [next]).map Sole.reference]) := by
        rw [hmerged, Disjunction.join, Disjunction.seam_append, List.map_append]
        rfl
      rw [hstep, ih htree, Connective.runsFrom]
    | or =>
      have htree : (start.merge .or next.policy).expression.tree =
          .ok ((front ++ [run.map Sole.reference]) ++ [[next].map Sole.reference]) := hmerged
      rw [hstep, ih htree, Connective.runsFrom, List.map_cons, List.append_assoc,
        List.singleton_append]

section

variable {results : NameMap Bool} {value : Sole → Bool}

/-- A clause of references holds where all of the results are true. -/
theorem allHold_references {run : List Sole}
    (h : ∀ sole ∈ run, results.get? sole.name = some (value sole)) :
    Atom.allHold results (run.map Sole.reference) = run.all value := by
  induction run with
  | nil => rfl
  | cons sole rest ih =>
    obtain ⟨hsole, hrest⟩ := List.forall_mem_cons.mp h
    rw [List.map_cons, Atom.allHold, ih hrest, List.all_cons, Sole.reference, Atom.holds, hsole,
      Option.getD_some]

/-- Clauses of references hold where all of the results of some clause are true. -/
theorem anyHolds_references {runs : List (List Sole)}
    (h : ∀ run ∈ runs, ∀ sole ∈ run, results.get? sole.name = some (value sole)) :
    Atom.anyHolds results (runs.map (List.map Sole.reference)) =
      runs.any (fun run => run.all value) := by
  induction runs with
  | nil => rfl
  | cons run rest ih =>
    obtain ⟨hrun, hrest⟩ := List.forall_mem_cons.mp h
    rw [List.map_cons, Atom.anyHolds, allHold_references hrun, ih hrest, List.any_cons]

end

/-- Single target policies under distinct names, merged from left to right by `and` and `or`, give a
policy with as many target policies. It grants just where all of a run grant, the runs being what
the sequence is cut into at every `or`. -/
theorem check_chained {first : Sole} {further : List (Connective × Sole)}
    (h : ((first :: further.map Prod.snd).map Sole.name).Nodup) :
    (first.policy.chained further).targets.size = further.length + 1 ∧
      ∀ attributes, (first.policy.chained further).check attributes =
        (Connective.runs first further).any
          (fun run => run.all (fun sole => sole.policy.check attributes)) := by
  have htargets : (first.policy.chained further).targets =
      .ofList ((first :: further.map Prod.snd).map Sole.entry) := by
    rw [targets_chained, List.map_cons, List.map_map]
    rfl
  have hnames : (((first :: further.map Prod.snd).map Sole.entry).map (·.1)).Nodup := by
    rwa [List.map_map]
  constructor
  · rw [htargets, NameMap.size_ofList_of_nodup hnames, List.length_map, List.length_cons,
      List.length_map]
  · intro attributes
    have hresults : ∀ sole ∈ first :: further.map Prod.snd,
        ((first.policy.chained further).results attributes).get? sole.name =
          some (sole.policy.check attributes) := by
      intro sole hmem
      rw [results, NameMap.get?_mapValues, htargets,
        NameMap.get?_ofList_of_nodup hnames (List.mem_map.mpr ⟨sole, hmem, rfl⟩), sole.check_policy]
      rfl
    have htree : first.policy.expression.tree = .ok ([] ++ [[first].map Sole.reference]) := rfl
    rw [check_of_tree (tree_chained htree further), List.nil_append, Disjunction.holds]
    exact anyHolds_references fun run hrun sole hsole =>
      hresults sole (Connective.mem_of_mem_runs hrun hsole)

/-- Four target policies joined by `and`, `or` and `and`: the run behind the `or` grants, and the
one before it does not, though its first policy does. -/
theorem check_chained_four :
    let sole := fun (serial : Nat) (effect : Effect) =>
      (⟨generatedName serial, ⟨[], .all, effect⟩, .empty, true, true⟩ : Sole)
    let first := sole 1 .permit
    let further := [(Connective.and, sole 2 .deny), (.or, sole 3 .permit), (.and, sole 4 .permit)]
    ((first :: further.map Prod.snd).map Sole.name).Nodup ∧
      (first.policy.chained further).targets.size = 4 ∧
      Connective.runs first further =
        [[sole 1 .permit, sole 2 .deny], [sole 3 .permit, sole 4 .permit]] ∧
      (first.policy.chained further).check {} = true ∧
      (first.policy.chained (further.take 1)).check {} = false := by
  intro sole first further
  have hnames : ((first :: further.map Prod.snd).map Sole.name).Nodup := by decide +kernel
  have hbefore : ((first :: (further.take 1).map Prod.snd).map Sole.name).Nodup := by
    decide +kernel
  obtain ⟨hsize, hcheck⟩ := check_chained hnames
  refine ⟨hnames, hsize, rfl, (hcheck {}).trans ?_, ((check_chained hbefore).2 {}).trans ?_⟩
  · decide +kernel
  · decide +kernel

end Policy

end AccessControl
