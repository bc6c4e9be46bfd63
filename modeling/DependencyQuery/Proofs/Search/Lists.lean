import DependencyQuery.Proofs.Walk.Witnesses
import DependencyQuery.Search.Basic

namespace DependencyQuery

/-!
# What a search finds, as lists

Where every label can be decided a search cannot fail, and what it finds is a list.

* `treeFits`, `clausesFits`, `clauseFits`, `alternativesFits`, `treesFits` — the environments in which
  a tree, clauses, a clause, one of some alternatives, or several trees fit a node;
* `matchTree_total`, `matchTrees_total` — the search for a tree, or for several, finds just these;
* `findings`, `search_total` — the results of a whole pattern.
-/

variable [Text.CharacterNames]

section Match

variable (g : Graph) (accepts : LabelFilter → Option String → Bool)

mutual

/-- The environments in which a tree fits a node. -/
def treeFits : PatternTree → Environment → Node → List Environment
  | .node description clauses, env, n =>
    if description.isSatisfied g env n then clausesFits clauses (description.bind env n) n else []

/-- The environments in which all clauses fit a node. -/
def clausesFits : List Clause → Environment → Node → List Environment
  | [], env, _ => [env]
  | clause :: rest, env, n => (clauseFits clause env n).flatMap fun env => clausesFits rest env n

/-- The environments in which a clause fits a node. -/
def clauseFits : Clause → Environment → Node → List Environment
  | .link l target, env, n =>
    if l.negated then
      if (g.witnessList accepts l n).any fun m => !(treeFits target env m).isEmpty then [] else [env]
    else (g.witnessList accepts l n).flatMap (treeFits target env)
  | .group alternatives, env, n => alternativesFits alternatives env n

/-- The environments in which one of the alternatives fits a node. -/
def alternativesFits : List (List Clause) → Environment → Node → List Environment
  | [], _, _ => []
  | clauses :: rest, env, n => clausesFits clauses env n ++ alternativesFits rest env n

end

/-- The environments in which all trees fit the same node. -/
def treesFits : List PatternTree → Environment → Node → List Environment
  | [], env, _ => [env]
  | tree :: rest, env, n => (treeFits g accepts tree env n).flatMap fun env => treesFits rest env n

/-- The results of a pattern, given nodes for some names. -/
def findings (p : Pattern) (base : Environment) : List Finding :=
  g.nodes.flatMap fun root => (treesFits g accepts p.trees base root).map fun env => ⟨root, env⟩

end Match

variable {g : Graph} {accepts : LabelFilter → Option String → Bool}

mutual

/-- Where every label can be decided, matching a tree gives its fits. -/
theorem matchTree_total : (tree : PatternTree) → (env : Environment) → (n : Node) → n ∈ g →
    matchTree g (.total accepts) tree env n = .ofList (treeFits g accepts tree env n)
  | .node description clauses, env, n, h => by
    rw [matchTree, treeFits]
    split
    · exact matchClauses_total clauses _ n h
    · rfl

/-- Where every label can be decided, matching clauses gives their fits. -/
theorem matchClauses_total : (clauses : List Clause) → (env : Environment) → (n : Node) → n ∈ g →
    matchClauses g (.total accepts) clauses env n = .ofList (clausesFits g accepts clauses env n)
  | [], env, n, _ => by rw [matchClauses, clausesFits]; rfl
  | clause :: rest, env, n, h => by
    rw [matchClauses, clausesFits, matchClause_total clause env n h]
    exact Results.flatMap_ofList_of_forall fun env _ => matchClauses_total rest env n h

/-- Where every label can be decided, matching a clause gives its fits. -/
theorem matchClause_total : (clause : Clause) → (env : Environment) → (n : Node) → n ∈ g →
    matchClause g (.total accepts) clause env n = .ofList (clauseFits g accepts clause env n)
  | .link l target, env, n, h => by
    -- witnesses are nodes of the graph, so that the search can go on from them
    have htarget : ∀ m ∈ g.witnessList accepts l n,
        matchTree g (.total accepts) target env m = .ofList (treeFits g accepts target env m) :=
      fun m hm => matchTree_total target env m (Graph.mem_nodes_of_mem_witnessList hm)
    rw [matchClause, clauseFits, Graph.witnesses_total accepts l h]
    split
    · rw [Results.existsAny_ofList_of_forall htarget]
      split
      · next hany => rw [hany]; rfl
      · next hany => rw [Bool.not_eq_true] at hany; rw [hany]; rfl
    · exact Results.flatMap_ofList_of_forall htarget
  | .group alternatives, env, n, h => by
    rw [matchClause, clauseFits]
    exact matchAlternatives_total alternatives env n h

/-- Where every label can be decided, matching alternatives gives their fits. -/
theorem matchAlternatives_total : (alternatives : List (List Clause)) → (env : Environment) →
    (n : Node) → n ∈ g →
    matchAlternatives g (.total accepts) alternatives env n =
      .ofList (alternativesFits g accepts alternatives env n)
  | [], env, n, _ => by rw [matchAlternatives, alternativesFits]; rfl
  | clauses :: rest, env, n, h => by
    rw [matchAlternatives, alternativesFits, matchClauses_total clauses env n h,
      matchAlternatives_total rest env n h, Results.append_ofList]

end

/-- Where every label can be decided, matching trees gives their fits. -/
theorem matchTrees_total (trees : List PatternTree) (env : Environment) {n : Node} (h : n ∈ g) :
    matchTrees g (.total accepts) trees env n = .ofList (treesFits g accepts trees env n) := by
  induction trees generalizing env with
  | nil => rfl
  | cons tree rest ih =>
    rw [matchTrees, treesFits, matchTree_total tree env n h]
    exact Results.flatMap_ofList_of_forall fun env _ => ih env

/-- Where every label can be decided, a search finds its results and comes to its end. -/
theorem search_total (p : Pattern) (base : Environment) :
    search p g (.total accepts) base = .ofList (findings g accepts p base) := by
  refine Results.flatMapList_ofList_of_forall fun root hroot => ?_
  rw [matchTrees_total p.trees base hroot, Results.map_ofList]

end DependencyQuery
