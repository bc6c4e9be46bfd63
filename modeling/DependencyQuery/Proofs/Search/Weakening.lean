import DependencyQuery.Proofs.Search.Lists
import Mathlib.Data.List.Flatten
import Mathlib.Data.List.Forall2
import Mathlib.Data.List.Perm.Subperm

namespace DependencyQuery

open scoped List

/-!
# Asking for less

A pattern without negated links finds no less if its links reach further and accept more labels, if its
descriptions have fewer tests, or if there are more edges to go along.

* `Graph.IsSpanningSubgraph` — whether a graph has all the edges of another one with the same nodes;
* `Description.Weakens`, `Link.Weakens`, `Clause.Weakens`, `PatternTree.Weakens`, `Pattern.Weakens` —
  whether one part of a pattern asks for no more than its counterpart, with all negated links left out;
* `Graph.witnessList_subset` — a weaker link has no fewer witnesses;
* `flatMap_subperm` — a search from more places that finds no less from each of them finds no less;
* `treeFits_subperm` and its kin — a weaker part fits in the same environments, each as often at least;
* `search_weakened` — and so a search with the weaker pattern finds each result at least as often.
-/

/-! ### Weaker patterns, and graphs with more edges -/

/-- Whether the graph `h` has the nodes of the graph `g`, in the same order and with the same attributes,
and all of its edges. -/
structure Graph.IsSpanningSubgraph (g h : Graph) : Prop where
  nodes : h.nodes = g.nodes
  attributes : ∀ n key, h.attribute? n key = g.attribute? n key
  edges : g.edges ⊆ h.edges

section

variable [Text.CharacterNames]

/-- Whether a description has the name of another one and only tests of it.  One that turns the outcome of
its tests around keeps all of them. -/
structure Description.Weakens (d other : Description) : Prop where
  name : other.name = d.name
  negated : other.negated = d.negated
  tests : other.tests ⊆ d.tests
  kept : d.negated = true → other.tests = d.tests

/-- Whether a link leads in the same direction as another one, covers its depths and accepts the labels
that it accepts.  Neither of them is negated. -/
structure Link.Weakens (accepts : LabelFilter → Option String → Bool) (l other : Link) : Prop where
  direction : other.direction = l.direction
  positive : l.negated = false
  other_positive : other.negated = false
  range : ∀ depth, l.range.contains depth = true → other.range.contains depth = true
  admits : ∀ label, l.admits accepts label = true → other.admits accepts label = true

section Weakens

variable (accepts : LabelFilter → Option String → Bool)

mutual

/-- Whether the second tree is the first one with weaker parts. -/
inductive PatternTree.Weakens : PatternTree → PatternTree → Prop
  | node {d other : Description} {clauses others : List Clause} (description : d.Weakens other)
      (all : List.Forall₂ Clause.Weakens clauses others) :
      PatternTree.Weakens (.node d clauses) (.node other others)

/-- Whether the second clause is the first one with weaker parts. -/
inductive Clause.Weakens : Clause → Clause → Prop
  | link {l other : Link} {target otherTarget : PatternTree} (relation : l.Weakens accepts other)
      (below : PatternTree.Weakens target otherTarget) :
      Clause.Weakens (.link l target) (.link other otherTarget)
  | group {alternatives others : List (List Clause)}
      (all : List.Forall₂ (List.Forall₂ Clause.Weakens) alternatives others) :
      Clause.Weakens (.group alternatives) (.group others)

end

/-- Whether the second pattern is the first one with weaker parts. -/
def Pattern.Weakens (p q : Pattern) : Prop := List.Forall₂ (PatternTree.Weakens accepts) p.trees q.trees

end Weakens

variable {g h : Graph} {accepts : LabelFilter → Option String → Bool}

/-! ### More witnesses -/

namespace Graph

omit [Text.CharacterNames] in
/-- An edge of a subgraph is one of the graph. -/
theorem IsSpanningSubgraph.mem_step (hg : g.IsSpanningSubgraph h) {direction : Direction} {n : Node}
    {a : Arrival} (ha : a ∈ g.step direction n) : a ∈ h.step direction n := by
  cases direction with
  | up => exact mem_governors.2 (hg.edges (mem_governors.1 ha))
  | down => exact mem_dependents.2 (hg.edges (mem_dependents.1 ha))

omit [Text.CharacterNames] in
/-- A walk stays one when edges are added. -/
theorem IsSpanningSubgraph.isWalk (hg : g.IsSpanningSubgraph h) {direction : Direction} {start : Node}
    {walk : List Arrival} (hw : IsWalk (g.step direction) start walk) :
    IsWalk (h.step direction) start walk := by
  induction walk generalizing start with
  | nil => trivial
  | cons a rest ih => exact ⟨hg.mem_step hw.1, ih hw.2⟩

/-- A weaker link has all the witnesses of the other one. -/
theorem witnessList_subset (hg : g.IsSpanningSubgraph h) {l other : Link} (hl : l.Weakens accepts other)
    (start : Node) : g.witnessList accepts l start ⊆ h.witnessList accepts other start := by
  intro n hn
  obtain ⟨walk, label, hw, hrange, hlast, hadmits⟩ := mem_witnessList.1 hn
  refine mem_witnessList.2 ⟨walk, label, ?_, hl.range _ hrange, hlast, hl.admits label hadmits⟩
  rw [hl.direction]
  exact hg.isWalk hw

end Graph

/-! ### Weaker descriptions -/

namespace Description.Weakens

variable {d other : Description}

/-- A weaker description allows the same nodes. -/
theorem allows (hd : d.Weakens other) (env : Environment) (n : Node) :
    other.allows env n = d.allows env n := by
  rw [Description.allows, Description.allows, hd.name]

/-- A weaker description binds the same name. -/
theorem bind (hd : d.Weakens other) (env : Environment) (n : Node) :
    other.bind env n = d.bind env n := by
  rw [Description.bind, Description.bind, hd.name]

/-- A node that passes the tests passes fewer of them. -/
theorem testsPass (hg : g.IsSpanningSubgraph h) (hd : d.Weakens other) {n : Node}
    (hpass : d.testsPass g n = true) : other.testsPass h n = true := by
  have hpasses : ∀ t : AttributeTest, t.passes h n = t.passes g n := fun t => by
    rw [AttributeTest.passes, AttributeTest.passes, hg.attributes]
  have hnegated := hd.negated
  unfold Description.testsPass at hpass ⊢
  simp only [hpasses, hnegated]
  cases hneg : d.negated with
  | true =>
    rw [hneg] at hpass
    rwa [hd.kept hneg]
  | false =>
    rw [hneg] at hpass
    have hall : ∀ t ∈ d.tests, t.passes g n = true := by simpa using hpass
    simpa using fun t ht => hall t (hd.tests ht)

/-- A weaker description is satisfied where the other one is, also in the larger graph. -/
theorem isSatisfied (hg : g.IsSpanningSubgraph h) (hd : d.Weakens other) {env : Environment} {n : Node}
    (hsat : d.isSatisfied g env n = true) : other.isSatisfied h env n = true := by
  unfold Description.isSatisfied at hsat ⊢
  rw [Bool.and_eq_true] at hsat ⊢
  exact ⟨(hd.allows env n).trans hsat.1, hd.testsPass hg hsat.2⟩

end Description.Weakens

/-! ### More results -/

omit [Text.CharacterNames] in
/-- A search from more places that finds no less from each of them finds no less. -/
theorem flatMap_subperm {α β : Type} {xs ys : List α} {f f' : α → List β} (hxs : xs <+~ ys)
    (hf : ∀ a, f a <+~ f' a) : xs.flatMap f <+~ ys.flatMap f' := by
  have hsame : ∀ zs : List α, zs.flatMap f <+~ zs.flatMap f' := by
    intro zs
    induction zs with
    | nil => exact .refl _
    | cons a zs ih =>
      rw [List.flatMap_cons, List.flatMap_cons]
      exact (hf a).append ih
  obtain ⟨zs, hperm, hsublist⟩ := hxs
  have hreordered : xs.flatMap f <+~ zs.flatMap f := (hperm.symm.flatMap_right f).subperm
  have hmore : zs.flatMap f' <+~ ys.flatMap f' := (hsublist.flatMap f').subperm
  exact (hreordered.trans (hsame zs)).trans hmore

mutual

/-- A tree has no more fits than a weaker one in a larger graph. -/
theorem treeFits_subperm (hg : g.IsSpanningSubgraph h) :
    (tree : PatternTree) → {other : PatternTree} → tree.Weakens accepts other →
    (env : Environment) → (n : Node) → treeFits g accepts tree env n <+~ treeFits h accepts other env n
  | .node d clauses, _, .node hd hclauses, env, n => by
    rw [treeFits, treeFits]
    by_cases hsat : d.isSatisfied g env n = true
    · rw [if_pos hsat, if_pos (hd.isSatisfied hg hsat), hd.bind]
      exact clausesFits_subperm hg clauses hclauses (d.bind env n) n
    · rw [if_neg hsat]
      exact List.nil_subperm

/-- Clauses have no more fits than weaker ones in a larger graph. -/
theorem clausesFits_subperm (hg : g.IsSpanningSubgraph h) :
    (clauses : List Clause) → {others : List Clause} →
    List.Forall₂ (Clause.Weakens accepts) clauses others → (env : Environment) → (n : Node) →
    clausesFits g accepts clauses env n <+~ clausesFits h accepts others env n
  | [], _, .nil, env, n => by
    rw [clausesFits, clausesFits]
  | clause :: rest, _, .cons hclause hrest, env, n => by
    rw [clausesFits, clausesFits]
    exact flatMap_subperm (clauseFits_subperm hg clause hclause env n)
      fun env => clausesFits_subperm hg rest hrest env n

/-- A clause has no more fits than a weaker one in a larger graph. -/
theorem clauseFits_subperm (hg : g.IsSpanningSubgraph h) :
    (clause : Clause) → {other : Clause} → clause.Weakens accepts other →
    (env : Environment) → (n : Node) →
    clauseFits g accepts clause env n <+~ clauseFits h accepts other env n
  | .link l target, .link other _, .link hl htarget, env, n => by
    -- no witness is found twice, so it is enough that all of them are witnesses of the weaker link
    have hwitnesses : g.witnessList accepts l n <+~ h.witnessList accepts other n :=
      List.subperm_of_subset (g.nodup_witnessList accepts l n) (Graph.witnessList_subset hg hl n)
    rw [clauseFits, clauseFits, hl.positive, hl.other_positive]
    exact flatMap_subperm hwitnesses fun m => treeFits_subperm hg target htarget env m
  | .group alternatives, _, .group hall, env, n => by
    rw [clauseFits, clauseFits]
    exact alternativesFits_subperm hg alternatives hall env n

/-- Alternatives have no more fits than weaker ones in a larger graph. -/
theorem alternativesFits_subperm (hg : g.IsSpanningSubgraph h) :
    (alternatives : List (List Clause)) → {others : List (List Clause)} →
    List.Forall₂ (List.Forall₂ (Clause.Weakens accepts)) alternatives others → (env : Environment) →
    (n : Node) → alternativesFits g accepts alternatives env n <+~ alternativesFits h accepts others env n
  | [], _, .nil, env, n => by
    rw [alternativesFits, alternativesFits]
  | clauses :: rest, _, .cons hclauses hrest, env, n => by
    rw [alternativesFits, alternativesFits]
    exact (clausesFits_subperm hg clauses hclauses env n).append
      (alternativesFits_subperm hg rest hrest env n)

end

/-- Trees have no more fits than weaker ones in a larger graph. -/
theorem treesFits_subperm (hg : g.IsSpanningSubgraph h) {trees others : List PatternTree}
    (hall : List.Forall₂ (PatternTree.Weakens accepts) trees others) (env : Environment) (n : Node) :
    treesFits g accepts trees env n <+~ treesFits h accepts others env n := by
  induction hall generalizing env with
  | nil => exact .refl _
  | cons htree _ ih =>
    rw [treesFits, treesFits]
    exact flatMap_subperm (treeFits_subperm hg _ htree env n) fun env => ih env

/-- **Asking for less finds no less.**  Take a pattern without negated links, and the same pattern with
links that cover at least the same depths and accept at least the same labels, and perhaps with fewer tests
in descriptions that do not turn them around.  Take a graph, and one with the same nodes and perhaps further
edges.  The second pattern finds each result of the first one in the second graph, at least as often as the
first pattern finds it in the first graph. -/
theorem search_weakened {p q : Pattern} (hp : p.Weakens accepts q) (hg : g.IsSpanningSubgraph h)
    (base : Environment) :
    ∃ found others, search p g (.total accepts) base = .ofList found ∧
      search q h (.total accepts) base = .ofList others ∧ found <+~ others := by
  have hfindings : findings g accepts p base <+~ findings h accepts q base := by
    rw [findings, findings, hg.nodes]
    refine flatMap_subperm (.refl _) fun root => ?_
    exact (treesFits_subperm hg hp base root).map fun _ _ he => (Finding.mk.inj he).2
  exact ⟨_, _, search_total p base, search_total q base, hfindings⟩

end

/-- A word with another one below it. -/
def singleEdge : Graph where
  entries := [(.index 1, [("word", some "go")]), (.index 2, [("word", some "it")])]
  edges := [⟨.index 1, .index 2, some "obj"⟩]
  nodup := by decide
  closed := by decide

/-- With a negated link it is not so: of two words only one has none above it, and with an edge back
neither does. -/
example :
    let top : Pattern := ⟨.node {} [.link ⟨.up, .direct, none, true⟩ (.node {} [])], []⟩
    search top singleEdge (.total fun _ _ => true) [] = .ofList [⟨.index 1, []⟩] ∧
      search top (singleEdge.addEdge (.index 2) (.index 1) none) (.total fun _ _ => true) [] = .done :=
  ⟨rfl, rfl⟩

/-- The word `go` with an `x` right below it along `obj`, or with one that is not `it` above it. -/
def narrowQuery : Pattern where
  first := .node { tests := [⟨.word, .literal "go"⟩] } [.group [
    [.link ⟨.down, .direct, some (.name "obj"), false⟩ (.node { name := some "x" } [])],
    [.link ⟨.up, .far (some ⟨1, some 2⟩), none, false⟩
      (.node { tests := [⟨.word, .literal "it"⟩], negated := true, name := some "x" } [])]]]

/-- Any word with an `x` anywhere below it, or with one that is not `it` above it. -/
def wideQuery : Pattern where
  first := .node {} [.group [
    [.link ⟨.down, .far (some ⟨0, none⟩), none, false⟩ (.node { name := some "x" } [])],
    [.link ⟨.up, .far (some ⟨1, some 3⟩), none, false⟩
      (.node { tests := [⟨.word, .literal "it"⟩], negated := true, name := some "x" } [])]]]

/-- Fewer tests, deeper links and no filter, in a graph with an edge back. -/
theorem search_weakened_wideQuery :
    narrowQuery.Weakens (fun filter label => label = some filter.text) wideQuery ∧
      singleEdge.IsSpanningSubgraph (singleEdge.addEdge (.index 2) (.index 1) (some "by")) ∧
      ∃ found others,
        search narrowQuery singleEdge (.total fun filter label => label = some filter.text) [] =
          .ofList found ∧
        search wideQuery (singleEdge.addEdge (.index 2) (.index 1) (some "by"))
          (.total fun filter label => label = some filter.text) [] = .ofList others ∧
        found <+~ others := by
  -- a range stays within one that begins earlier and one that ends later
  have hrange : ∀ most depth, (DepthRange.mk 1 (some most)).contains depth = true →
      (DepthRange.mk 0 none).contains depth = true ∧
        (DepthRange.mk 1 (some (most + 1))).contains depth = true := by
    intro most depth h
    simp only [DepthRange.contains, DepthRange.atMost, Bool.and_eq_true, decide_eq_true_eq,
      Bool.and_true] at h ⊢
    omega
  -- the wider query has one link without the label and one with a larger bound
  have hbelow : Link.Weakens (fun filter label => label = some filter.text)
      ⟨.down, .direct, some (.name "obj"), false⟩ ⟨.down, .far (some ⟨0, none⟩), none, false⟩ :=
    ⟨rfl, rfl, rfl, fun depth h => (hrange 1 depth h).1, fun _ _ => rfl⟩
  have habove : Link.Weakens (fun filter label => label = some filter.text)
      ⟨.up, .far (some ⟨1, some 2⟩), none, false⟩ ⟨.up, .far (some ⟨1, some 3⟩), none, false⟩ :=
    ⟨rfl, rfl, rfl, fun depth h => (hrange 2 depth h).2, fun _ h => h⟩
  have hsame : ∀ d : Description, d.Weakens d := fun d => ⟨rfl, rfl, List.Subset.refl _, fun _ => rfl⟩
  have hquery : narrowQuery.Weakens (fun filter label => label = some filter.text) wideQuery :=
    .cons (.node ⟨rfl, rfl, List.nil_subset _, fun h => absurd h (by decide)⟩ (.cons (.group (.cons
      (.cons (.link hbelow (.node (hsame _) .nil)) .nil)
      (.cons (.cons (.link habove (.node (hsame _) .nil)) .nil) .nil))) .nil)) .nil
  have hgraph : singleEdge.IsSpanningSubgraph
      (singleEdge.addEdge (.index 2) (.index 1) (some "by")) :=
    ⟨rfl, fun n key => Graph.attribute?_addEdge _ _ _ _ n key, List.subset_append_left _ _⟩
  exact ⟨hquery, hgraph, search_weakened hquery hgraph []⟩

end DependencyQuery
