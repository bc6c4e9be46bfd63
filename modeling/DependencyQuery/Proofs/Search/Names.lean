import DependencyQuery.Proofs.Search.Distinct
import DependencyQuery.Proofs.Search.Seeding
import DependencyQuery.Proofs.Search.Sessions

namespace DependencyQuery

/-!
# Which names a result binds

The names in a pattern can be read off its text; which of them a result binds depends on the choice that it
stands for.  Where a name stands tells what is certain about it.

* `PatternTree.positiveDescriptions` and its kin — the descriptions outside all negated links, with or without
  those inside groups; `Pattern.mem_descriptions_iff` — all others stand inside negated links;
* `TreeChoice.mem_of_mem_bindings` and its kin — a choice gives nodes of the graph to names outside negated
  links, and to no others;
* `TreeChoice.exists_of_mem_positive` and its kin — whatever stands outside negated links and groups has a node
  that passes its tests and bears its name;
* `Finding.BindsNamesOf` — what a result says of names, `PatternChoice.Consistent.bindsNamesOf` — if it stands for
  a consistent choice;
* `search_binds` — so all results of a search do, and a cursor in them can be asked for the names that are certain
  to be bound.
-/

/-! ### What stands outside negated links -/

section

variable [Text.CharacterNames]

mutual

/-- The descriptions of a tree outside its negated links, and outside its groups unless these count. -/
def PatternTree.positiveDescriptions (inGroups : Bool) : PatternTree → List Description
  | .node description clauses => description :: positiveInClauses inGroups clauses

/-- The descriptions of a clause outside its negated links. -/
def Clause.positiveDescriptions (inGroups : Bool) : Clause → List Description
  | .link l target => if l.negated then [] else target.positiveDescriptions inGroups
  | .group alternatives => if inGroups then positiveInAlternatives inGroups alternatives else []

/-- The descriptions of several clauses outside their negated links. -/
def positiveInClauses (inGroups : Bool) : List Clause → List Description
  | [] => []
  | clause :: rest => clause.positiveDescriptions inGroups ++ positiveInClauses inGroups rest

/-- The descriptions of alternatives outside their negated links. -/
def positiveInAlternatives (inGroups : Bool) : List (List Clause) → List Description
  | [] => []
  | clauses :: rest => positiveInClauses inGroups clauses ++ positiveInAlternatives inGroups rest

end

/-- The descriptions of a pattern outside its negated links, and outside its groups unless these count. -/
def Pattern.positiveDescriptions (p : Pattern) (inGroups : Bool) : List Description :=
  p.trees.flatMap (PatternTree.positiveDescriptions inGroups)

section Occurrences

variable {d : Description}

mutual

/-- Every description of a tree stands either outside or inside negated links. -/
theorem PatternTree.mem_descriptions_iff : (tree : PatternTree) →
    (d ∈ tree.descriptions ↔ d ∈ tree.positiveDescriptions true ∨ d ∈ tree.negatedDescriptions)
  | .node description clauses => by
    rw [PatternTree.descriptions, PatternTree.positiveDescriptions, PatternTree.negatedDescriptions,
      List.mem_cons, List.mem_cons, mem_descriptionsOfClauses_iff clauses, or_assoc]

/-- A description in clauses stands outside of negated links or inside of one. -/
theorem mem_descriptionsOfClauses_iff : (clauses : List Clause) →
    (d ∈ descriptionsOfClauses clauses ↔ d ∈ positiveInClauses true clauses ∨ d ∈ negatedInClauses clauses)
  | [] => by simp [descriptionsOfClauses, positiveInClauses, negatedInClauses]
  | clause :: rest => by
    rw [descriptionsOfClauses, positiveInClauses, negatedInClauses, List.mem_append, List.mem_append,
      List.mem_append, clause.mem_descriptions_iff, mem_descriptionsOfClauses_iff rest]
    exact or_or_or_comm

/-- A description in a clause stands outside of negated links or inside of one. -/
theorem Clause.mem_descriptions_iff : (clause : Clause) →
    (d ∈ clause.descriptions ↔ d ∈ clause.positiveDescriptions true ∨ d ∈ clause.negatedDescriptions)
  | .link l target => by
    rw [Clause.descriptions, Clause.positiveDescriptions, Clause.negatedDescriptions]
    split
    · exact (or_iff_right List.not_mem_nil).symm
    · exact target.mem_descriptions_iff
  | .group alternatives => by
    rw [Clause.descriptions, Clause.positiveDescriptions, Clause.negatedDescriptions, if_pos rfl]
    exact mem_descriptionsOfAlternatives_iff alternatives

/-- A description in alternatives stands outside of negated links or inside of one. -/
theorem mem_descriptionsOfAlternatives_iff : (alternatives : List (List Clause)) →
    (d ∈ descriptionsOfAlternatives alternatives ↔
      d ∈ positiveInAlternatives true alternatives ∨ d ∈ negatedInAlternatives alternatives)
  | [] => by simp [descriptionsOfAlternatives, positiveInAlternatives, negatedInAlternatives]
  | clauses :: rest => by
    rw [descriptionsOfAlternatives, positiveInAlternatives, negatedInAlternatives, List.mem_append,
      List.mem_append, List.mem_append, mem_descriptionsOfClauses_iff clauses,
      mem_descriptionsOfAlternatives_iff rest]
    exact or_or_or_comm

end

/-- A name is one of the pattern just when it stands somewhere, outside or inside negated links. -/
theorem Pattern.mem_names_iff {p : Pattern} {name : String} :
    name ∈ p.names ↔
      (∃ d ∈ p.positiveDescriptions true, d.name = some name) ∨ ∃ d ∈ p.negatedDescriptions, d.name = some name := by
  have hmem : ∀ d, d ∈ p.trees.flatMap PatternTree.descriptions ↔
      d ∈ p.positiveDescriptions true ∨ d ∈ p.negatedDescriptions := by
    intro d
    rw [Pattern.positiveDescriptions, Pattern.negatedDescriptions]
    simp only [List.mem_flatMap, PatternTree.mem_descriptions_iff, and_or_left, exists_or]
  rw [Pattern.names, List.mem_eraseDups, List.mem_filterMap]
  simp only [hmem, or_and_right, exists_or]

end Occurrences

/-! ### What a choice binds -/

section Choices

variable {g : Graph} {accepts : LabelFilter → Option String → Bool} {b : String × Node}

mutual

/-- A choice for a tree that holds binds names outside negated links to nodes of the graph. -/
theorem TreeChoice.mem_of_mem_bindings : (tree : PatternTree) → (c : TreeChoice tree) → {env : Environment} →
    {n : Node} → n ∈ g → c.Holds g accepts tree env n → b ∈ c.bindings n →
    b.2 ∈ g ∧ ∃ d ∈ tree.positiveDescriptions true, d.name = some b.1
  | .node description clauses, .node below, env, n, hn, hholds, hb => by
    rw [TreeChoice.Holds] at hholds
    rw [TreeChoice.bindings, List.mem_append] at hb
    rw [PatternTree.positiveDescriptions]
    rcases hb with hb | hb
    · -- what the description itself binds is its name, to the node
      unfold Description.binding at hb
      split at hb
      · next name hname =>
        obtain rfl := List.mem_singleton.1 hb
        exact ⟨hn, description, List.mem_cons_self, hname⟩
      · cases hb
    · obtain ⟨hmem, d, hd, hname⟩ := ClausesChoice.mem_of_mem_bindings clauses below hn hholds.2 hb
      exact ⟨hmem, d, List.mem_cons_of_mem _ hd, hname⟩

/-- What a choice of clauses binds are names outside of negated links, to nodes of the graph. -/
theorem ClausesChoice.mem_of_mem_bindings : (clauses : List Clause) → (c : ClausesChoice clauses) →
    {env : Environment} → {n : Node} → n ∈ g → c.Holds g accepts clauses env n → b ∈ c.bindings n →
    b.2 ∈ g ∧ ∃ d ∈ positiveInClauses true clauses, d.name = some b.1
  | [], .nil, _, _, _, _, hb => by
    rw [ClausesChoice.bindings] at hb
    cases hb
  | clause :: rest, .cons first more, env, n, hn, hholds, hb => by
    rw [ClausesChoice.Holds] at hholds
    rw [ClausesChoice.bindings, List.mem_append] at hb
    rw [positiveInClauses]
    rcases hb with hb | hb
    · obtain ⟨hmem, d, hd, hname⟩ := ClauseChoice.mem_of_mem_bindings clause first hn hholds.1 hb
      exact ⟨hmem, d, List.mem_append_left _ hd, hname⟩
    · obtain ⟨hmem, d, hd, hname⟩ := ClausesChoice.mem_of_mem_bindings rest more hn hholds.2 hb
      exact ⟨hmem, d, List.mem_append_right _ hd, hname⟩

/-- What a choice of a clause binds are names outside of negated links, to nodes of the graph. -/
theorem ClauseChoice.mem_of_mem_bindings : (clause : Clause) → (c : ClauseChoice clause) →
    {env : Environment} → {n : Node} → n ∈ g → c.Holds g accepts clause env n → b ∈ c.bindings n →
    b.2 ∈ g ∧ ∃ d ∈ clause.positiveDescriptions true, d.name = some b.1
  | .link l target, .absent _, _, _, _, _, hb => by
    rw [ClauseChoice.bindings] at hb
    cases hb
  | .link l target, .target positive m below, env, n, hn, hholds, hb => by
    rw [ClauseChoice.Holds] at hholds
    rw [ClauseChoice.bindings] at hb
    rw [Clause.positiveDescriptions, positive, if_neg Bool.false_ne_true]
    have hm : m ∈ g := Graph.mem_nodes_of_mem_witnessList hholds.1
    exact TreeChoice.mem_of_mem_bindings target below hm hholds.2 hb
  | .group alternatives, .group chosen, env, n, hn, hholds, hb => by
    rw [ClauseChoice.Holds] at hholds
    rw [ClauseChoice.bindings] at hb
    rw [Clause.positiveDescriptions, if_pos rfl]
    exact AlternativeChoice.mem_of_mem_bindings alternatives chosen hn hholds hb

/-- What a choice of alternatives binds are names outside of negated links, to nodes of the graph. -/
theorem AlternativeChoice.mem_of_mem_bindings : (alternatives : List (List Clause)) →
    (c : AlternativeChoice alternatives) → {env : Environment} → {n : Node} → n ∈ g →
    c.Holds g accepts alternatives env n → b ∈ c.bindings n →
    b.2 ∈ g ∧ ∃ d ∈ positiveInAlternatives true alternatives, d.name = some b.1
  | clauses :: rest, .first below, env, n, hn, hholds, hb => by
    rw [AlternativeChoice.Holds] at hholds
    rw [AlternativeChoice.bindings] at hb
    rw [positiveInAlternatives]
    obtain ⟨hmem, d, hd, hname⟩ := ClausesChoice.mem_of_mem_bindings clauses below hn hholds hb
    exact ⟨hmem, d, List.mem_append_left _ hd, hname⟩
  | clauses :: rest, .later chosen, env, n, hn, hholds, hb => by
    rw [AlternativeChoice.Holds] at hholds
    rw [AlternativeChoice.bindings] at hb
    rw [positiveInAlternatives]
    obtain ⟨hmem, d, hd, hname⟩ := AlternativeChoice.mem_of_mem_bindings rest chosen hn hholds hb
    exact ⟨hmem, d, List.mem_append_right _ hd, hname⟩

end

/-- What a choice of trees binds are names outside of negated links, to nodes of the graph. -/
theorem TreesChoice.mem_of_mem_bindings {trees : List PatternTree} (c : TreesChoice trees) {env : Environment}
    {n : Node} (hn : n ∈ g) (hholds : c.Holds g accepts trees env n) (hb : b ∈ c.bindings n) :
    b.2 ∈ g ∧ ∃ d ∈ trees.flatMap (PatternTree.positiveDescriptions true), d.name = some b.1 := by
  induction c generalizing env with
  | nil => cases hb
  | @cons tree rest first more ih =>
    rw [TreesChoice.bindings, List.mem_append] at hb
    rw [List.flatMap_cons]
    rcases hb with hb | hb
    · obtain ⟨hmem, d, hd, hname⟩ := TreeChoice.mem_of_mem_bindings tree first hn hholds.1 hb
      exact ⟨hmem, d, List.mem_append_left _ hd, hname⟩
    · obtain ⟨hmem, d, hd, hname⟩ := ih hholds.2 hb
      exact ⟨hmem, d, List.mem_append_right _ hd, hname⟩

/-! ### What a choice has to bind -/

variable {d : Description}

mutual

/-- Whatever stands outside the negated links and groups of a tree has a node that passes its tests and bears its
name. -/
theorem TreeChoice.exists_of_mem_positive : (tree : PatternTree) → (c : TreeChoice tree) → {env : Environment} →
    {n : Node} → c.Holds g accepts tree env n → d ∈ tree.positiveDescriptions false →
    ∃ m, d.testsPass g m = true ∧ d.binding m ⊆ c.bindings n
  | .node description clauses, .node below, env, n, hholds, hd => by
    rw [TreeChoice.Holds] at hholds
    rw [PatternTree.positiveDescriptions, List.mem_cons] at hd
    rw [TreeChoice.bindings]
    rcases hd with rfl | hd
    · exact ⟨n, hholds.1, List.subset_append_left _ _⟩
    · obtain ⟨m, htests, hsubset⟩ := ClausesChoice.exists_of_mem_positive clauses below hholds.2 hd
      exact ⟨m, htests, List.subset_append_of_subset_right _ hsubset⟩

/-- A choice of clauses has a node for each description outside of groups and negated links. -/
theorem ClausesChoice.exists_of_mem_positive : (clauses : List Clause) → (c : ClausesChoice clauses) →
    {env : Environment} → {n : Node} → c.Holds g accepts clauses env n → d ∈ positiveInClauses false clauses →
    ∃ m, d.testsPass g m = true ∧ d.binding m ⊆ c.bindings n
  | [], .nil, _, _, _, hd => by
    rw [positiveInClauses] at hd
    cases hd
  | clause :: rest, .cons first more, env, n, hholds, hd => by
    rw [ClausesChoice.Holds] at hholds
    rw [positiveInClauses, List.mem_append] at hd
    rw [ClausesChoice.bindings]
    rcases hd with hd | hd
    · obtain ⟨m, htests, hsubset⟩ := ClauseChoice.exists_of_mem_positive clause first hholds.1 hd
      exact ⟨m, htests, List.subset_append_of_subset_left _ hsubset⟩
    · obtain ⟨m, htests, hsubset⟩ := ClausesChoice.exists_of_mem_positive rest more hholds.2 hd
      exact ⟨m, htests, List.subset_append_of_subset_right _ hsubset⟩

/-- A choice of a clause has a node for each description outside of groups and negated links. -/
theorem ClauseChoice.exists_of_mem_positive : (clause : Clause) → (c : ClauseChoice clause) →
    {env : Environment} → {n : Node} → c.Holds g accepts clause env n → d ∈ clause.positiveDescriptions false →
    ∃ m, d.testsPass g m = true ∧ d.binding m ⊆ c.bindings n
  | .link l target, .absent negated, _, _, _, hd => by
    rw [Clause.positiveDescriptions, if_pos negated] at hd
    cases hd
  | .link l target, .target positive m below, env, n, hholds, hd => by
    rw [ClauseChoice.Holds] at hholds
    rw [Clause.positiveDescriptions, positive, if_neg Bool.false_ne_true] at hd
    rw [ClauseChoice.bindings]
    exact TreeChoice.exists_of_mem_positive target below hholds.2 hd
  | .group alternatives, .group _, _, _, _, hd => by
    rw [Clause.positiveDescriptions, if_neg Bool.false_ne_true] at hd
    cases hd

end

/-- A choice of trees has a node for each description outside of groups and negated links. -/
theorem TreesChoice.exists_of_mem_positive {trees : List PatternTree} (c : TreesChoice trees) {env : Environment}
    {n : Node} (hholds : c.Holds g accepts trees env n)
    (hd : d ∈ trees.flatMap (PatternTree.positiveDescriptions false)) :
    ∃ m, d.testsPass g m = true ∧ d.binding m ⊆ c.bindings n := by
  induction c generalizing env with
  | nil => cases hd
  | @cons tree rest first more ih =>
    rw [List.flatMap_cons, List.mem_append] at hd
    rw [TreesChoice.bindings]
    rcases hd with hd | hd
    · obtain ⟨m, htests, hsubset⟩ := TreeChoice.exists_of_mem_positive tree first hholds.1 hd
      exact ⟨m, htests, List.subset_append_of_subset_left _ hsubset⟩
    · obtain ⟨m, htests, hsubset⟩ := ih hholds.2 hd
      exact ⟨m, htests, List.subset_append_of_subset_right _ hsubset⟩

end Choices

/-! ### What a result binds -/

section Results

variable {p : Pattern} {g : Graph} {accepts : LabelFilter → Option String → Bool} {base : Environment}

/-- What the result of a pattern says of names, whichever choice it stands for. -/
structure Finding.BindsNamesOf (f : Finding) (p : Pattern) (g : Graph) (base : Environment) : Prop where
  /-- What the base binds stays bound. -/
  kept : ∀ name n, base.get? name = some n → f.bindings.get? name = some n
  /-- What else is bound is a name of the pattern that stands outside negated links, and its node is in the
  graph. -/
  added : ∀ name n, base.get? name = none → f.bindings.get? name = some n →
    name ∈ p.names ∧ (∃ d ∈ p.positiveDescriptions true, d.name = some name) ∧ n ∈ g
  /-- A name outside negated links and groups is bound, to a node that passes all tests that stand there with
  it. -/
  certain : ∀ d ∈ p.positiveDescriptions false, ∀ name, d.name = some name →
    ∃ n, f.bindings.get? name = some n ∧ d.testsPass g n = true
  /-- A name that stands nowhere but inside negated links is bound only by the base. -/
  negated : ∀ name, (∀ d ∈ p.positiveDescriptions true, d.name ≠ some name) →
    f.bindings.get? name = base.get? name

namespace PatternChoice

variable {c : PatternChoice p}

/-- A name stands for what the base says, else for what the choice says. -/
theorem get?_finding (c : PatternChoice p) (base : Environment) (name : String) :
    (c.finding base).bindings.get? name = (base.get? name).or (Environment.get? c.bindings name) :=
  Environment.get?_extend base c.bindings name

/-- A consistent choice of a pattern binds the names as it should. -/
theorem Consistent.bindsNamesOf (hc : c.Consistent g accepts base) :
    (c.finding base).BindsNamesOf p g base := by
  have hadded : ∀ name n, base.get? name = none → (c.finding base).bindings.get? name = some n →
      n ∈ g ∧ ∃ d ∈ p.positiveDescriptions true, d.name = some name := by
    intro name n hbase h
    rw [get?_finding, hbase, Option.none_or] at h
    have hmem : (name, n) ∈ c.bindings := Environment.mem_of_get?_eq_some h
    exact TreesChoice.mem_of_mem_bindings c.trees hc.root_mem hc.holds hmem
  refine ⟨fun name n h => ?_, fun name n hbase h => ?_, fun d hd name hname => ?_, fun name hnone => ?_⟩
  · rw [get?_finding, h, Option.some_or]
  · obtain ⟨hn, hd⟩ := hadded name n hbase h
    exact ⟨Pattern.mem_names_iff.2 (.inl hd), hd, hn⟩
  · obtain ⟨m, htests, hsubset⟩ := TreesChoice.exists_of_mem_positive c.trees hc.holds hd
    have hbinding : (name, m) ∈ d.binding m := by
      rw [Description.binding, hname]
      exact List.mem_singleton_self _
    -- the choice agrees with the base, so that the name has this node and no other
    exact ⟨m, hc.agree.binds_extend (name, m) (hsubset hbinding), htests⟩
  · cases hbase : base.get? name with
    | some n => rw [get?_finding, hbase, Option.some_or]
    | none =>
      cases h : (c.finding base).bindings.get? name with
      | none => rfl
      | some n =>
        obtain ⟨-, d, hd, hname⟩ := hadded name n hbase h
        exact absurd hname (hnone d hd)

end PatternChoice

omit [Text.CharacterNames] in
/-- The current result is one of those that a cursor goes through. -/
theorem Standing.mem_of_current {found : List Finding} {standing : Standing} {f : Finding}
    (h : standing.current found = some f) : f ∈ found := by
  cases standing with
  | past => cases h
  | passed count =>
    cases count with
    | zero => cases h
    | succ before => exact List.mem_of_getElem? h

omit [Text.CharacterNames] in
/-- A cursor can be asked for a name that all results bind, wherever it stands. -/
theorem Cursor.StandsAt.node?_ne_unbound {found : List Finding} {c : Cursor} {standing : Standing}
    (h : StandsAt found c standing) {name : String}
    (hbound : ∀ f ∈ found, ∃ n, f.bindings.get? name = some n) (other : String) :
    c.node? name ≠ .error (.unbound other) := by
  rw [Cursor.node?, h.ask, Standing.ask]
  split
  · next f hf =>
    obtain ⟨n, hn⟩ := hbound f (Standing.mem_of_current hf)
    rw [hn]
    intro herror
    cases herror
  · intro herror
    cases herror

/-- **What stands in a pattern tells what its results bind.**  Every result keeps what the base binds.  Every
other name that it binds is one of the pattern and stands somewhere outside negated links, and its node is in
the graph.  A name that stands outside negated links and groups is bound, and its node passes the tests of all
descriptions that bear it there; hence no cursor, wherever it stands, answers that such a name is unbound.  A
name that stands nowhere but inside negated links is bound just as by the base. -/
theorem search_binds (p : Pattern) (g : Graph) (accepts : LabelFilter → Option String → Bool)
    (base : Environment) :
    ∃ found : List Finding, search p g (.total accepts) base = .ofList found ∧
      (∀ f ∈ found, f.BindsNamesOf p g base) ∧
      ∀ name, (∃ d ∈ p.positiveDescriptions false, d.name = some name) →
        ∀ (calls : List Cursor.Call) (other : String),
          ((Cursor.start (search p g (.total accepts) base)).after calls).node? name ≠
            .error (.unbound other) := by
  -- what is found comes from a consistent choice, and such a choice binds what the pattern names
  have hbinds : ∀ f ∈ findings g accepts p base, f.BindsNamesOf p g base := by
    intro f hf
    rw [findings_eq_map] at hf
    obtain ⟨c, hc, rfl⟩ := List.mem_map.1 hf
    exact ((mem_patternChoices c).1 hc).bindsNamesOf
  refine ⟨findings g accepts p base, search_total p base, hbinds, ?_⟩
  rintro name ⟨d, hd, hname⟩ calls other
  rw [search_total]
  -- a cursor stands at one of the results, wherever the calls have led it
  have hstands := (Cursor.standsAt_start (findings g accepts p base)).after calls
  apply hstands.node?_ne_unbound
  intro f hf
  obtain ⟨n, hn, -⟩ := (hbinds f hf).certain d hd name hname
  exact ⟨n, hn⟩

end Results

end

/-- A node with `x` below it, above it no node with `y` below, and below it `x` once more or `z`. -/
example :
    let p : Pattern := ⟨.node {}
      [.link ⟨.down, .direct, none, false⟩ (.node { name := some "x" } []),
        .link ⟨.up, .direct, none, true⟩
          (.node {} [.link ⟨.down, .direct, none, false⟩ (.node { name := some "y" } [])]),
        .group [[.link ⟨.down, .direct, none, false⟩ (.node { name := some "x" } [])],
          [.link ⟨.down, .direct, none, false⟩ (.node { name := some "z" } [])]]], []⟩
    p.names = ["x", "y", "z"] ∧ (p.positiveDescriptions true).filterMap (·.name) = ["x", "x", "z"] ∧
      (p.positiveDescriptions false).filterMap (·.name) = ["x"] := by
  cbv

end DependencyQuery
