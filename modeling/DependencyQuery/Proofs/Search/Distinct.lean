import DependencyQuery.Proofs.Search.Completeness

namespace DependencyQuery

/-!
# Patterns that name what they look for have no result twice

A search goes through its choices, each once.  Where a name is given to whatever is chosen, the choice can be
read off the result.

* `PatternTree.namesTargets`, `Clause.namesTargets`, `clausesNameTargets`, `Pattern.namesTargets` — whether the
  targets of all links that are not negated have names, and there are no groups; what is below a negated link
  does not matter, since nothing is chosen there;
* `Environment.Binds` — whether names stand for given nodes, `Environment.Agree.binds_extend` — as they do for
  what an environment has been extended by;
* `TreeChoice.eq_of_binds` and its kin — in one environment, only one choice can be read off;
* `Finding.Same` — whether two results have the same root and bind the same names to the same nodes;
* `search_distinct` — no two results of such a pattern are the same.
-/

/-! ### Patterns that name their targets -/

section

variable [Text.CharacterNames]

mutual

/-- Whether every target that has to be chosen for a tree has a name. -/
def PatternTree.namesTargets : PatternTree → Bool
  | .node _ clauses => clausesNameTargets clauses

/-- Whether every target that has to be chosen for a clause has a name; for a group, an alternative would have
to be chosen, which no name tells. -/
def Clause.namesTargets : Clause → Bool
  | .link l target => l.negated || target.description.name.isSome && target.namesTargets
  | .group _ => false

/-- Whether every target that has to be chosen for some clauses has a name. -/
def clausesNameTargets : List Clause → Bool
  | [] => true
  | clause :: rest => clause.namesTargets && clausesNameTargets rest

end

/-- Whether every target that has to be chosen for a pattern has a name. -/
def Pattern.namesTargets (p : Pattern) : Bool := p.trees.all PatternTree.namesTargets

/-! ### What names stand for -/

namespace Environment

/-- Whether names stand for the nodes they are given with. -/
def Binds (env : Environment) (bindings : List (String × Node)) : Prop :=
  ∀ b ∈ bindings, env.get? b.1 = some b.2

omit [Text.CharacterNames] in
/-- Bindings are those of an environment if the first ones are and the others are. -/
theorem binds_append {env : Environment} {first more : List (String × Node)} :
    env.Binds (first ++ more) ↔ env.Binds first ∧ env.Binds more := List.forall_mem_append

omit [Text.CharacterNames] in
/-- Bindings that agree with an environment are those of the environment that they extend it to. -/
theorem Agree.binds_extend {env : Environment} {bindings : List (String × Node)} (h : env.Agree bindings) :
    (env.extend bindings).Binds bindings := by
  rintro ⟨name, n⟩ hb
  rw [get?_extend]
  cases hbound : env.get? name with
  | some m => rw [Option.some_or, h.bound name n m hb hbound]
  | none =>
    obtain ⟨m, hm⟩ := exists_get?_of_mem hb
    rw [Option.none_or, hm, h.alike name n m hb (mem_of_get?_eq_some hm)]

end Environment

/-! ### Reading a choice off an environment -/

section Choices

variable {env : Environment}

/-- A node that has been chosen for a tree with a name is the one that the name stands for. -/
theorem TreeChoice.get?_of_binds {tree : PatternTree} (c : TreeChoice tree) {n : Node} {name : String}
    (hname : tree.description.name = some name) (h : env.Binds (c.bindings n)) : env.get? name = some n := by
  cases c with
  | @node description clauses below =>
    have hbinding : description.binding n = [(name, n)] := by
      rw [Description.binding, show description.name = some name from hname]
    rw [TreeChoice.bindings, hbinding, Environment.binds_append] at h
    exact h.1 (name, n) List.mem_cons_self

mutual

/-- An environment tells the choice of a tree that names its targets. -/
theorem TreeChoice.eq_of_binds : {tree : PatternTree} → tree.namesTargets = true → (c c' : TreeChoice tree) →
    (n : Node) → env.Binds (c.bindings n) → env.Binds (c'.bindings n) → c = c'
  | .node _ clauses, hnames, .node below, .node below', n, h, h' => by
    rw [PatternTree.namesTargets] at hnames
    rw [TreeChoice.bindings, Environment.binds_append] at h h'
    rw [ClausesChoice.eq_of_binds hnames below below' n h.2 h'.2]

/-- An environment tells the choice of clauses that name their targets. -/
theorem ClausesChoice.eq_of_binds : {clauses : List Clause} → clausesNameTargets clauses = true →
    (c c' : ClausesChoice clauses) → (n : Node) → env.Binds (c.bindings n) → env.Binds (c'.bindings n) →
    c = c'
  | [], _, .nil, .nil, _, _, _ => rfl
  | clause :: rest, hnames, .cons first more, .cons first' more', n, h, h' => by
    rw [clausesNameTargets, Bool.and_eq_true] at hnames
    rw [ClausesChoice.bindings, Environment.binds_append] at h h'
    rw [ClauseChoice.eq_of_binds hnames.1 first first' n h.1 h'.1,
      ClausesChoice.eq_of_binds hnames.2 more more' n h.2 h'.2]

/-- An environment tells the choice of a clause that names its target. -/
theorem ClauseChoice.eq_of_binds : {clause : Clause} → clause.namesTargets = true → (c c' : ClauseChoice clause) →
    (n : Node) → env.Binds (c.bindings n) → env.Binds (c'.bindings n) → c = c'
  | .link l target, _, .absent _, .absent _, _, _, _ => rfl
  | .link l target, _, .absent negated, .target positive _ _, _, _, _ => by
    rw [negated] at positive
    cases positive
  | .link l target, _, .target positive _ _, .absent negated, _, _, _ => by
    rw [negated] at positive
    cases positive
  | .link l target, hnames, .target positive m below, .target _ m' below', n, h, h' => by
    rw [Clause.namesTargets, positive, Bool.false_or, Bool.and_eq_true] at hnames
    obtain ⟨hname, hnames⟩ := hnames
    obtain ⟨name, hname⟩ := Option.isSome_iff_exists.1 hname
    rw [ClauseChoice.bindings] at h h'
    -- both choices have put the node there that the target's name stands for
    obtain rfl : m = m' :=
      Option.some.inj ((below.get?_of_binds hname h).symm.trans (below'.get?_of_binds hname h'))
    rw [TreeChoice.eq_of_binds hnames below below' m h h']
  | .group _, hnames, _, _, _, _, _ => by
    rw [Clause.namesTargets] at hnames
    cases hnames

end

/-- An environment tells the choice of trees that name their targets. -/
theorem TreesChoice.eq_of_binds {trees : List PatternTree} (hnames : trees.all PatternTree.namesTargets = true)
    {c c' : TreesChoice trees} {n : Node} (h : env.Binds (c.bindings n)) (h' : env.Binds (c'.bindings n)) :
    c = c' := by
  induction trees with
  | nil =>
    cases c
    cases c'
    rfl
  | cons tree rest ih =>
    cases c with
    | cons first more =>
    cases c' with
    | cons first' more' =>
    rw [List.all_cons, Bool.and_eq_true] at hnames
    rw [TreesChoice.bindings, Environment.binds_append] at h h'
    rw [first.eq_of_binds hnames.1 first' n h.1 h'.1, ih hnames.2 h.2 h'.2]

end Choices

/-! ### Results -/

/-- Whether two results have the same root and bind the same names to the same nodes, in whichever order. -/
def Finding.Same (r s : Finding) : Prop :=
  r.root = s.root ∧ ∀ name, r.bindings.get? name = s.bindings.get? name

/-- Consistent choices that stand for the same result are the same. -/
theorem PatternChoice.eq_of_same {p : Pattern} (hnames : p.namesTargets = true) {g : Graph}
    {accepts : LabelFilter → Option String → Bool} {base : Environment} {c c' : PatternChoice p}
    (hc : c.Consistent g accepts base) (hc' : c'.Consistent g accepts base)
    (hsame : (c.finding base).Same (c'.finding base)) : c = c' := by
  obtain ⟨root, trees⟩ := c
  obtain ⟨root', trees'⟩ := c'
  obtain ⟨hroot, hbindings⟩ := hsame
  obtain rfl : root = root' := hroot
  have hbinds := hc.agree.binds_extend
  -- whatever the second choice binds, the result of the first one tells
  have hbinds' : (base.extend (trees.bindings root)).Binds (trees'.bindings root) := fun b hb =>
    (hbindings b.1).trans (hc'.agree.binds_extend b hb)
  exact congrArg (PatternChoice.mk root) (TreesChoice.eq_of_binds hnames hbinds hbinds')

/-- **Patterns that name what they look for have no result twice.**  If the target of every link that is not
negated has a name and there are no groups, all that below negated links apart, then no two results of a search
have the same root and the same node for every name, however many walks or edges lead from node to node. -/
theorem search_distinct {p : Pattern} (hnames : p.namesTargets = true) (g : Graph)
    (accepts : LabelFilter → Option String → Bool) (base : Environment) :
    ∃ results : List Finding, search p g (.total accepts) base = .ofList results ∧
      results.Pairwise fun r s => ¬ r.Same s := by
  refine ⟨(patternChoices g accepts p base).map (PatternChoice.finding base), ?_, ?_⟩
  · rw [search_total, findings_eq_map]
  · rw [List.pairwise_map]
    refine (pairwise_patternChoices p base).imp_of_mem fun {c c'} hc hc' hprecedes hsame => ?_
    rw [mem_patternChoices] at hc hc'
    obtain rfl := PatternChoice.eq_of_same hnames hc hc' hsame
    exact c.not_precedes hprecedes

end

/-- Two edges from a node to the next, and two more from there to a third. -/
def Graph.doubledChain : Graph :=
  ((((empty "word" true).addEdge (.index 1) (.index 2) (some "a")).addEdge (.index 1) (.index 2)
    (some "b")).addEdge (.index 2) (.index 3) (some "a")).addEdge (.index 2) (.index 3) (some "b")

/-- A node with `x` right below it and `y` anywhere below it, where nothing is right above the node, and once
more with `x` right below it. -/
def namedTargets : Pattern where
  first := .node {}
    [.link ⟨.down, .direct, none, false⟩ (.node { name := some "x" } []),
      .link ⟨.down, .far none, none, false⟩ (.node { name := some "y" } [])]
  rest := [.node {}
    [.link ⟨.up, .direct, none, true⟩ (.node {} [.group [[], []]]),
      .link ⟨.down, .direct, none, false⟩ (.node { name := some "x" } [])]]

/-- Four walks lead to the third node of the chain, and it is found once; so is the second. -/
theorem search_distinct_doubledChain :
    namedTargets.namesTargets = true ∧
      ∃ results : List Finding,
        search namedTargets Graph.doubledChain (.total fun _ _ => true) [] = .ofList results ∧
          results.Pairwise fun r s => ¬ r.Same s := by
  have hnames : namedTargets.namesTargets = true := by rfl
  exact ⟨hnames, search_distinct hnames Graph.doubledChain (fun _ _ => true) []⟩

example : (search namedTargets Graph.doubledChain (.total fun _ _ => true) []).toExcept =
    .ok [⟨.index 1, [("x", .index 2), ("y", .index 2)]⟩, ⟨.index 1, [("x", .index 2), ("y", .index 3)]⟩] := by
  cbv

end DependencyQuery
