import DependencyQuery.Proofs.Search.Selections

namespace DependencyQuery

/-!
# The order in which a pattern is written

Clauses, alternatives and trees are tried from left to right, and names are bound on the way.  Where no
name stands inside a negated link, what is found does not depend on the order.

* `Reordering` — whether a list is another one in another order, with each item related to its counterpart;
* `PatternTree.Rearranges`, `Clause.Rearranges`, `Pattern.Rearranges` — whether one pattern is another with
  the clauses of its nodes and alternatives, the alternatives of its groups and its trees in another order,
  at any depth; in particular, any one of these lists may be permuted;
* `PatternTree.perm_descriptions` and its kin — the same descriptions stand in both, and inside the negated
  links of both;
* `PatternTree.treeSelections_eq` and its kin — both select the same;
* `search_rearranged` — and therefore a search finds the same with both.
-/

/-! ### Patterns in another order -/

section Reordering

variable {α : Type} {related : α → α → Prop}

/-- Whether a list is another one in another order, with each item related to its counterpart. -/
inductive Reordering (related : α → α → Prop) : List α → List α → Prop where
  | nil : Reordering related [] []
  | cons {item other : α} {rest after : List α} (before : List α) :
    related item other → Reordering related rest (before ++ after) →
      Reordering related (item :: rest) (before ++ other :: after)

/-- If every item is related to itself, a list may be permuted. -/
theorem Reordering.of_perm {items others : List α} (hrefl : ∀ item, related item item)
    (h : items.Perm others) : Reordering related items others := by
  induction items generalizing others with
  | nil =>
    rw [← h.nil_eq]
    exact .nil
  | cons item rest ih =>
    obtain ⟨before, after, rfl⟩ := List.append_of_mem (h.subset List.mem_cons_self)
    exact .cons before (hrefl item) (ih (h.trans List.perm_middle).cons_inv)

end Reordering

section

variable [Text.CharacterNames]

mutual

/-- Whether a tree is another one written in another order. -/
inductive PatternTree.Rearranges : PatternTree → PatternTree → Prop where
  | node {description : Description} {clauses others : List Clause} :
    Reordering Clause.Rearranges clauses others →
      PatternTree.Rearranges (.node description clauses) (.node description others)

/-- Whether a clause is another one written in another order. -/
inductive Clause.Rearranges : Clause → Clause → Prop where
  | link {l : Link} {target other : PatternTree} :
    PatternTree.Rearranges target other → Clause.Rearranges (.link l target) (.link l other)
  | group {alternatives others : List (List Clause)} :
    Reordering (Reordering Clause.Rearranges) alternatives others →
      Clause.Rearranges (.group alternatives) (.group others)

end

/-- Whether a pattern is another one written in another order. -/
def Pattern.Rearranges (p q : Pattern) : Prop := Reordering PatternTree.Rearranges p.trees q.trees

mutual

/-- A tree is one of its orders. -/
theorem PatternTree.rearranges_refl : (tree : PatternTree) → tree.Rearranges tree
  | .node _ clauses => .node (clausesRearrange_refl clauses)

/-- Clauses are one of their orders. -/
theorem clausesRearrange_refl : (clauses : List Clause) →
    Reordering Clause.Rearranges clauses clauses
  | [] => .nil
  | clause :: rest => .cons [] clause.rearranges_refl (clausesRearrange_refl rest)

/-- A clause is one of its orders. -/
theorem Clause.rearranges_refl : (clause : Clause) → clause.Rearranges clause
  | .link _ target => .link target.rearranges_refl
  | .group alternatives => .group (alternativesRearrange_refl alternatives)

/-- Alternatives are one of their orders. -/
theorem alternativesRearrange_refl : (alternatives : List (List Clause)) →
    Reordering (Reordering Clause.Rearranges) alternatives alternatives
  | [] => .nil
  | clauses :: rest => .cons [] (clausesRearrange_refl clauses) (alternativesRearrange_refl rest)

end

/-! ### The same descriptions -/

/-- The descriptions in clauses are those in each of them. -/
theorem descriptionsOfClauses_eq_flatMap (clauses : List Clause) :
    descriptionsOfClauses clauses = clauses.flatMap Clause.descriptions := by
  induction clauses with
  | nil => rw [descriptionsOfClauses, List.flatMap_nil]
  | cons clause rest ih => rw [descriptionsOfClauses, ih, List.flatMap_cons]

/-- The descriptions in alternatives are those in each of them. -/
theorem descriptionsOfAlternatives_eq_flatMap (alternatives : List (List Clause)) :
    descriptionsOfAlternatives alternatives = alternatives.flatMap descriptionsOfClauses := by
  induction alternatives with
  | nil => rw [descriptionsOfAlternatives, List.flatMap_nil]
  | cons clauses rest ih => rw [descriptionsOfAlternatives, ih, List.flatMap_cons]

/-- The negated descriptions in clauses are those in each of them. -/
theorem negatedInClauses_eq_flatMap (clauses : List Clause) :
    negatedInClauses clauses = clauses.flatMap Clause.negatedDescriptions := by
  induction clauses with
  | nil => rw [negatedInClauses, List.flatMap_nil]
  | cons clause rest ih => rw [negatedInClauses, ih, List.flatMap_cons]

/-- The negated descriptions in alternatives are those in each of them. -/
theorem negatedInAlternatives_eq_flatMap (alternatives : List (List Clause)) :
    negatedInAlternatives alternatives = alternatives.flatMap negatedInClauses := by
  induction alternatives with
  | nil => rw [negatedInAlternatives, List.flatMap_nil]
  | cons clauses rest ih => rw [negatedInAlternatives, ih, List.flatMap_cons]

omit [Text.CharacterNames] in
/-- What the items of a list give, one after the other, when one of them gives the same as an item and the
others give the same as a list. -/
theorem perm_flatMap_middle {α β : Type} {f : α → List β} {a b : α} {rest before after : List α}
    (h : (f a).Perm (f b)) (hrest : (rest.flatMap f).Perm ((before ++ after).flatMap f)) :
    ((a :: rest).flatMap f).Perm ((before ++ b :: after).flatMap f) := by
  have hmiddle : (f b ++ (before ++ after).flatMap f).Perm ((before ++ b :: after).flatMap f) :=
    (List.perm_middle.flatMap_right f).symm
  rw [List.flatMap_cons]
  exact (h.append hrest).trans hmiddle

mutual

/-- A tree in another order has the same descriptions. -/
theorem PatternTree.perm_descriptions : (tree : PatternTree) → {other : PatternTree} →
    tree.Rearranges other → tree.descriptions.Perm other.descriptions
  | .node _ clauses, _, .node h => by
    rw [PatternTree.descriptions, PatternTree.descriptions]
    exact (descriptionsOfClauses_perm clauses h).cons _

/-- Clauses in another order have the same descriptions. -/
theorem descriptionsOfClauses_perm : (clauses : List Clause) → {others : List Clause} →
    Reordering Clause.Rearranges clauses others →
    (descriptionsOfClauses clauses).Perm (descriptionsOfClauses others)
  | [], _, .nil => .refl _
  | clause :: rest, _, .cons _ hclause hrest => by
    have hrest := descriptionsOfClauses_perm rest hrest
    rw [descriptionsOfClauses_eq_flatMap, descriptionsOfClauses_eq_flatMap] at hrest ⊢
    exact perm_flatMap_middle (clause.perm_descriptions hclause) hrest

/-- A clause in another order has the same descriptions. -/
theorem Clause.perm_descriptions : (clause : Clause) → {other : Clause} → clause.Rearranges other →
    clause.descriptions.Perm other.descriptions
  | .link _ target, _, .link h => by
    rw [Clause.descriptions, Clause.descriptions]
    exact target.perm_descriptions h
  | .group alternatives, _, .group h => by
    rw [Clause.descriptions, Clause.descriptions]
    exact descriptionsOfAlternatives_perm alternatives h

/-- Alternatives in another order have the same descriptions. -/
theorem descriptionsOfAlternatives_perm : (alternatives : List (List Clause)) →
    {others : List (List Clause)} → Reordering (Reordering Clause.Rearranges) alternatives others →
    (descriptionsOfAlternatives alternatives).Perm (descriptionsOfAlternatives others)
  | [], _, .nil => .refl _
  | clauses :: rest, _, .cons _ hclauses hrest => by
    have hrest := descriptionsOfAlternatives_perm rest hrest
    rw [descriptionsOfAlternatives_eq_flatMap, descriptionsOfAlternatives_eq_flatMap] at hrest ⊢
    exact perm_flatMap_middle (descriptionsOfClauses_perm clauses hclauses) hrest

end

mutual

/-- A tree in another order has the same negated descriptions. -/
theorem PatternTree.perm_negatedDescriptions : (tree : PatternTree) → {other : PatternTree} →
    tree.Rearranges other → tree.negatedDescriptions.Perm other.negatedDescriptions
  | .node _ clauses, _, .node h => by
    rw [PatternTree.negatedDescriptions, PatternTree.negatedDescriptions]
    exact negatedInClauses_perm clauses h

/-- Clauses in another order have the same negated descriptions. -/
theorem negatedInClauses_perm : (clauses : List Clause) → {others : List Clause} →
    Reordering Clause.Rearranges clauses others →
    (negatedInClauses clauses).Perm (negatedInClauses others)
  | [], _, .nil => .refl _
  | clause :: rest, _, .cons _ hclause hrest => by
    have hrest := negatedInClauses_perm rest hrest
    rw [negatedInClauses_eq_flatMap, negatedInClauses_eq_flatMap] at hrest ⊢
    exact perm_flatMap_middle (clause.perm_negatedDescriptions hclause) hrest

/-- A clause in another order has the same negated descriptions. -/
theorem Clause.perm_negatedDescriptions : (clause : Clause) → {other : Clause} →
    clause.Rearranges other → clause.negatedDescriptions.Perm other.negatedDescriptions
  | .link l target, _, .link h => by
    rw [Clause.negatedDescriptions, Clause.negatedDescriptions]
    by_cases hl : l.negated = true
    · rw [if_pos hl, if_pos hl]
      exact target.perm_descriptions h
    · rw [if_neg hl, if_neg hl]
      exact target.perm_negatedDescriptions h
  | .group alternatives, _, .group h => by
    rw [Clause.negatedDescriptions, Clause.negatedDescriptions]
    exact negatedInAlternatives_perm alternatives h

/-- Alternatives in another order have the same negated descriptions. -/
theorem negatedInAlternatives_perm : (alternatives : List (List Clause)) →
    {others : List (List Clause)} → Reordering (Reordering Clause.Rearranges) alternatives others →
    (negatedInAlternatives alternatives).Perm (negatedInAlternatives others)
  | [], _, .nil => .refl _
  | clauses :: rest, _, .cons _ hclauses hrest => by
    have hrest := negatedInAlternatives_perm rest hrest
    rw [negatedInAlternatives_eq_flatMap, negatedInAlternatives_eq_flatMap] at hrest ⊢
    exact perm_flatMap_middle (negatedInClauses_perm clauses hclauses) hrest

end

/-- Trees in another order have the same negated descriptions. -/
theorem flatMap_negatedDescriptions_perm {trees others : List PatternTree}
    (h : Reordering PatternTree.Rearranges trees others) :
    (trees.flatMap PatternTree.negatedDescriptions).Perm
      (others.flatMap PatternTree.negatedDescriptions) := by
  induction h with
  | nil => exact .refl _
  | @cons tree _ _ _ _ htree _ ih => exact perm_flatMap_middle (tree.perm_negatedDescriptions htree) ih

/-- Descriptions in another order have no names either. -/
theorem Nameless.of_perm {descriptions others : List Description} (h : Nameless descriptions)
    (hperm : descriptions.Perm others) : Nameless others :=
  fun d hd => h d (hperm.mem_iff.2 hd)

mutual

/-- What stands inside a negated link stands in the tree. -/
theorem PatternTree.negatedDescriptions_subset : (tree : PatternTree) →
    tree.negatedDescriptions ⊆ tree.descriptions
  | .node description clauses => by
    rw [PatternTree.negatedDescriptions, PatternTree.descriptions]
    exact List.subset_cons_of_subset _ (negatedInClauses_subset clauses)

/-- Negated descriptions are among those in the clauses. -/
theorem negatedInClauses_subset : (clauses : List Clause) →
    negatedInClauses clauses ⊆ descriptionsOfClauses clauses
  | [] => List.Subset.refl _
  | clause :: rest => by
    rw [negatedInClauses, descriptionsOfClauses]
    exact List.append_subset.2
      ⟨List.subset_append_of_subset_left _ clause.negatedDescriptions_subset,
        List.subset_append_of_subset_right _ (negatedInClauses_subset rest)⟩

/-- Negated descriptions are among those in the clause. -/
theorem Clause.negatedDescriptions_subset : (clause : Clause) →
    clause.negatedDescriptions ⊆ clause.descriptions
  | .link l target => by
    rw [Clause.negatedDescriptions, Clause.descriptions]
    by_cases hl : l.negated = true
    · rw [if_pos hl]
      exact List.Subset.refl _
    · rw [if_neg hl]
      exact target.negatedDescriptions_subset
  | .group alternatives => by
    rw [Clause.negatedDescriptions, Clause.descriptions]
    exact negatedInAlternatives_subset alternatives

/-- Negated descriptions are among those in the alternatives. -/
theorem negatedInAlternatives_subset : (alternatives : List (List Clause)) →
    negatedInAlternatives alternatives ⊆ descriptionsOfAlternatives alternatives
  | [] => List.Subset.refl _
  | clauses :: rest => by
    rw [negatedInAlternatives, descriptionsOfAlternatives]
    exact List.append_subset.2
      ⟨List.subset_append_of_subset_left _ (negatedInClauses_subset clauses),
        List.subset_append_of_subset_right _ (negatedInAlternatives_subset rest)⟩

end

/-! ### The same selections -/

variable {g : Graph} {accepts : LabelFilter → Option String → Bool}

/-- A clause may be taken out from between others and put before them. -/
theorem clausesSelections_middle (before after : List Clause) (clause : Clause) (n : Node) :
    clausesSelections g accepts (before ++ clause :: after) n =
      joins (clauseSelections g accepts clause n) (clausesSelections g accepts (before ++ after) n) := by
  induction before with
  | nil => rw [List.nil_append, List.nil_append, clausesSelections]
  | cons first before ih =>
    rw [List.cons_append, List.cons_append, clausesSelections, clausesSelections, ih, joins_left_comm]

/-- Likewise an alternative. -/
theorem alternativesSelections_middle (before after : List (List Clause)) (clauses : List Clause)
    (n : Node) :
    alternativesSelections g accepts (before ++ clauses :: after) n =
      clausesSelections g accepts clauses n +
        alternativesSelections g accepts (before ++ after) n := by
  induction before with
  | nil => rw [List.nil_append, List.nil_append, alternativesSelections]
  | cons first before ih =>
    rw [List.cons_append, List.cons_append, alternativesSelections, alternativesSelections, ih,
      add_left_comm]

/-- Likewise a tree. -/
theorem treesSelections_middle (before after : List PatternTree) (tree : PatternTree) (n : Node) :
    treesSelections g accepts (before ++ tree :: after) n =
      joins (treeSelections g accepts tree n) (treesSelections g accepts (before ++ after) n) := by
  induction before with
  | nil => rw [List.nil_append, List.nil_append, treesSelections]
  | cons first before ih =>
    rw [List.cons_append, List.cons_append, treesSelections, treesSelections, ih, joins_left_comm]

/-- Trees that select the same fit both or neither, whatever environment they are tried in. -/
theorem isEmpty_treeFits_eq {tree other : PatternTree} (htree : Nameless tree.negatedDescriptions)
    (hother : Nameless other.negatedDescriptions) {n : Node}
    (h : treeSelections g accepts tree n = treeSelections g accepts other n) (env : Environment) :
    (treeFits g accepts tree env n).isEmpty = (treeFits g accepts other env n).isEmpty := by
  have hmap : (treeFits g accepts tree env n : Multiset Environment).map Environment.assignment =
      (treeFits g accepts other env n : Multiset Environment).map Environment.assignment := by
    rw [map_treeFits tree htree, map_treeFits other hother, h]
  have hlength : (treeFits g accepts tree env n).length = (treeFits g accepts other env n).length := by
    simpa only [Multiset.card_map, Multiset.coe_card] using congrArg Multiset.card hmap
  rw [Bool.eq_iff_iff, List.isEmpty_iff_length_eq_zero, List.isEmpty_iff_length_eq_zero, hlength]

mutual

/-- A tree in another order selects the same. -/
theorem PatternTree.treeSelections_eq : (tree : PatternTree) → {other : PatternTree} →
    tree.Rearranges other → Nameless tree.negatedDescriptions → (n : Node) →
    treeSelections g accepts tree n = treeSelections g accepts other n
  | .node _ clauses, _, .node h, hnames, n => by
    rw [PatternTree.negatedDescriptions] at hnames
    rw [treeSelections, treeSelections, clausesSelections_eq clauses h hnames n]

/-- Clauses in another order select the same. -/
theorem clausesSelections_eq : (clauses : List Clause) → {others : List Clause} →
    Reordering Clause.Rearranges clauses others → Nameless (negatedInClauses clauses) → (n : Node) →
    clausesSelections g accepts clauses n = clausesSelections g accepts others n
  | [], _, .nil, _, _ => rfl
  | clause :: rest, _, .cons _ hclause hrest, hnames, n => by
    rw [negatedInClauses, nameless_append] at hnames
    -- the counterpart of the first clause is put before the others, and then both heads are joined to rests
    -- that select the same
    rw [clausesSelections_middle, clausesSelections, clause.clauseSelections_eq hclause hnames.1 n,
      clausesSelections_eq rest hrest hnames.2 n]

/-- A clause in another order selects the same. -/
theorem Clause.clauseSelections_eq : (clause : Clause) → {other : Clause} → clause.Rearranges other →
    Nameless clause.negatedDescriptions → (n : Node) →
    clauseSelections g accepts clause n = clauseSelections g accepts other n
  | .link l target, .link _ other, .link h, hnames, n => by
    rw [Clause.negatedDescriptions] at hnames
    rw [clauseSelections, clauseSelections]
    by_cases hl : l.negated = true
    · rw [if_pos hl] at hnames
      rw [if_pos hl, if_pos hl]
      -- no name stands in the target at all, so none stands inside its own negated links
      have htarget : Nameless target.negatedDescriptions := fun d hd =>
        hnames d (target.negatedDescriptions_subset hd)
      have hempty : ∀ m, (treeFits g accepts target [] m).isEmpty =
          (treeFits g accepts other [] m).isEmpty := fun m =>
        isEmpty_treeFits_eq htarget (htarget.of_perm (target.perm_negatedDescriptions h))
          (target.treeSelections_eq h htarget m) []
      simp only [hempty]
    · rw [if_neg hl] at hnames
      rw [if_neg hl, if_neg hl]
      exact Multiset.bind_congr fun m _ => target.treeSelections_eq h hnames m
  | .group alternatives, _, .group h, hnames, n => by
    rw [Clause.negatedDescriptions] at hnames
    rw [clauseSelections, clauseSelections]
    exact alternativesSelections_eq alternatives h hnames n

/-- Alternatives in another order select the same. -/
theorem alternativesSelections_eq : (alternatives : List (List Clause)) →
    {others : List (List Clause)} → Reordering (Reordering Clause.Rearranges) alternatives others →
    Nameless (negatedInAlternatives alternatives) → (n : Node) →
    alternativesSelections g accepts alternatives n = alternativesSelections g accepts others n
  | [], _, .nil, _, _ => rfl
  | clauses :: rest, _, .cons _ hclauses hrest, hnames, n => by
    rw [negatedInAlternatives, nameless_append] at hnames
    rw [alternativesSelections_middle, alternativesSelections,
      clausesSelections_eq clauses hclauses hnames.1 n, alternativesSelections_eq rest hrest hnames.2 n]

end

/-- Trees in another order select the same. -/
theorem treesSelections_eq {trees others : List PatternTree}
    (h : Reordering PatternTree.Rearranges trees others)
    (hnames : Nameless (trees.flatMap PatternTree.negatedDescriptions)) (n : Node) :
    treesSelections g accepts trees n = treesSelections g accepts others n := by
  induction h with
  | nil => rfl
  | @cons tree _ _ _ _ htree _ ih =>
    rw [List.flatMap_cons, nameless_append] at hnames
    rw [treesSelections_middle, treesSelections, tree.treeSelections_eq htree hnames.1 n, ih hnames.2]

/-! ### The same results -/

/-- The root of a result, and what the result says of each name. -/
def Finding.selection (f : Finding) : Node × Assignment := (f.root, f.bindings.get?)

/-- The results of a search are what its trees select, at each node of the graph. -/
theorem map_findings {p : Pattern} (h : Nameless p.negatedDescriptions) (base : Environment) :
    (findings g accepts p base : Multiset Finding).map Finding.selection =
      (g.nodes : Multiset Node).bind fun root =>
        (joins {base.assignment} (treesSelections g accepts p.trees root)).map fun a => (root, a) := by
  rw [findings, ← Multiset.coe_bind, Multiset.map_bind]
  refine Multiset.bind_congr fun root _ => ?_
  rw [← map_treesFits p.trees h base root, Multiset.map_map, ← Multiset.map_coe, Multiset.map_map]
  rfl

/-- **Where no name stands inside a negated link, the order of writing does not matter.**  A pattern and
the same pattern in another order give the same results, as often, up to the order of the results and of
the bindings in each. -/
theorem search_rearranged {p q : Pattern} (h : p.Rearranges q)
    (hnames : ∀ d ∈ p.negatedDescriptions, d.name = none) (g : Graph)
    (accepts : LabelFilter → Option String → Bool) (base : Environment) :
    ∃ found others, search p g (.total accepts) base = .ofList found ∧
      search q g (.total accepts) base = .ofList others ∧
      (found.map fun f => (f.root, f.bindings.get?)).Perm
        (others.map fun f => (f.root, f.bindings.get?)) := by
  refine ⟨_, _, search_total p base, search_total q base, ?_⟩
  have hother : Nameless q.negatedDescriptions :=
    Nameless.of_perm hnames (flatMap_negatedDescriptions_perm h)
  have hselections : ∀ n, treesSelections g accepts p.trees n = treesSelections g accepts q.trees n :=
    treesSelections_eq h hnames
  have hmap : (findings g accepts p base : Multiset Finding).map Finding.selection =
      (findings g accepts q base : Multiset Finding).map Finding.selection := by
    rw [map_findings hnames, map_findings hother]
    simp only [hselections]
  exact Multiset.coe_eq_coe.1 hmap

end

/-- A name inside a negated link matters: in a row of three words, the middle one depends on none that it
governs, but without a node for `y` it depends on some. -/
example :
    let row := ((Graph.empty "word" true).addEdge (.index 1) (.index 2) none).addEdge (.index 2) (.index 3)
      none
    let positive : Clause := .link ⟨.down, .direct, none, false⟩ (.node { name := some "y" } [])
    let negative : Clause := .link ⟨.up, .direct, none, true⟩ (.node { name := some "y" } [])
    search ⟨.node {} [positive, negative], []⟩ row (.total fun _ _ => true) [] =
        .ofList [⟨.index 1, [("y", .index 2)]⟩, ⟨.index 2, [("y", .index 3)]⟩] ∧
      search ⟨.node {} [negative, positive], []⟩ row (.total fun _ _ => true) [] =
        .ofList [⟨.index 1, [("y", .index 2)]⟩] :=
  ⟨rfl, rfl⟩

/-- A link down, to a node that may have a name, and a link up. -/
def downAndUp (down : Option String) : List Clause :=
  [.link ⟨.down, .direct, none, false⟩ (.node { name := down } []),
    .link ⟨.up, .direct, none, false⟩ (.node {} [])]

/-- The same with the second link first. -/
def upAndDown (down : Option String) : List Clause :=
  [.link ⟨.up, .direct, none, false⟩ (.node {} []),
    .link ⟨.down, .direct, none, false⟩ (.node { name := down } [])]

/-- A node with an `x` below it, as a link over one edge or over any number of them finds it, and no
inner node tagged `X` above it. -/
def surroundings : Pattern where
  first := .node {} [
    .group [downAndUp (some "x"), [.link ⟨.down, .far none, none, false⟩ (.node { name := some "x" } [])]],
    .link ⟨.up, .direct, none, true⟩ (.node { tests := [⟨.tag, .literal "X"⟩] } (downAndUp none))]
  rest := [.node { name := some "y" } []]

/-- The same, with the other order wherever there is more than one. -/
def turnedSurroundings : Pattern where
  first := .node { name := some "y" } []
  rest := [.node {} [
    .link ⟨.up, .direct, none, true⟩ (.node { tests := [⟨.tag, .literal "X"⟩] } (upAndDown none)),
    .group [[.link ⟨.down, .far none, none, false⟩ (.node { name := some "x" } [])], upAndDown (some "x")]]]

/-- Clauses, alternatives and trees change places, those inside a negated link too, and `x` is given. -/
theorem search_rearranged_surroundings :
    surroundings.Rearranges turnedSurroundings ∧
      (∀ d ∈ surroundings.negatedDescriptions, d.name = none) ∧
        ∃ found others,
          search surroundings Graph.mutualPair (.total fun _ _ => true) [("x", .index 1)] =
            .ofList found ∧
          search turnedSurroundings Graph.mutualPair (.total fun _ _ => true) [("x", .index 1)] =
            .ofList others ∧
          (found.map fun f => (f.root, f.bindings.get?)).Perm
            (others.map fun f => (f.root, f.bindings.get?)) := by
  -- the conjunction turned around at both levels, and the alternatives with it
  have hlinks : ∀ down, Reordering Clause.Rearranges (downAndUp down) (upAndDown down) := fun down =>
    .of_perm Clause.rearranges_refl (.swap _ _ _)
  have hgroup : Reordering (Reordering Clause.Rearranges)
      [downAndUp (some "x"), [.link ⟨.down, .far none, none, false⟩ (.node { name := some "x" } [])]]
      [[.link ⟨.down, .far none, none, false⟩ (.node { name := some "x" } [])], upAndDown (some "x")] :=
    .cons [_] (hlinks _) (alternativesRearrange_refl _)
  have htree : Reordering PatternTree.Rearranges [.node { name := some "y" } []]
      [.node { name := some "y" } []] :=
    .of_perm PatternTree.rearranges_refl (.refl _)
  have hrearranges : surroundings.Rearranges turnedSurroundings :=
    .cons [_] (.node (.cons [_] (.group hgroup)
      (.cons [] (.link (.node (hlinks none))) .nil))) htree
  have hnames : ∀ d ∈ surroundings.negatedDescriptions, d.name = none := by
    simp [Pattern.negatedDescriptions, Pattern.trees, surroundings, downAndUp,
      PatternTree.negatedDescriptions, negatedInClauses, negatedInAlternatives,
      Clause.negatedDescriptions, PatternTree.descriptions, Clause.descriptions, descriptionsOfClauses]
  exact ⟨hrearranges, hnames, search_rearranged hrearranges hnames Graph.mutualPair (fun _ _ => true)
    [("x", .index 1)]⟩

end DependencyQuery
