import DependencyQuery.Search.Basic

namespace DependencyQuery

/-!
# Trees that only repeat their root

All trees of a pattern describe the same node.  A later tree that neither tests it nor gives it a new name
might as well leave its clauses to the first one.

* `Results.append_assoc`, `Results.flatMap_assoc` — searches one after the other, or inside each other, may
  be grouped in any way;
* `Results.All` — whether all that a search finds has a property, `Results.All.flatMap_congr` — only such
  results matter to what goes on from them;
* `matchTree_keeps` and its kin — a name that is bound stands for the same node in all that is found;
* `matchClauses_append` — clauses after others are looked at in every environment that those leave;
* `Description.Repeats` — a description that asks for nothing beyond another one at the same node;
* `search_partition` — so a pattern finds the same whether later trees repeat its root or not.
-/

/-! ### Searches inside each other -/

namespace Results

variable {ε α β γ : Type}

/-- Appending nothing changes nothing. -/
@[simp] theorem append_done (found : Results ε α) : (found.append fun _ => done) = found := by
  induction found with
  | done => rfl
  | failed e => rfl
  | next a rest ih =>
    rw [append]
    exact congrArg _ (funext ih)

/-- It does not matter in which order streams are appended. -/
theorem append_assoc (found : Results ε α) (more last : Unit → Results ε α) :
    (found.append more).append last = found.append fun _ => (more ()).append last := by
  induction found with
  | done => rfl
  | failed e => rfl
  | next a rest ih =>
    rw [append, append, append]
    exact congrArg _ (funext fun _ => ih ())

/-- A single result goes on as the search goes on from it. -/
@[simp] theorem single_flatMap (a : α) (f : α → Results ε β) : (single a).flatMap f = f a :=
  append_done (f a)

/-- Going on with nothing but what there is changes nothing. -/
@[simp] theorem flatMap_single (found : Results ε α) : found.flatMap single = found := by
  induction found with
  | done => rfl
  | failed e => rfl
  | next a rest ih =>
    rw [flatMap, single, append]
    exact congrArg _ (funext ih)

/-- A search goes on from the first results before it does from the others. -/
theorem append_flatMap (found : Results ε α) (more : Unit → Results ε α) (f : α → Results ε β) :
    (found.append more).flatMap f = (found.flatMap f).append fun _ => (more ()).flatMap f := by
  induction found with
  | done => rfl
  | failed e => rfl
  | next a rest ih =>
    rw [append, flatMap, flatMap, append_assoc]
    exact congrArg _ (funext fun _ => ih ())

/-- It does not matter in which order searches that follow each other are put together. -/
theorem flatMap_assoc (found : Results ε α) (f : α → Results ε β) (g : β → Results ε γ) :
    (found.flatMap f).flatMap g = found.flatMap fun a => (f a).flatMap g := by
  induction found with
  | done => rfl
  | failed e => rfl
  | next a rest ih =>
    rw [flatMap, append_flatMap, flatMap]
    exact congrArg _ (funext fun _ => ih ())

/-- Whether all results have a property, up to the end or to the failure. -/
def All (P : α → Prop) : Results ε α → Prop
  | done => True
  | failed _ => True
  | next a rest => P a ∧ (rest ()).All P

variable {P : α → Prop} {Q : β → Prop} {found : Results ε α}

/-- What is true of everything is true of all results. -/
theorem All.of_forall (h : ∀ a, P a) (found : Results ε α) : found.All P := by
  induction found with
  | done => trivial
  | failed e => trivial
  | next a rest ih => exact ⟨h a, ih ()⟩

/-- What is true of all results of two streams is true of those of both. -/
theorem All.append (h : found.All P) {more : Unit → Results ε α} (hmore : (more ()).All P) :
    (found.append more).All P := by
  induction found with
  | done => exact hmore
  | failed e => trivial
  | next a rest ih => exact ⟨h.1, ih () h.2⟩

/-- If a property of results leads to another one of what is found from them, all that is found has it. -/
theorem All.flatMap (h : found.All P) {f : α → Results ε β} (hf : ∀ a, P a → (f a).All Q) :
    (found.flatMap f).All Q := by
  induction found with
  | done => trivial
  | failed e => trivial
  | next a rest ih => exact (hf a h.1).append (ih () h.2)

/-- Searches go on alike that do so from results with a property which all have. -/
theorem All.flatMap_congr (h : found.All P) {f g : α → Results ε β} (hfg : ∀ a, P a → f a = g a) :
    found.flatMap f = found.flatMap g := by
  induction found with
  | done => rfl
  | failed e => rfl
  | next a rest ih =>
    rw [Results.flatMap, Results.flatMap, hfg a h.1]
    exact congrArg _ (funext fun _ => ih () h.2)

end Results

/-! ### Bound names -/

section

variable [Text.CharacterNames]

section Match

variable {g : Graph} {predicate : LabelPredicate} {name : String} {m : Node}

/-- Where a description may stand, binding it leaves every name with the node that it had. -/
theorem Description.get?_bind {d : Description} {env : Environment} {n : Node}
    (hallows : d.allows env n = true) (hm : env.get? name = some m) :
    (d.bind env n).get? name = some m := by
  cases hname : d.name with
  | none => rwa [bind, hname]
  | some own =>
    rw [bind, hname]
    dsimp only
    split
    · exact hm
    · next hnew =>
      rw [Environment.get?_set]
      split
      · -- the name is the description's own, which may only stand for this node
        next hown =>
        subst hown
        rw [allows, hname, Option.bind_some, hm] at hallows
        rw [hm, show m = n by simpa using hallows] at hnew
        exact absurd rfl hnew
      · exact hm

mutual

/-- Matching a tree keeps what is bound. -/
theorem matchTree_keeps : (tree : PatternTree) → (env : Environment) → (n : Node) →
    env.get? name = some m → (matchTree g predicate tree env n).All fun env => env.get? name = some m
  | .node d clauses, env, n, hm => by
    rw [matchTree]
    split
    · next hsatisfied =>
      rw [Description.isSatisfied, Bool.and_eq_true] at hsatisfied
      exact matchClauses_keeps clauses _ n (Description.get?_bind hsatisfied.1 hm)
    · trivial

/-- Matching clauses keeps what is bound. -/
theorem matchClauses_keeps : (clauses : List Clause) → (env : Environment) → (n : Node) →
    env.get? name = some m →
    (matchClauses g predicate clauses env n).All fun env => env.get? name = some m
  | [], env, n, hm => by
    rw [matchClauses]
    exact ⟨hm, trivial⟩
  | clause :: rest, env, n, hm => by
    rw [matchClauses]
    exact (matchClause_keeps clause env n hm).flatMap fun env hm => matchClauses_keeps rest env n hm

/-- Matching a clause keeps what is bound. -/
theorem matchClause_keeps : (clause : Clause) → (env : Environment) → (n : Node) →
    env.get? name = some m →
    (matchClause g predicate clause env n).All fun env => env.get? name = some m
  | .link l target, env, n, hm => by
    rw [matchClause]
    split
    · -- a negated link lets the environment pass as it is, if at all
      rcases (g.witnesses predicate l n).existsAny (matchTree g predicate target env) with e | _ | _
      · trivial
      · exact ⟨hm, trivial⟩
      · trivial
    · exact (Results.All.of_forall (fun _ => trivial) _).flatMap fun w _ => matchTree_keeps target env w hm
  | .group alternatives, env, n, hm => by
    rw [matchClause]
    exact matchAlternatives_keeps alternatives env n hm

/-- Matching alternatives keeps what is bound. -/
theorem matchAlternatives_keeps : (alternatives : List (List Clause)) → (env : Environment) →
    (n : Node) → env.get? name = some m →
    (matchAlternatives g predicate alternatives env n).All fun env => env.get? name = some m
  | [], env, n, hm => by
    rw [matchAlternatives]
    trivial
  | clauses :: rest, env, n, hm => by
    rw [matchAlternatives]
    exact (matchClauses_keeps clauses env n hm).append (matchAlternatives_keeps rest env n hm)

end

/-- A description whose name stands for a node stays so in all that clauses find. -/
theorem matchClauses_isBound {d : Description} {env : Environment} {n : Node} (h : d.isBound env n = true)
    (clauses : List Clause) :
    (matchClauses g predicate clauses env n).All fun env => d.isBound env n = true := by
  unfold Description.isBound at h ⊢
  cases hname : d.name with
  | none => exact Results.All.of_forall (fun _ => rfl) _
  | some own =>
    rw [hname] at h
    simp only [decide_eq_true_eq] at h ⊢
    exact matchClauses_keeps clauses env n h

/-! ### One tree after another -/

/-- Clauses are matched one after another. -/
theorem matchClauses_append (clauses more : List Clause) (env : Environment) (n : Node) :
    matchClauses g predicate (clauses ++ more) env n =
      (matchClauses g predicate clauses env n).flatMap fun env => matchClauses g predicate more env n := by
  induction clauses generalizing env with
  | nil => rw [List.nil_append, matchClauses, Results.single_flatMap]
  | cons clause rest ih =>
    simp only [List.cons_append, matchClauses, Results.flatMap_assoc, ih]

/-- Whether a description asks for nothing beyond another one at the same node: it has no tests, which it
does not turn around either, and no name but that of the other one. -/
structure Description.Repeats (d other : Description) : Prop where
  tests : other.tests = []
  positive : other.negated = false
  name : other.name = none ∨ other.name = d.name

variable {d : Description} {env : Environment} {n : Node}

/-- After a description has been bound to a node, it is. -/
theorem Description.isBound_bind (d : Description) (env : Environment) (n : Node) :
    d.isBound (d.bind env n) n = true := by
  unfold isBound bind
  cases d.name with
  | none => rfl
  | some own =>
    dsimp only
    split
    · next hbound => exact decide_eq_true hbound
    · rw [Environment.get?_set, if_pos rfl]
      exact decide_eq_true rfl

/-- Where binding changes nothing, the node may stand there. -/
theorem Description.allows_of_isBound (h : d.isBound env n = true) : d.allows env n = true := by
  unfold isBound at h
  unfold allows
  cases hname : d.name with
  | none => rfl
  | some own =>
    rw [hname] at h
    rw [Option.bind_some, show env.get? own = some n by simpa using h]
    exact decide_eq_true rfl

/-- Binding what is bound changes nothing. -/
theorem Description.bind_of_isBound (h : d.isBound env n = true) : d.bind env n = env := by
  unfold isBound at h
  unfold bind
  cases hname : d.name with
  | none => rfl
  | some own =>
    rw [hname] at h
    exact if_pos (by simpa using h)

namespace Description.Repeats

variable {other : Description}

/-- A description that only repeats another one is bound where that is. -/
theorem isBound (h : d.Repeats other) (hd : d.isBound env n = true) : other.isBound env n = true := by
  unfold Description.isBound at hd ⊢
  rcases h.name with hname | hname
  · rw [hname]
  · rwa [hname]

/-- A description that only repeats another one is satisfied where that is bound. -/
theorem isSatisfied (h : d.Repeats other) (hd : d.isBound env n = true) :
    other.isSatisfied g env n = true := by
  rw [Description.isSatisfied, allows_of_isBound (h.isBound hd), testsPass, h.tests, h.positive]
  rfl

/-- A description that repeats another one is satisfied where that one is bound, and binds nothing new. -/
theorem matchTree (h : d.Repeats other) (hd : d.isBound env n = true) (clauses : List Clause) :
    matchTree g predicate (.node other clauses) env n = matchClauses g predicate clauses env n := by
  rw [DependencyQuery.matchTree, if_pos (h.isSatisfied hd), bind_of_isBound (h.isBound hd)]

end Description.Repeats

/-- Trees that repeat a description which is bound are searched as their clauses in a row. -/
theorem matchTrees_of_repeats {trees : List PatternTree}
    (htrees : ∀ tree ∈ trees, d.Repeats tree.description) (hd : d.isBound env n = true) :
    matchTrees g predicate trees env n =
      matchClauses g predicate (trees.flatMap PatternTree.clauses) env n := by
  induction trees generalizing env with
  | nil => rw [matchTrees, List.flatMap_nil, matchClauses]
  | cons tree rest ih =>
    obtain ⟨other, clauses⟩ := tree
    obtain ⟨hother, hrest⟩ : d.Repeats other ∧ ∀ tree ∈ rest, d.Repeats tree.description :=
      List.forall_mem_cons.1 htrees
    -- what the first of them finds still has the description bound, so that the others go on likewise
    rw [matchTrees, hother.matchTree hd, List.flatMap_cons, matchClauses_append]
    exact (matchClauses_isBound hd clauses).flatMap_congr fun env hd => ih hrest hd

end Match

/-- **Trees that only repeat the root are so many more clauses.**  Let every later tree of a pattern begin with
a description that has no tests, is not negated, and has no name or that of the first one.  Then the pattern
finds what a single tree finds that has all the clauses: the same results, in the same order and as often, in
every graph, from every environment and with any predicate on labels; and it fails where that one fails. -/
theorem search_partition {d : Description} {clauses : List Clause} {later : List PatternTree}
    (hlater : ∀ tree ∈ later, d.Repeats tree.description) (g : Graph) (predicate : LabelPredicate)
    (base : Environment) :
    search ⟨.node d clauses, later⟩ g predicate base =
      search ⟨.node d (clauses ++ later.flatMap PatternTree.clauses), []⟩ g predicate base := by
  have hroot : ∀ root, matchTrees g predicate (.node d clauses :: later) base root =
      matchTrees g predicate [.node d (clauses ++ later.flatMap PatternTree.clauses)] base root := by
    intro root
    have hsingle : (fun env => matchTrees g predicate [] env root) = .single := rfl
    rw [matchTrees, matchTrees, hsingle, Results.flatMap_single, matchTree, matchTree]
    split
    · rw [matchClauses_append]
      exact (matchClauses_isBound (d.isBound_bind base root) clauses).flatMap_congr
        fun env hd => matchTrees_of_repeats hlater hd
    · rfl
  simp only [search, Pattern.trees, hroot]

end

/-- A word with two others below it. -/
def twoBelow : Graph where
  entries := [(.index 1, [("word", some "a")]), (.index 2, [("word", some "b")]),
    (.index 3, [("word", some "c")])]
  edges := [⟨.index 1, .index 2, some "obj"⟩, ⟨.index 1, .index 3, some "obj"⟩]
  nodup := by decide
  closed := by decide

/-- Something below a node that is named `x`, under a name. -/
def namedBelow (name : String) : Clause :=
  .link ⟨.down, .direct, none, false⟩ (.node { name := some name } [])

/-- Two more trees with the root, one of which names it again, while a node for `z` is given. -/
theorem search_partition_threeTrees :
    (∀ tree ∈ [PatternTree.node {} [namedBelow "z"], .node { name := some "x" } [namedBelow "y"]],
        Description.Repeats { name := some "x" } tree.description) ∧
      search ⟨.node { name := some "x" } [namedBelow "y"],
          [.node {} [namedBelow "z"], .node { name := some "x" } [namedBelow "y"]]⟩
          twoBelow (fun _ _ => .ok true) [("z", .index 3)] =
        search ⟨.node { name := some "x" } [namedBelow "y", namedBelow "z", namedBelow "y"], []⟩
          twoBelow (fun _ _ => .ok true) [("z", .index 3)] ∧
      (search ⟨.node { name := some "x" } [namedBelow "y", namedBelow "z", namedBelow "y"], []⟩
          twoBelow (fun _ _ => .ok true) [("z", .index 3)]).toExcept =
        .ok [⟨.index 1, [("z", .index 3), ("x", .index 1), ("y", .index 2)]⟩,
          ⟨.index 1, [("z", .index 3), ("x", .index 1), ("y", .index 3)]⟩] := by
  have hlater : ∀ tree ∈ [PatternTree.node {} [namedBelow "z"], .node { name := some "x" } [namedBelow "y"]],
      Description.Repeats { name := some "x" } tree.description := by
    refine List.forall_mem_cons.2 ⟨⟨rfl, rfl, .inl rfl⟩, List.forall_mem_singleton.2 ⟨rfl, rfl, .inr rfl⟩⟩
  exact ⟨hlater, search_partition hlater _ _ _, rfl⟩

end DependencyQuery
