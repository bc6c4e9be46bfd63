import DependencyQuery.Proofs.Search.Completeness

namespace DependencyQuery

/-!
# Giving a search nodes for some names

A search that is given nodes for some names leaves out what does not fit them as soon as it meets a
name; one that is given none finds everything, and what does not fit can be left out afterwards.

* `PatternTree.negatedDescriptions` and its kin — the descriptions inside negated links;
* `Environment.respects` — whether an environment gives no name another node than the base does,
  `seeded` — those of some environments that do so, extended by what else the base holds;
* `treeFits_extend_of_free` and its kin — what mentions no name of the base fits with it as without it;
* `treeFits_extend` and its kin — a search from an extended base finds what is left of the search
  without it;
* `search_seeded` — so seeding a search is the same as filtering it, if no name of the base stands
  inside a negated link.
-/

/-! ### What stands inside negated links -/

section

variable [Text.CharacterNames]

mutual

/-- The descriptions inside the negated links of a tree. -/
def PatternTree.negatedDescriptions : PatternTree → List Description
  | .node _ clauses => negatedInClauses clauses

/-- The descriptions inside the negated links of a clause. -/
def Clause.negatedDescriptions : Clause → List Description
  | .link l target => if l.negated then target.descriptions else target.negatedDescriptions
  | .group alternatives => negatedInAlternatives alternatives

/-- The descriptions inside the negated links of several clauses. -/
def negatedInClauses : List Clause → List Description
  | [] => []
  | clause :: rest => clause.negatedDescriptions ++ negatedInClauses rest

/-- The descriptions inside the negated links of alternatives. -/
def negatedInAlternatives : List (List Clause) → List Description
  | [] => []
  | clauses :: rest => negatedInClauses clauses ++ negatedInAlternatives rest

end

/-- The descriptions inside the negated links of a pattern. -/
def Pattern.negatedDescriptions (p : Pattern) : List Description :=
  p.trees.flatMap PatternTree.negatedDescriptions

/-! ### Environments beside a base -/

namespace Environment

/-- Whether no name of the environment is bound to another node by the base. -/
def respects (env base : Environment) : Bool :=
  env.all fun b => (base.get? b.1).all fun n => n = b.2

/-- Whether the base binds the name of none of some descriptions. -/
def Free (base : Environment) (descriptions : List Description) : Prop :=
  ∀ d ∈ descriptions, d.name.bind base.get? = none

/-- An environment is free of the names in two lists if it is free of those in each. -/
theorem free_append {base : Environment} {ds es : List Description} :
    base.Free (ds ++ es) ↔ base.Free ds ∧ base.Free es := List.forall_mem_append

omit [Text.CharacterNames] in
/-- Bindings respect a base if the first ones do and the others do. -/
theorem respects_append {env more base : Environment} :
    respects (env ++ more) base = (env.respects base && respects more base) := List.all_append

omit [Text.CharacterNames] in
/-- A single binding respects a base that does not bind its name otherwise. -/
theorem respects_singleton {base : Environment} {name : String} {n : Node} :
    respects [(name, n)] base = (base.get? name).all fun m => m = n := by
  simp [respects]

omit [Text.CharacterNames] in
/-- What has been bound before respects a base if all does in the end. -/
theorem respects_of_extend {env base : Environment} {bindings : List (String × Node)}
    (h : (env.extend bindings).respects base = true) : env.respects base = true := by
  obtain ⟨more, hmore⟩ := exists_extend_eq_append env bindings
  rw [hmore, respects_append, Bool.and_eq_true] at h
  exact h.1

omit [Text.CharacterNames] in
/-- What an environment that respects the base says of a name, the base does not contradict. -/
theorem get?_eq_of_respects {env base : Environment} (h : env.respects base = true) {name : String}
    {m n : Node} (hm : env.get? name = some m) (hn : base.get? name = some n) : n = m := by
  have := List.all_eq_true.1 h _ (mem_of_get?_eq_some hm)
  simpa [hn] using this

omit [Text.CharacterNames] in
/-- A binding that is added to an extension is added to what the base is extended by. -/
theorem extend_add (base env : Environment) (name : String) (n : Node) :
    base.extend (env.add name n) = (base.extend env).add name n := by
  unfold add
  by_cases h : (env.get? name).isSome
  · have h' : ((base.extend env).get? name).isSome := by
      rw [get?_extend, Option.isSome_or, h, Bool.or_true]
    rw [if_pos h, if_pos h']
  · rw [if_neg h, extend_append, extend_singleton, add]

omit [Text.CharacterNames] in
/-- It does not matter whether an environment is extended before or after a base is extended by it. -/
theorem extend_extend (base env : Environment) (bindings : List (String × Node)) :
    base.extend (env.extend bindings) = (base.extend env).extend bindings := by
  induction bindings generalizing env with
  | nil => rfl
  | cons b rest ih =>
    have := ih (env.add b.1 b.2)
    rwa [extend_add] at this

end Environment

namespace Description

variable {d : Description} {base env : Environment} {n : Node}

/-- A node that is allowed with the base and without is bound alike. -/
theorem bind_extend (hallows : d.allows env n = true)
    (hallows' : d.allows (base.extend env) n = true) :
    d.bind (base.extend env) n = base.extend (d.bind env n) := by
  rw [bind_eq_extend hallows, bind_eq_extend hallows', Environment.extend_extend]

/-- A name that the base does not bind is allowed as without the base. -/
theorem allows_extend_of_free (h : d.name.bind base.get? = none) :
    d.allows (base.extend env) n = d.allows env n := by
  unfold allows
  cases hd : d.name with
  | none => rfl
  | some name =>
    rw [hd, Option.bind_some] at h
    rw [Option.bind_some, Option.bind_some, Environment.get?_extend, h, Option.none_or]

/-- Beside a base, a description may stand at a node just when it may stand there without the base
and what it binds respects the base. -/
theorem allows_extend (h : env.respects base = true) :
    d.allows (base.extend env) n = (d.allows env n && (d.bind env n).respects base) := by
  unfold allows bind
  cases hd : d.name with
  | none => simp [h]
  | some name =>
    simp only [Option.bind_some, Environment.get?_extend]
    cases he : env.get? name with
    -- the name is bound already, by the environment alone or by the base as well
    | some m =>
      cases hb : base.get? name with
      | none => by_cases hm : m = n <;> simp [hm, h]
      | some k =>
        obtain rfl : k = m := Environment.get?_eq_of_respects h he hb
        by_cases hk : k = n <;> simp [hk, h]
    | none =>
      -- the name is new to the environment, so that the base alone decides
      cases hb : base.get? name with
      | none =>
        simp [Environment.set, he, Environment.respects_append, h, Environment.respects_singleton, hb]
      | some k =>
        simp [Environment.set, he, Environment.respects_append, h, Environment.respects_singleton, hb]

end Description

variable {g : Graph} {accepts : LabelFilter → Option String → Bool} {base : Environment}

/-! ### What mentions no name of the base -/

mutual

/-- A tree whose names the base does not bind fits as it does without the base. -/
theorem treeFits_extend_of_free : (tree : PatternTree) → (h : base.Free tree.descriptions) →
    (env : Environment) → (n : Node) →
    treeFits g accepts tree (base.extend env) n =
      (treeFits g accepts tree env n).map base.extend
  | .node description clauses, h, env, n => by
    rw [PatternTree.descriptions, Environment.Free, List.forall_mem_cons] at h
    have hallows : description.allows (base.extend env) n = description.allows env n :=
      Description.allows_extend_of_free h.1
    rw [treeFits, treeFits, Description.isSatisfied, Description.isSatisfied, hallows]
    split
    · next hsat =>
      have hd := (Bool.and_eq_true_iff.1 hsat).1
      rw [Description.bind_extend hd (hallows.trans hd),
        clausesFits_extend_of_free clauses h.2]
    · rfl

/-- Clauses whose names the base does not bind fit as they do without the base. -/
theorem clausesFits_extend_of_free : (clauses : List Clause) →
    (h : base.Free (descriptionsOfClauses clauses)) → (env : Environment) → (n : Node) →
    clausesFits g accepts clauses (base.extend env) n =
      (clausesFits g accepts clauses env n).map base.extend
  | [], _, env, n => by rw [clausesFits, clausesFits]; rfl
  | clause :: rest, h, env, n => by
    rw [descriptionsOfClauses, Environment.free_append] at h
    rw [clausesFits, clausesFits, clauseFits_extend_of_free clause h.1, List.flatMap_map,
      List.map_flatMap]
    exact List.flatMap_congr fun env _ => clausesFits_extend_of_free rest h.2 env n

/-- A clause whose names the base does not bind fits as it does without the base. -/
theorem clauseFits_extend_of_free : (clause : Clause) → (h : base.Free clause.descriptions) →
    (env : Environment) → (n : Node) →
    clauseFits g accepts clause (base.extend env) n =
      (clauseFits g accepts clause env n).map base.extend
  | .link l target, h, env, n => by
    rw [Clause.descriptions] at h
    have htarget := treeFits_extend_of_free target h env
    rw [clauseFits, clauseFits]
    simp only [htarget, List.isEmpty_map]
    split
    · split <;> rfl
    · rw [List.map_flatMap]
      exact List.flatMap_congr fun m _ => htarget m
  | .group alternatives, h, env, n => by
    rw [Clause.descriptions] at h
    rw [clauseFits, clauseFits, alternativesFits_extend_of_free alternatives h]

/-- Alternatives whose names the base does not bind fit as they do without the base. -/
theorem alternativesFits_extend_of_free : (alternatives : List (List Clause)) →
    (h : base.Free (descriptionsOfAlternatives alternatives)) → (env : Environment) → (n : Node) →
    alternativesFits g accepts alternatives (base.extend env) n =
      (alternativesFits g accepts alternatives env n).map base.extend
  | [], _, env, n => by rw [alternativesFits, alternativesFits]; rfl
  | clauses :: rest, h, env, n => by
    rw [descriptionsOfAlternatives, Environment.free_append] at h
    rw [alternativesFits, alternativesFits, clausesFits_extend_of_free clauses h.1,
      alternativesFits_extend_of_free rest h.2, List.map_append]

end

/-! ### What is left beside the base -/

/-- The environments that respect the base, extended by what else the base holds. -/
def seeded (base : Environment) (envs : List Environment) : List Environment :=
  (envs.filter fun env => env.respects base).map base.extend

omit [Text.CharacterNames] in
/-- Nothing is left of what extends an environment that does not respect the base. -/
theorem seeded_eq_nil {env : Environment} (h : env.respects base = false)
    {envs : List Environment} (henvs : ∀ e ∈ envs, ∃ bindings, e = env.extend bindings) :
    seeded base envs = [] := by
  rw [seeded, List.map_eq_nil_iff, List.filter_eq_nil_iff]
  intro e he hrespects
  obtain ⟨bindings, rfl⟩ := henvs e he
  rw [Environment.respects_of_extend hrespects] at h
  cases h

omit [Text.CharacterNames] in
/-- An environment that respects the base is kept, and extended. -/
theorem seeded_singleton {env : Environment} (h : env.respects base = true) :
    seeded base [env] = [base.extend env] := by
  simp [seeded, h]

omit [Text.CharacterNames] in
/-- Two lists of environments are seeded one after the other. -/
theorem seeded_append (envs more : List Environment) :
    seeded base (envs ++ more) = seeded base envs ++ seeded base more := by
  rw [seeded, List.filter_append, List.map_append]; rfl

omit [Text.CharacterNames] in
/-- What is left may be searched on beside the base, if the search goes on in the same way for each
environment that is left. -/
theorem flatMap_seeded {beside alone : Environment → List Environment}
    (hkeep : ∀ env : Environment, env.respects base = true →
      beside (base.extend env) = seeded base (alone env))
    (hextend : ∀ env : Environment, ∀ e ∈ alone env, ∃ bindings, e = env.extend bindings)
    (envs : List Environment) :
    (seeded base envs).flatMap beside = seeded base (envs.flatMap alone) := by
  induction envs with
  | nil => rfl
  | cons env rest ih =>
    rw [List.flatMap_cons, seeded_append, ← ih, ← List.singleton_append, seeded_append,
      List.flatMap_append]
    cases h : env.respects base with
    | true => rw [seeded_singleton h, List.flatMap_singleton, hkeep env h]
    | false =>
      have hself : ∀ e ∈ [env], ∃ bindings, e = env.extend bindings := by
        simpa using ⟨[], env.extend_nil.symm⟩
      rw [seeded_eq_nil h (hextend env), seeded_eq_nil h hself, List.flatMap_nil]

omit [Text.CharacterNames] in
/-- What choices bind extends what has been bound before. -/
theorem exists_extend_of_mem_map {α : Type} {choices : List α} {bindings : α → List (String × Node)}
    {env : Environment} :
    ∀ e ∈ choices.map fun c => env.extend (bindings c), ∃ bindings, e = env.extend bindings := by
  intro e he
  obtain ⟨c, _, rfl⟩ := List.mem_map.1 he
  exact ⟨bindings c, rfl⟩

/-- The fits of clauses extend what has been bound before. -/
theorem clausesFits_extends (clauses : List Clause) (n : Node) (env : Environment) :
    ∀ e ∈ clausesFits g accepts clauses env n, ∃ bindings, e = env.extend bindings := by
  rw [clausesFits_eq_map]
  exact exists_extend_of_mem_map

/-- The fits of trees extend what has been bound before. -/
theorem treesFits_extends (trees : List PatternTree) (n : Node) (env : Environment) :
    ∀ e ∈ treesFits g accepts trees env n, ∃ bindings, e = env.extend bindings := by
  rw [treesFits_eq_map]
  exact exists_extend_of_mem_map

mutual

/-- The fits of a tree with the base are its fits without, seeded with the base. -/
theorem treeFits_extend : (tree : PatternTree) → (h : base.Free tree.negatedDescriptions) →
    (env : Environment) → env.respects base = true → (n : Node) →
    treeFits g accepts tree (base.extend env) n = seeded base (treeFits g accepts tree env n)
  | .node description clauses, h, env, henv, n => by
    rw [PatternTree.negatedDescriptions] at h
    have hallows : description.allows (base.extend env) n =
        (description.allows env n && (description.bind env n).respects base) :=
      Description.allows_extend henv
    rw [treeFits, treeFits, Description.isSatisfied, Description.isSatisfied]
    cases hd : description.allows env n with
    | false => rw [hallows, hd]; rfl
    | true =>
      rw [hd, Bool.true_and] at hallows
      cases hbind : (description.bind env n).respects base with
      | true =>
        -- the node that is bound is the one that the base gives to the name, if it gives one
        rw [hbind] at hallows
        rw [hallows, Description.bind_extend hd hallows]
        split
        · exact clausesFits_extend clauses h _ hbind n
        · rfl
      | false =>
        -- what the search without the base goes on with here is left out in the end
        rw [hbind] at hallows
        rw [hallows, if_neg (by simp)]
        split
        · exact (seeded_eq_nil hbind (clausesFits_extends clauses n _)).symm
        · rfl

/-- The fits of clauses with the base are their fits without, seeded with the base. -/
theorem clausesFits_extend : (clauses : List Clause) → (h : base.Free (negatedInClauses clauses)) →
    (env : Environment) → env.respects base = true → (n : Node) →
    clausesFits g accepts clauses (base.extend env) n =
      seeded base (clausesFits g accepts clauses env n)
  | [], _, env, henv, n => by
    rw [clausesFits, clausesFits, seeded_singleton henv]
  | clause :: rest, h, env, henv, n => by
    rw [negatedInClauses, Environment.free_append] at h
    rw [clausesFits, clausesFits, clauseFits_extend clause h.1 env henv]
    exact flatMap_seeded (fun env henv => clausesFits_extend rest h.2 env henv n)
      (clausesFits_extends rest n) _

/-- The fits of a clause with the base are its fits without, seeded with the base. -/
theorem clauseFits_extend : (clause : Clause) → (h : base.Free clause.negatedDescriptions) →
    (env : Environment) → env.respects base = true → (n : Node) →
    clauseFits g accepts clause (base.extend env) n = seeded base (clauseFits g accepts clause env n)
  | .link l target, h, env, henv, n => by
    rw [clauseFits, clauseFits]
    split
    · next hneg =>
      -- the base has no say in whether the target of a negated link fits
      rw [Clause.negatedDescriptions, if_pos hneg] at h
      simp only [treeFits_extend_of_free target h, List.isEmpty_map]
      split
      · rfl
      · rw [seeded_singleton henv]
    · next hneg =>
      rw [Clause.negatedDescriptions, if_neg hneg] at h
      rw [seeded, List.filter_flatMap, List.map_flatMap]
      exact List.flatMap_congr fun m _ => treeFits_extend target h env henv m
  | .group alternatives, h, env, henv, n => by
    rw [Clause.negatedDescriptions] at h
    rw [clauseFits, clauseFits, alternativesFits_extend alternatives h env henv]

/-- The fits of alternatives with the base are their fits without, seeded with the base. -/
theorem alternativesFits_extend : (alternatives : List (List Clause)) →
    (h : base.Free (negatedInAlternatives alternatives)) → (env : Environment) →
    env.respects base = true → (n : Node) →
    alternativesFits g accepts alternatives (base.extend env) n =
      seeded base (alternativesFits g accepts alternatives env n)
  | [], _, env, _, n => by rw [alternativesFits, alternativesFits]; rfl
  | clauses :: rest, h, env, henv, n => by
    rw [negatedInAlternatives, Environment.free_append] at h
    rw [alternativesFits, alternativesFits, clausesFits_extend clauses h.1 env henv,
      alternativesFits_extend rest h.2 env henv, seeded_append]

end

/-- The fits of trees with the base are their fits without, seeded with the base. -/
theorem treesFits_extend (trees : List PatternTree)
    (h : base.Free (trees.flatMap PatternTree.negatedDescriptions)) (env : Environment)
    (henv : env.respects base = true) (n : Node) :
    treesFits g accepts trees (base.extend env) n = seeded base (treesFits g accepts trees env n) := by
  induction trees generalizing env with
  | nil => rw [treesFits, treesFits, seeded_singleton henv]
  | cons tree rest ih =>
    rw [List.flatMap_cons, Environment.free_append] at h
    rw [treesFits, treesFits, treeFits_extend tree h.1 env henv]
    exact flatMap_seeded (fun env henv => ih h.2 env henv) (treesFits_extends rest n) _

/-- **Seeding a search is the same as filtering it.**  If no name of the base stands inside a negated
link, the search from the base finds, in the same order, the results of the search from nothing that
give no name another node than the base does, each extended by what else the base holds. -/
theorem search_seeded (p : Pattern) (g : Graph) (accepts : LabelFilter → Option String → Bool)
    (base : Environment) (h : base.Free p.negatedDescriptions) :
    ∃ found : List Finding, search p g (.total accepts) [] = .ofList found ∧
      search p g (.total accepts) base =
        .ofList ((found.filter fun f => f.bindings.respects base).map fun f =>
          ⟨f.root, base.extend f.bindings⟩) := by
  refine ⟨_, search_total p [], ?_⟩
  rw [search_total, findings, findings, List.filter_flatMap, List.map_flatMap]
  refine congrArg _ (List.flatMap_congr fun root _ => ?_)
  have htrees : treesFits g accepts p.trees (base.extend []) root =
      seeded base (treesFits g accepts p.trees [] root) := treesFits_extend p.trees h [] rfl root
  rw [Environment.extend_nil] at htrees
  rw [htrees, seeded, List.filter_map, List.map_map, List.map_map]
  rfl

end

/-- A node `a` with a node `b` below it, and no node `c` with the tag `X` right above it. -/
def namedPair : Pattern where
  first := .node { name := some "a" }
    [.link ⟨.down, .far none, none, false⟩ (.node { name := some "b" } []),
      .link ⟨.up, .direct, none, true⟩
        (.node { tests := [⟨.tag, .literal "X"⟩], name := some "c" } [])]

/-- Of the four ways to place two names in a pair of nodes, two are left when one name is given. -/
theorem search_seeded_namedPair :
    Environment.Free [("b", .index 1)] namedPair.negatedDescriptions ∧
      ∃ found : List Finding,
        search namedPair Graph.mutualPair (.total fun _ _ => true) [] = .ofList found ∧
          search namedPair Graph.mutualPair (.total fun _ _ => true) [("b", .index 1)] =
            .ofList ((found.filter fun f => f.bindings.respects [("b", .index 1)]).map fun f =>
              ⟨f.root, Environment.extend [("b", .index 1)] f.bindings⟩) := by
  have hfree : Environment.Free [("b", .index 1)] namedPair.negatedDescriptions := by
    intro d hd
    simp [Pattern.negatedDescriptions, Pattern.trees, namedPair, PatternTree.negatedDescriptions,
      negatedInClauses, Clause.negatedDescriptions, PatternTree.descriptions,
      descriptionsOfClauses] at hd
    subst hd
    rfl
  exact ⟨hfree, search_seeded namedPair Graph.mutualPair (fun _ _ => true) [("b", .index 1)] hfree⟩

end DependencyQuery
