import DependencyQuery.Proofs.Search.Choice
import DependencyQuery.Proofs.Search.Lists
import Mathlib.Data.List.Basic

namespace DependencyQuery

/-!
# A search finds one result for every consistent choice

* `mem_flatMap_map`, `pairwise_flatMap_map` — lists of pairs, in lexicographic order;
* `treeChoices`, `clausesChoices`, `clauseChoices`, `alternativeChoices`, `treesChoices`,
  `patternChoices` — the choices that a search goes through, in its order;
* `treeFits_eq_map` and its kin — each of them is found as the environment that it extends;
* `mem_treeChoices` and its kin — they are the choices that hold and agree with the environment;
* `pairwise_treeChoices` and its kin — they come in lexicographic order, which `Precedes` makes strict;
* `search_iff_choice` — a search finds, in lexicographic order, one result for every consistent
  choice, and nothing else.
-/

/-! ### Lists of pairs -/

section Pairs

variable {α β γ : Type} {as : List α} {f : α → List β} {pair : α → β → γ}

/-- A pair is listed when its second part is listed for its first. -/
theorem mem_flatMap_map (hpair : ∀ {a a' : α} {b b' : β}, pair a b = pair a' b' → a = a' ∧ b = b')
    {a : α} {b : β} : pair a b ∈ (as.flatMap fun a => (f a).map (pair a)) ↔ a ∈ as ∧ b ∈ f a := by
  rw [List.mem_flatMap]
  constructor
  · rintro ⟨a', ha, hb⟩
    obtain ⟨b', hb', h⟩ := List.mem_map.1 hb
    obtain ⟨rfl, rfl⟩ := hpair h
    exact ⟨ha, hb'⟩
  · rintro ⟨ha, hb⟩
    exact ⟨a, ha, List.mem_map.2 ⟨b, hb, rfl⟩⟩

/-- Pairs come in lexicographic order when their parts come in order. -/
theorem pairwise_flatMap_map {R : α → α → Prop} {S : α → β → β → Prop} {T : γ → γ → Prop}
    (has : as.Pairwise R) (hf : ∀ a, (f a).Pairwise (S a))
    (hfirst : ∀ {a a' : α} {b b' : β}, R a a' → T (pair a b) (pair a' b'))
    (hsecond : ∀ {a : α} {b b' : β}, S a b b' → T (pair a b) (pair a b')) :
    (as.flatMap fun a => (f a).map (pair a)).Pairwise T := by
  rw [List.pairwise_flatMap]
  constructor
  · intro a _
    rw [List.pairwise_map]
    exact (hf a).imp hsecond
  · refine has.imp fun h => ?_
    simp only [List.mem_map]
    rintro _ ⟨b, _, rfl⟩ _ ⟨b', _, rfl⟩
    exact hfirst h

/-- Of two elements of a list, the first comes before the second. -/
theorem pairwise_sublist (as : List α) : as.Pairwise fun a a' => [a, a'].Sublist as :=
  List.pairwise_iff_forall_sublist.2 id

end Pairs

/-! ### What a search goes through -/

variable [Text.CharacterNames]

section Enumeration

variable (g : Graph) (accepts : LabelFilter → Option String → Bool)

mutual

/-- The choices for a tree at a node. -/
def treeChoices : (tree : PatternTree) → Environment → Node → List (TreeChoice tree)
  | .node description clauses, env, n =>
    if description.isSatisfied g env n then
      (clausesChoices clauses (description.bind env n) n).map .node
    else []

/-- The choices for several clauses at a node. -/
def clausesChoices : (clauses : List Clause) → Environment → Node → List (ClausesChoice clauses)
  | [], _, _ => [.nil]
  | clause :: rest, env, n =>
    (clauseChoices clause env n).flatMap fun first =>
      (clausesChoices rest (env.extend (first.bindings n)) n).map (.cons first)

/-- The choices for a clause at a node. -/
def clauseChoices : (clause : Clause) → Environment → Node → List (ClauseChoice clause)
  | .link l target, env, n =>
    if h : l.negated = true then
      if (g.witnessList accepts l n).any fun m => !(treeChoices target env m).isEmpty then []
      else [.absent h]
    else
      (g.witnessList accepts l n).flatMap fun m =>
        (treeChoices target env m).map (.target (eq_false_of_ne_true h) m)
  | .group alternatives, env, n => (alternativeChoices alternatives env n).map .group

/-- The choices of an alternative at a node. -/
def alternativeChoices : (alternatives : List (List Clause)) → Environment → Node →
    List (AlternativeChoice alternatives)
  | [], _, _ => []
  | clauses :: rest, env, n =>
    (clausesChoices clauses env n).map .first ++ (alternativeChoices rest env n).map .later

end

/-- The choices for several trees at a node. -/
def treesChoices : (trees : List PatternTree) → Environment → Node → List (TreesChoice trees)
  | [], _, _ => [.nil]
  | tree :: rest, env, n =>
    (treeChoices g accepts tree env n).flatMap fun first =>
      (treesChoices rest (env.extend (first.bindings n)) n).map (.cons first)

/-- The choices for a pattern. -/
def patternChoices (p : Pattern) (base : Environment) : List (PatternChoice p) :=
  g.nodes.flatMap fun root => (treesChoices g accepts p.trees base root).map fun c => ⟨root, c⟩

end Enumeration

variable {g : Graph} {accepts : LabelFilter → Option String → Bool}

/-! ### What is found -/

mutual

/-- The fits of a tree are what its choices bind, each after what has been bound before. -/
theorem treeFits_eq_map : (tree : PatternTree) → (env : Environment) → (n : Node) →
    treeFits g accepts tree env n =
      (treeChoices g accepts tree env n).map fun c => env.extend (c.bindings n)
  | .node description clauses, env, n => by
    rw [treeFits, treeChoices]
    split
    · next h =>
      have hallows : description.allows env n = true := (Bool.and_eq_true_iff.1 h).1
      rw [clausesFits_eq_map clauses, List.map_map, Description.bind_eq_extend hallows]
      refine List.map_congr_left fun c _ => ?_
      rw [Function.comp, TreeChoice.bindings, Environment.extend_append]
    · rfl

/-- The fits of clauses are what their choices bind. -/
theorem clausesFits_eq_map : (clauses : List Clause) → (env : Environment) → (n : Node) →
    clausesFits g accepts clauses env n =
      (clausesChoices g accepts clauses env n).map fun c => env.extend (c.bindings n)
  | [], env, n => by
    rw [clausesFits, clausesChoices, List.map_singleton, ClausesChoice.bindings]; rfl
  | clause :: rest, env, n => by
    rw [clausesFits, clausesChoices, clauseFits_eq_map clause, List.flatMap_map, List.map_flatMap]
    refine List.flatMap_congr fun first _ => ?_
    rw [clausesFits_eq_map rest, List.map_map]
    refine List.map_congr_left fun more _ => ?_
    rw [Function.comp, ClausesChoice.bindings, Environment.extend_append]

/-- The fits of a clause are what its choices bind. -/
theorem clauseFits_eq_map : (clause : Clause) → (env : Environment) → (n : Node) →
    clauseFits g accepts clause env n =
      (clauseChoices g accepts clause env n).map fun c => env.extend (c.bindings n)
  | .link l target, env, n => by
    rw [clauseFits, clauseChoices]
    simp only [treeFits_eq_map target, List.isEmpty_map]
    split
    · -- a negated link chooses nothing and binds nothing
      split
      · rfl
      · rw [List.map_singleton, ClauseChoice.bindings]; rfl
    · -- any other link chooses a node, and there what its pattern chooses
      rw [List.map_flatMap]
      refine List.flatMap_congr fun m _ => ?_
      rw [treeFits_eq_map target, List.map_map]
      refine List.map_congr_left fun c _ => ?_
      rw [Function.comp, ClauseChoice.bindings]
  | .group alternatives, env, n => by
    rw [clauseFits, clauseChoices, alternativesFits_eq_map alternatives, List.map_map]
    refine List.map_congr_left fun c _ => ?_
    rw [Function.comp, ClauseChoice.bindings]

/-- The fits of alternatives are what their choices bind. -/
theorem alternativesFits_eq_map : (alternatives : List (List Clause)) → (env : Environment) →
    (n : Node) →
    alternativesFits g accepts alternatives env n =
      (alternativeChoices g accepts alternatives env n).map fun c => env.extend (c.bindings n)
  | [], env, n => by rw [alternativesFits, alternativeChoices]; rfl
  | clauses :: rest, env, n => by
    rw [alternativesFits, alternativeChoices, clausesFits_eq_map clauses,
      alternativesFits_eq_map rest, List.map_append, List.map_map, List.map_map]
    rfl

end

/-- The fits of trees are what their choices bind. -/
theorem treesFits_eq_map (trees : List PatternTree) (env : Environment) (n : Node) :
    treesFits g accepts trees env n =
      (treesChoices g accepts trees env n).map fun c => env.extend (c.bindings n) := by
  induction trees generalizing env with
  | nil => rfl
  | cons tree rest ih =>
    rw [treesFits, treesChoices, treeFits_eq_map tree, List.flatMap_map, List.map_flatMap]
    refine List.flatMap_congr fun first _ => ?_
    rw [ih, List.map_map]
    refine List.map_congr_left fun more _ => ?_
    rw [Function.comp, TreesChoice.bindings, Environment.extend_append]

/-- The results of a pattern are the findings of its choices. -/
theorem findings_eq_map (p : Pattern) (base : Environment) :
    findings g accepts p base =
      (patternChoices g accepts p base).map (PatternChoice.finding base) := by
  rw [findings, patternChoices, List.map_flatMap]
  refine List.flatMap_congr fun root _ => ?_
  rw [treesFits_eq_map, List.map_map, List.map_map]
  rfl

/-! ### Which choices there are -/

mutual

/-- The choices of a tree are those that hold and agree with what has been bound before. -/
theorem mem_treeChoices : (tree : PatternTree) → (env : Environment) → (n : Node) →
    (c : TreeChoice tree) →
    (c ∈ treeChoices g accepts tree env n ↔
      c.Holds g accepts tree env n ∧ env.Agree (c.bindings n))
  | .node description clauses, env, n, .node below => by
    -- the binding of the description comes first, and what lies below agrees with it as well
    rw [treeChoices, TreeChoice.Holds, TreeChoice.bindings, Environment.agree_append,
      ← Description.allows_iff_agree]
    split
    · next h =>
      obtain ⟨hallows, htests⟩ := Bool.and_eq_true_iff.1 h
      have hinj : Function.Injective (@TreeChoice.node _ description clauses) :=
        fun _ _ h => TreeChoice.node.inj h
      rw [Description.bind_eq_extend hallows, List.mem_map_of_injective hinj,
        mem_clausesChoices clauses]
      simp only [hallows, htests, true_and]
    · next h =>
      simp only [List.not_mem_nil, false_iff]
      rintro ⟨⟨htests, _⟩, hallows, _⟩
      exact h (by rw [Description.isSatisfied, hallows, htests]; rfl)

/-- The choices of clauses are those that hold and agree with what has been bound before. -/
theorem mem_clausesChoices : (clauses : List Clause) → (env : Environment) → (n : Node) →
    (c : ClausesChoice clauses) →
    (c ∈ clausesChoices g accepts clauses env n ↔
      c.Holds g accepts clauses env n ∧ env.Agree (c.bindings n))
  | [], env, n, .nil => by
    rw [clausesChoices, ClausesChoice.Holds, ClausesChoice.bindings]
    simp [env.agree_nil]
  | clause :: rest, env, n, .cons first more => by
    rw [ClausesChoice.Holds, ClausesChoice.bindings, Environment.agree_append, and_and_and_comm,
      ← mem_clauseChoices clause, ← mem_clausesChoices rest, clausesChoices]
    exact mem_flatMap_map fun h => ClausesChoice.cons.inj h

/-- The choices of a clause are those that hold and agree with what has been bound before. -/
theorem mem_clauseChoices : (clause : Clause) → (env : Environment) → (n : Node) →
    (c : ClauseChoice clause) →
    (c ∈ clauseChoices g accepts clause env n ↔
      c.Holds g accepts clause env n ∧ env.Agree (c.bindings n))
  | .link l target, env, n, .absent negated => by
    rw [clauseChoices, dif_pos negated, ClauseChoice.Holds, ClauseChoice.bindings]
    -- what is looked for in vain are the choices for the target that the search would go through
    have hany : ((g.witnessList accepts l n).any fun m =>
          !(treeChoices g accepts target env m).isEmpty) = true ↔
        ∃ m ∈ g.witnessList accepts l n, ∃ c : TreeChoice target,
          c.Holds g accepts target env m ∧ env.Agree (c.bindings m) := by
      simp only [List.any_eq_true, Bool.not_eq_true', List.isEmpty_eq_false_iff_exists_mem,
        mem_treeChoices target]
    rw [← hany]
    split
    · next h => simp [h]
    · next h => simp [h, env.agree_nil]
  | .link l target, env, n, .target positive m below => by
    rw [clauseChoices, dif_neg (by simp [positive]), ClauseChoice.Holds, ClauseChoice.bindings,
      and_assoc, ← mem_treeChoices target]
    exact mem_flatMap_map fun h => ClauseChoice.target.inj h
  | .group alternatives, env, n, .group chosen => by
    have hinj : Function.Injective (@ClauseChoice.group _ alternatives) :=
      fun _ _ h => ClauseChoice.group.inj h
    rw [clauseChoices, ClauseChoice.Holds, ClauseChoice.bindings, List.mem_map_of_injective hinj,
      mem_alternativeChoices alternatives]

/-- The choices of alternatives are those that hold and agree with what has been bound before. -/
theorem mem_alternativeChoices : (alternatives : List (List Clause)) → (env : Environment) →
    (n : Node) → (c : AlternativeChoice alternatives) →
    (c ∈ alternativeChoices g accepts alternatives env n ↔
      c.Holds g accepts alternatives env n ∧ env.Agree (c.bindings n))
  | clauses :: rest, env, n, .first below => by
    rw [AlternativeChoice.Holds, AlternativeChoice.bindings, ← mem_clausesChoices clauses,
      alternativeChoices]
    simp
  | clauses :: rest, env, n, .later chosen => by
    rw [AlternativeChoice.Holds, AlternativeChoice.bindings, ← mem_alternativeChoices rest,
      alternativeChoices]
    simp

end

/-- The choices of trees are those that hold and agree with what has been bound before. -/
theorem mem_treesChoices (trees : List PatternTree) (env : Environment) (n : Node)
    (c : TreesChoice trees) :
    c ∈ treesChoices g accepts trees env n ↔
      c.Holds g accepts trees env n ∧ env.Agree (c.bindings n) := by
  induction trees generalizing env with
  | nil =>
    cases c
    simp [treesChoices, TreesChoice.Holds, TreesChoice.bindings, env.agree_nil]
  | cons tree rest ih =>
    cases c with
    | cons first more =>
    rw [TreesChoice.Holds, TreesChoice.bindings, Environment.agree_append, and_and_and_comm,
      ← mem_treeChoices tree, ← ih, treesChoices]
    exact mem_flatMap_map fun h => TreesChoice.cons.inj h

/-- A search goes through the consistent choices and no others. -/
theorem mem_patternChoices {p : Pattern} {base : Environment} (c : PatternChoice p) :
    c ∈ patternChoices g accepts p base ↔ c.Consistent g accepts base := by
  simp only [patternChoices, List.mem_flatMap, List.mem_map, mem_treesChoices]
  constructor
  · rintro ⟨root, hroot, trees, ⟨hholds, hagree⟩, rfl⟩
    exact ⟨hroot, hholds, hagree⟩
  · rintro ⟨hroot, hholds, hagree⟩
    exact ⟨c.root, hroot, c.trees, ⟨hholds, hagree⟩, rfl⟩

/-! ### In which order they come -/

mutual

/-- The choices of a tree come in their order. -/
theorem pairwise_treeChoices : (tree : PatternTree) → (env : Environment) → (n : Node) →
    (treeChoices g accepts tree env n).Pairwise (TreeChoice.Precedes g accepts n)
  | .node description clauses, env, n => by
    rw [treeChoices]
    split
    · rw [List.pairwise_map]
      exact (pairwise_clausesChoices clauses _ n).imp fun h => by rwa [TreeChoice.Precedes]
    · exact List.Pairwise.nil

/-- The choices of clauses come in their order. -/
theorem pairwise_clausesChoices : (clauses : List Clause) → (env : Environment) → (n : Node) →
    (clausesChoices g accepts clauses env n).Pairwise (ClausesChoice.Precedes g accepts n)
  | [], env, n => by rw [clausesChoices]; exact List.pairwise_singleton _ _
  | clause :: rest, env, n => by
    rw [clausesChoices]
    apply pairwise_flatMap_map (pairwise_clauseChoices clause env n) fun _ =>
      pairwise_clausesChoices rest _ n
    · intro _ _ _ _ h
      rw [ClausesChoice.Precedes]
      exact .inl h
    · intro _ _ _ h
      rw [ClausesChoice.Precedes]
      exact .inr ⟨rfl, h⟩

/-- The choices of a clause come in their order. -/
theorem pairwise_clauseChoices : (clause : Clause) → (env : Environment) → (n : Node) →
    (clauseChoices g accepts clause env n).Pairwise (ClauseChoice.Precedes g accepts n)
  | .link l target, env, n => by
    rw [clauseChoices]
    split
    · split
      · -- a negated link has at most one choice
        exact List.Pairwise.nil
      · exact List.pairwise_singleton _ _
    · -- the choices are ordered by the node first, and at one node by the pattern there
      apply pairwise_flatMap_map (pairwise_sublist _) fun m => pairwise_treeChoices target env m
      · intro _ _ _ _ h
        rw [ClauseChoice.Precedes]
        exact .inl h
      · intro _ _ _ h
        rw [ClauseChoice.Precedes]
        exact .inr ⟨rfl, h⟩
  | .group alternatives, env, n => by
    rw [clauseChoices, List.pairwise_map]
    exact (pairwise_alternativeChoices alternatives env n).imp fun h => by
      rwa [ClauseChoice.Precedes]

/-- The choices of alternatives come in their order. -/
theorem pairwise_alternativeChoices : (alternatives : List (List Clause)) → (env : Environment) →
    (n : Node) →
    (alternativeChoices g accepts alternatives env n).Pairwise
      (AlternativeChoice.Precedes g accepts n)
  | [], env, n => by rw [alternativeChoices]; exact List.Pairwise.nil
  | clauses :: rest, env, n => by
    rw [alternativeChoices, List.pairwise_append, List.pairwise_map, List.pairwise_map]
    refine ⟨?_, ?_, ?_⟩
    · exact (pairwise_clausesChoices clauses env n).imp fun h => by rwa [AlternativeChoice.Precedes]
    · exact (pairwise_alternativeChoices rest env n).imp fun h => by
        rwa [AlternativeChoice.Precedes]
    · simp only [List.mem_map]
      rintro _ ⟨c, _, rfl⟩ _ ⟨c', _, rfl⟩
      rw [AlternativeChoice.Precedes]
      trivial

end

/-- The choices of trees come in their order. -/
theorem pairwise_treesChoices (trees : List PatternTree) (env : Environment) (n : Node) :
    (treesChoices g accepts trees env n).Pairwise (TreesChoice.Precedes g accepts n) := by
  induction trees generalizing env with
  | nil => exact List.pairwise_singleton _ _
  | cons tree rest ih =>
    exact pairwise_flatMap_map (pairwise_treeChoices tree env n) (fun _ => ih _) .inl
      fun h => .inr ⟨rfl, h⟩

/-- A search goes through choices in lexicographic order. -/
theorem pairwise_patternChoices (p : Pattern) (base : Environment) :
    (patternChoices g accepts p base).Pairwise (PatternChoice.Precedes g accepts) := by
  exact pairwise_flatMap_map (pairwise_sublist _) (fun root => pairwise_treesChoices p.trees base root)
    .inl fun h => .inr ⟨rfl, h⟩

/-! ### No choice comes before itself -/

mutual

/-- No choice of a tree precedes itself. -/
theorem TreeChoice.not_precedes : {tree : PatternTree} → (n : Node) → (c : TreeChoice tree) →
    ¬ TreeChoice.Precedes g accepts n c c
  | .node _ _, n, .node below => by
    rw [TreeChoice.Precedes]
    exact below.not_precedes n

/-- No choice of clauses precedes itself. -/
theorem ClausesChoice.not_precedes : {clauses : List Clause} → (n : Node) →
    (c : ClausesChoice clauses) → ¬ ClausesChoice.Precedes g accepts n c c
  | _, n, .nil => by rw [ClausesChoice.Precedes]; exact id
  | _, n, .cons first more => by
    rw [ClausesChoice.Precedes]
    rintro (h | ⟨_, h⟩)
    · exact first.not_precedes n h
    · exact more.not_precedes n h

/-- No choice of a clause precedes itself. -/
theorem ClauseChoice.not_precedes : {clause : Clause} → (n : Node) → (c : ClauseChoice clause) →
    ¬ ClauseChoice.Precedes g accepts n c c
  | .link l target, n, .absent _ => by rw [ClauseChoice.Precedes]; exact id
  | .link l target, n, .target _ m below => by
    rw [ClauseChoice.Precedes]
    rintro (h | ⟨_, h⟩)
    · exact absurd ((g.nodup_witnessList accepts l n).sublist h) (by simp)
    · exact below.not_precedes m h
  | .group alternatives, n, .group chosen => by
    rw [ClauseChoice.Precedes]
    exact chosen.not_precedes n

/-- No choice of alternatives precedes itself. -/
theorem AlternativeChoice.not_precedes : {alternatives : List (List Clause)} → (n : Node) →
    (c : AlternativeChoice alternatives) → ¬ AlternativeChoice.Precedes g accepts n c c
  | _, n, .first below => by
    rw [AlternativeChoice.Precedes]
    exact below.not_precedes n
  | _, n, .later chosen => by
    rw [AlternativeChoice.Precedes]
    exact chosen.not_precedes n

end

/-- No choice of trees precedes itself. -/
theorem TreesChoice.not_precedes {trees : List PatternTree} (n : Node) (c : TreesChoice trees) :
    ¬ TreesChoice.Precedes g accepts n c c := by
  induction c with
  | nil => exact id
  | cons first more ih =>
    rintro (h | ⟨_, h⟩)
    · exact first.not_precedes n h
    · exact ih h

/-- No choice of a pattern precedes itself. -/
theorem PatternChoice.not_precedes {p : Pattern} (c : PatternChoice p) :
    ¬ PatternChoice.Precedes g accepts c c := by
  rintro (h | ⟨_, h⟩)
  · exact absurd (g.nodup.sublist h) (by simp)
  · exact c.trees.not_precedes c.root h

/-- **A search finds one result for every consistent choice.**  The choices that are consistent with
the base can be listed in lexicographic order, each once, and the search finds the results that they
stand for in that order, and nothing else. -/
theorem search_iff_choice (p : Pattern) (g : Graph)
    (accepts : LabelFilter → Option String → Bool) (base : Environment) :
    ∃ choices : List (PatternChoice p),
      (∀ c, c ∈ choices ↔ c.Consistent g accepts base) ∧
        choices.Nodup ∧ choices.Pairwise (PatternChoice.Precedes g accepts) ∧
        search p g (.total accepts) base = .ofList (choices.map (PatternChoice.finding base)) := by
  have hsorted : (patternChoices g accepts p base).Pairwise (PatternChoice.Precedes g accepts) :=
    pairwise_patternChoices p base
  refine ⟨patternChoices g accepts p base, mem_patternChoices, ?_, hsorted, ?_⟩
  · -- no choice comes before itself, so that none is listed twice
    refine hsorted.imp ?_
    rintro c _ h rfl
    exact c.not_precedes h
  · rw [search_total, findings_eq_map]

end DependencyQuery
