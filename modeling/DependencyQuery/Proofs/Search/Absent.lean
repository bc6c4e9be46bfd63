import DependencyQuery.Proofs.Request.Fields
import DependencyQuery.Proofs.Search.Completeness
import DependencyQuery.Proofs.Search.Sessions
import DependencyQuery.Proofs.Taxonomy.Textual

namespace DependencyQuery

/-!
# Names bound to nodes that are not there

A name that is given a node which the graph does not have can be selected by no choice.  So nothing is
found where every choice would have to select it; where a choice can do without it, the name does not
matter.

* `Pattern.requires` — whether every choice for a pattern selects a name;
* `TreeChoice.exists_binding` and its kin — what is selected for a required name is a node of the graph;
* `search_eq_done_of_absent` — so nothing is found if the name is given another node;
* `find_eq_false_of_absent` — no cursor finds anything then, and a request has an answer without matches.
-/

/-! ### Names that have to be selected -/

section

variable [Text.CharacterNames]

mutual

/-- Whether every choice for a tree selects the name. -/
def PatternTree.requires (name : String) : PatternTree → Bool
  | .node description clauses => description.name = some name || clausesRequire name clauses

/-- Whether every choice for a clause selects the name; nothing is selected for a negated link. -/
def Clause.requires (name : String) : Clause → Bool
  | .link l target => !l.negated && target.requires name
  | .group alternatives => alternativesRequire name alternatives

/-- Whether one of several clauses requires the name. -/
def clausesRequire (name : String) : List Clause → Bool
  | [] => false
  | clause :: rest => clause.requires name || clausesRequire name rest

/-- Whether all of some alternatives require the name. -/
def alternativesRequire (name : String) : List (List Clause) → Bool
  | [] => true
  | clauses :: rest => clausesRequire name clauses && alternativesRequire name rest

end

/-- Whether every choice for a pattern selects the name. -/
def Pattern.requires (p : Pattern) (name : String) : Bool := p.trees.any (PatternTree.requires name)

variable {g : Graph} {accepts : LabelFilter → Option String → Bool} {name : String}

mutual

/-- A choice that holds gives a name that a tree requires a node of the graph. -/
theorem TreeChoice.exists_binding : (tree : PatternTree) → tree.requires name = true →
    (c : TreeChoice tree) → {env : Environment} → {n : Node} → n ∈ g →
    c.Holds g accepts tree env n → ∃ m ∈ g, (name, m) ∈ c.bindings n
  | .node description clauses, hrequires, .node below, env, n, hn, hholds => by
    rw [TreeChoice.Holds] at hholds
    rw [PatternTree.requires, Bool.or_eq_true, decide_eq_true_eq] at hrequires
    simp only [TreeChoice.bindings, List.mem_append]
    rcases hrequires with hname | hclauses
    · have hbinding : (name, n) ∈ description.binding n := by
        rw [Description.binding, hname]
        exact List.mem_singleton_self _
      exact ⟨n, hn, .inl hbinding⟩
    · obtain ⟨m, hm, hmem⟩ := ClausesChoice.exists_binding clauses hclauses below hn hholds.2
      exact ⟨m, hm, .inr hmem⟩

/-- A choice of clauses that require a name binds it to a node of the graph. -/
theorem ClausesChoice.exists_binding : (clauses : List Clause) → clausesRequire name clauses = true →
    (c : ClausesChoice clauses) → {env : Environment} → {n : Node} → n ∈ g →
    c.Holds g accepts clauses env n → ∃ m ∈ g, (name, m) ∈ c.bindings n
  | [], hrequires, _, _, _, _, _ => by simp [clausesRequire] at hrequires
  | clause :: rest, hrequires, .cons first more, env, n, hn, hholds => by
    rw [ClausesChoice.Holds] at hholds
    rw [clausesRequire, Bool.or_eq_true] at hrequires
    simp only [ClausesChoice.bindings, List.mem_append]
    rcases hrequires with hfirst | hrest
    · obtain ⟨m, hm, hmem⟩ := ClauseChoice.exists_binding clause hfirst first hn hholds.1
      exact ⟨m, hm, .inl hmem⟩
    · obtain ⟨m, hm, hmem⟩ := ClausesChoice.exists_binding rest hrest more hn hholds.2
      exact ⟨m, hm, .inr hmem⟩

/-- A choice of a clause that requires a name binds it to a node of the graph. -/
theorem ClauseChoice.exists_binding : (clause : Clause) → clause.requires name = true →
    (c : ClauseChoice clause) → {env : Environment} → {n : Node} → n ∈ g →
    c.Holds g accepts clause env n → ∃ m ∈ g, (name, m) ∈ c.bindings n
  | .link l target, hrequires, .absent negated, _, _, _, _ => by
    simp [Clause.requires, negated] at hrequires
  | .link l target, hrequires, .target _ m below, env, n, hn, hholds => by
    rw [ClauseChoice.Holds] at hholds
    rw [Clause.requires, Bool.and_eq_true] at hrequires
    have hm : m ∈ g := Graph.mem_nodes_of_mem_witnessList hholds.1
    exact TreeChoice.exists_binding target hrequires.2 below hm hholds.2
  | .group alternatives, hrequires, .group chosen, env, n, hn, hholds => by
    rw [ClauseChoice.Holds] at hholds
    rw [Clause.requires] at hrequires
    exact AlternativeChoice.exists_binding alternatives hrequires chosen hn hholds

/-- A choice of alternatives that all require a name binds it to a node of the graph. -/
theorem AlternativeChoice.exists_binding : (alternatives : List (List Clause)) →
    alternativesRequire name alternatives = true → (c : AlternativeChoice alternatives) →
    {env : Environment} → {n : Node} → n ∈ g →
    c.Holds g accepts alternatives env n → ∃ m ∈ g, (name, m) ∈ c.bindings n
  | clauses :: rest, hrequires, .first below, env, n, hn, hholds => by
    rw [AlternativeChoice.Holds] at hholds
    rw [alternativesRequire, Bool.and_eq_true] at hrequires
    exact ClausesChoice.exists_binding clauses hrequires.1 below hn hholds
  | clauses :: rest, hrequires, .later chosen, env, n, hn, hholds => by
    rw [AlternativeChoice.Holds] at hholds
    rw [alternativesRequire, Bool.and_eq_true] at hrequires
    exact AlternativeChoice.exists_binding rest hrequires.2 chosen hn hholds

end

/-- A choice of trees of which one requires a name binds it to a node of the graph. -/
theorem TreesChoice.exists_binding {trees : List PatternTree} (c : TreesChoice trees)
    (hrequires : trees.any (PatternTree.requires name) = true) {env : Environment} {n : Node}
    (hn : n ∈ g) (hholds : c.Holds g accepts trees env n) : ∃ m ∈ g, (name, m) ∈ c.bindings n := by
  induction c generalizing env with
  | nil => cases hrequires
  | @cons tree rest first more ih =>
    rw [List.any_cons, Bool.or_eq_true] at hrequires
    simp only [TreesChoice.bindings, List.mem_append]
    rcases hrequires with hfirst | hrest
    · obtain ⟨m, hm, hmem⟩ := TreeChoice.exists_binding tree hfirst first hn hholds.1
      exact ⟨m, hm, .inl hmem⟩
    · obtain ⟨m, hm, hmem⟩ := ih hrest hholds.2
      exact ⟨m, hm, .inr hmem⟩

/-! ### Nothing is found -/

section Absent

variable {p : Pattern} {base : Environment} {n : Node}

/-- No choice is consistent with a node that the graph does not have for a name that is required. -/
theorem PatternChoice.not_consistent_of_absent (hname : base.get? name = some n) (habsent : n ∉ g)
    (hrequires : p.requires name = true) (c : PatternChoice p) : ¬c.Consistent g accepts base := by
  intro hconsistent
  obtain ⟨m, hm, hmem⟩ :=
    TreesChoice.exists_binding c.trees hrequires hconsistent.root_mem hconsistent.holds
  have hsame : m = n := hconsistent.agree.bound name m n hmem hname
  exact habsent (hsame ▸ hm)

/-- Nothing is found from an environment in which a required name has a node that the graph does not have. -/
theorem search_eq_done_of_absent (hname : base.get? name = some n) (habsent : n ∉ g)
    (hrequires : p.requires name = true) : search p g (.total accepts) base = .done := by
  have hnone : patternChoices g accepts p base = [] := by
    rw [List.eq_nil_iff_forall_not_mem]
    intro c hc
    exact c.not_consistent_of_absent hname habsent hrequires ((mem_patternChoices c).1 hc)
  rw [search_total, findings_eq_map, hnone]
  rfl

end Absent

/-! ### Cursors and requests -/

omit [Text.CharacterNames] in
/-- After any calls, a cursor in a search without results finds nothing. -/
theorem Cursor.find_after_start_done (calls : List Cursor.Call) :
    ((Cursor.start .done).after calls).find.1 = .ok false ∧
      ((Cursor.start .done).after calls).findRoot.1 = .ok false ∧
      ((Cursor.start .done).after calls).hasMatch = .ok false := by
  have hstands := (standsAt_start []).after calls
  have hnone (standing : Standing) : (standing.next [] .find).within = false ∧
      (standing.next [] .findRoot).within = false := by
    cases standing with
    | past => exact ⟨rfl, rfl⟩
    | passed count =>
      refine ⟨rfl, ?_⟩
      rw [Standing.next, List.drop_nil]
      rfl
  refine ⟨hstands.find.1.trans ?_, hstands.findRoot.1.trans ?_, hstands.hasMatch⟩
  · rw [(hnone _).1]
  · rw [(hnone _).2]

/-- The taxonomy of a request consists of texts, unless it comes from a file that holds something else. -/
theorem MatchRequest.exists_predicate_eq_total {r : MatchRequest} {files : Files} {t : Taxonomy}
    (ht : r.taxonomy files = .ok t) (hfile : r.hierarchy = none → t.IsTextual) :
    ∃ accepts, t.predicate = .total accepts := by
  refine Taxonomy.exists_predicate_eq_total ?_
  unfold MatchRequest.taxonomy at ht
  split at ht
  · exact Taxonomy.isTextual_hierarchyDatum (Steps.mapError_eq_ok ht)
  · next hnone => exact hfile hnone

/-- If a name that the pattern requires is bound to a node which the graph does not have, then no cursor
finds anything, whatever has been called on it before, and a request with these bindings has an answer
without matches. -/
theorem find_eq_false_of_absent {p : Pattern} {g : Graph} {base : Environment} {name : String} {n : Node}
    (hname : base.get? name = some n) (habsent : n ∉ g) (hrequires : p.requires name = true) :
    (∀ (accepts : LabelFilter → Option String → Bool) (calls : List Cursor.Call) (c : Cursor),
      c = (Cursor.start (search p g (.total accepts) base)).after calls →
        c.find.1 = .ok false ∧ c.findRoot.1 = .ok false ∧ c.hasMatch = .ok false) ∧
      ∀ (files : Files) (request : Datum) (r : MatchRequest) (t : Taxonomy),
        MatchRequest.check request = .ok r → Pattern.compile r.pattern = .ok p →
        r.source.graph (Settings.ofDatum r.settings) = .ok g → r.taxonomy files = .ok t →
        (r.hierarchy = none → t.IsTextual) → r.environment = base →
        answerMatch files request = .ok (.done ⟨p.render, [], false⟩) := by
  -- no stream has a result, whatever the predicate accepts
  have hsearch : ∀ accepts, search p g (.total accepts) base = .done :=
    fun accepts => search_eq_done_of_absent hname habsent hrequires
  constructor
  · rintro accepts calls _ rfl
    rw [hsearch accepts]
    exact Cursor.find_after_start_done calls
  · -- the search of a request is one with a predicate that tells for each label, as its taxonomy has texts
    intro files request r t hr hp hg ht hfile hbase
    obtain ⟨accepts, haccepts⟩ := MatchRequest.exists_predicate_eq_total ht hfile
    have hdone : search p g t.predicate r.environment = .done := by
      rw [haccepts, hbase]
      exact hsearch accepts
    have hrecords : records g r.limit .done = .ok ([], false) := by cases r.limit <;> rfl
    rw [answerMatch_of_compile hr hp, matchesOf_of_records hg ht, hdone, hrecords]
    rfl

end

/-- A word with another one below it. -/
def onePair : Graph where
  entries := [(.index 1, [("word", some "a"), ("value", some "a")]),
    (.index 2, [("word", some "b"), ("value", some "b")])]
  edges := [⟨.index 1, .index 2, some "obj"⟩]
  declared := [.index 1]
  nodup := by decide
  closed := by decide

/-- A request for a pattern in that graph, with a node for `x` that the graph does not have. -/
def absentRequest (pattern : String) : Datum :=
  .map [(.text "pattern", .text pattern), (.text "notation", .text "[a obj:b]"),
    (.text "bindings", .map [(.text "x", .int 99)])]

/-- A node and a dependent `x` of it. -/
def boundDependent : Pattern :=
  ⟨.node {} [.link ⟨.down, .direct, none, false⟩ (.node { name := some "x" } [])], []⟩

/-- The dependent cannot be the node that is given for it. -/
theorem find_eq_false_of_absent_boundDependent :
    Node.index 99 ∉ onePair ∧ boundDependent.requires "x" = true ∧
      (Cursor.start (search boundDependent onePair (.total fun _ _ => true) [("x", .index 99)])).find.1 =
        .ok false ∧
      answerMatch (FileTree.find {}) (absentRequest "{} > {}=x") = .ok (.done ⟨boundDependent.render, [], false⟩) := by
  have habsent : Node.index 99 ∉ onePair := by decide
  have hrequires : boundDependent.requires "x" = true := by decide
  have hname : Environment.get? [("x", .index 99)] "x" = some (Node.index 99) := by decide
  have hcompile : Pattern.compile "{} > {}=x" = .ok boundDependent := by decide +kernel
  obtain ⟨hfind, hanswer⟩ := find_eq_false_of_absent hname habsent hrequires
  refine ⟨habsent, hrequires, (hfind _ [] _ rfl).1, ?_⟩
  exact hanswer (FileTree.find {}) (absentRequest "{} > {}=x")
    ⟨"{} > {}=x", .bracketed "[a obj:b]", [("x", 99)], none, .map [], none⟩ .flat rfl hcompile rfl rfl
    (fun _ => Taxonomy.isTextual_flat) rfl

/-- Where the pattern does without the name, the node for it does not matter to a search, but the request
fails on it. -/
theorem find_eq_true_of_absent_unnamed :
    Node.index 99 ∉ onePair ∧
      (Cursor.start (search ⟨.node {} [], []⟩ onePair (.total fun _ _ => true)
        [("x", .index 99)])).find.1 = .ok true ∧
      answerMatch (FileTree.find {}) (absentRequest "{}") = .error (.search (.unknownNode (.index 99))) := by
  -- the pattern requires no name, so the match stands and its binding names no node
  have hcompile : Pattern.compile "{}" = .ok ⟨.node {} [], []⟩ := by decide +kernel
  have hcheck : MatchRequest.check (absentRequest "{}") =
      .ok ⟨"{}", .bracketed "[a obj:b]", [("x", 99)], none, .map [], none⟩ := rfl
  have hrecords : records onePair none
      (search ⟨.node {} [], []⟩ onePair Taxonomy.flat.predicate [("x", .index 99)]) =
      .error (.unknownNode (.index 99)) := rfl
  have hmatches : MatchRequest.matchesOf ⟨"{}", .bracketed "[a obj:b]", [("x", 99)], none, .map [], none⟩
      (FileTree.find {}) ⟨.node {} [], []⟩ = .error (.search (.unknownNode (.index 99))) := by
    rw [matchesOf_of_records (g := onePair) (t := .flat) rfl rfl]
    dsimp only
    rw [show MatchRequest.environment ⟨"{}", .bracketed "[a obj:b]", [("x", 99)], none, .map [], none⟩ =
      [("x", .index 99)] from rfl, hrecords]
  refine ⟨by decide, rfl, ?_⟩
  rw [answerMatch_of_compile hcheck hcompile, hmatches]
  rfl

end DependencyQuery
