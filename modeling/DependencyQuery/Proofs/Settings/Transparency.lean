import DependencyQuery.Proofs.Settings.Readings
import DependencyQuery.Request.Answer

namespace DependencyQuery

/-!
# What settings do not change

Settings name the keys under which a graph keeps words and labels.  The matches of a pattern that asks
neither for an attribute under a word's key nor for labels that are not kept do not depend on them.

* `Description.Indifferent`, `Link.Indifferent`, `PatternTree.Indifferent` and its kin — whether a part of a
  pattern reads the same under two settings;
* `matchTree_alike` and its kin — in graphs that are alike, such a part fits the same nodes;
* `records_alike` — and the same is told of a result;
* `records_of_settings` — so the matches are the same under both settings;
* `records_ne_of_settings` — those of other patterns need not be.
-/

/-! ### Patterns that read the same -/

section

variable [Text.CharacterNames]

section Indifferent

variable (settings other : Settings)

/-- Whether the tests of a description stay clear of the keys of words, unless these are the same. -/
def Description.Indifferent (d : Description) : Prop :=
  other.wordKey = settings.wordKey ∨
    ∀ t ∈ d.tests, t.key.key ≠ settings.wordKey ∧ t.key.key ≠ other.wordKey

/-- Whether a link has no filter, unless labels are kept in the same way. -/
def Link.Indifferent (l : Link) : Prop :=
  l.label = none ∨ Graph.TellsLabels settings.relationKey other.relationKey

mutual

/-- Whether all parts of a tree read the same. -/
def PatternTree.Indifferent : PatternTree → Prop
  | .node description clauses => description.Indifferent settings other ∧ clausesIndifferent clauses

/-- Whether all parts of a clause do. -/
def Clause.Indifferent : Clause → Prop
  | .link l target => l.Indifferent settings other ∧ target.Indifferent
  | .group alternatives => alternativesIndifferent alternatives

/-- Whether all parts of several clauses do. -/
def clausesIndifferent : List Clause → Prop
  | [] => True
  | clause :: rest => clause.Indifferent ∧ clausesIndifferent rest

/-- Whether all parts of several alternatives do. -/
def alternativesIndifferent : List (List Clause) → Prop
  | [] => True
  | clauses :: rest => clausesIndifferent clauses ∧ alternativesIndifferent rest

end

end Indifferent

variable {settings other : Settings} {g h : Graph}

/-! ### Searches in graphs that are alike -/

/-- An indifferent description is satisfied in both graphs or in neither. -/
theorem Description.Indifferent.isSatisfied {d : Description} (hd : d.Indifferent settings other)
    (hgh : Graph.Alike settings other g h) (env : Environment) (n : Node) :
    d.isSatisfied h env n = d.isSatisfied g env n := by
  have hpasses : ∀ t ∈ d.tests, t.passes h n = t.passes g n := by
    intro t ht
    rw [AttributeTest.passes, AttributeTest.passes,
      hgh.attributes t.key.key (hd.imp_right fun hclear => hclear t ht)]
  have htests : d.tests.all (·.passes h n) = d.tests.all (·.passes g n) := by
    rw [Bool.eq_iff_iff, List.all_eq_true, List.all_eq_true]
    exact forall₂_congr fun t ht => by rw [hpasses t ht]
  rw [Description.isSatisfied, Description.isSatisfied, testsPass, testsPass, htests]

/-- An indifferent link has the same witnesses in both graphs. -/
theorem Link.Indifferent.witnesses {l : Link} (hl : l.Indifferent settings other)
    (hgh : Graph.Alike settings other g h) (predicate : LabelPredicate) (n : Node) :
    h.witnesses predicate l n = g.witnesses predicate l n :=
  Graph.witnesses_congr hgh.nodes hgh.targets
    (hl.imp_right fun htells => Graph.step_congr (hgh.labels htells).1) predicate n

section Match

variable (predicate : LabelPredicate)

mutual

/-- An indifferent tree is matched alike. -/
theorem matchTree_alike (hgh : Graph.Alike settings other g h) :
    (tree : PatternTree) → tree.Indifferent settings other →
    (env : Environment) → (n : Node) → matchTree h predicate tree env n = matchTree g predicate tree env n
  | .node description clauses, htree, env, n => by
    rw [PatternTree.Indifferent] at htree
    rw [matchTree, matchTree, htree.1.isSatisfied hgh, matchClauses_alike hgh clauses htree.2]

/-- Indifferent clauses are matched alike. -/
theorem matchClauses_alike (hgh : Graph.Alike settings other g h) :
    (clauses : List Clause) → clausesIndifferent settings other clauses →
    (env : Environment) → (n : Node) →
    matchClauses h predicate clauses env n = matchClauses g predicate clauses env n
  | [], _, env, n => by rw [matchClauses, matchClauses]
  | clause :: rest, hclauses, env, n => by
    rw [clausesIndifferent] at hclauses
    have hrest : (fun env => matchClauses h predicate rest env n) =
        fun env => matchClauses g predicate rest env n :=
      funext fun env => matchClauses_alike hgh rest hclauses.2 env n
    rw [matchClauses, matchClauses, matchClause_alike hgh clause hclauses.1, hrest]

/-- An indifferent clause is matched alike. -/
theorem matchClause_alike (hgh : Graph.Alike settings other g h) :
    (clause : Clause) → clause.Indifferent settings other →
    (env : Environment) → (n : Node) →
    matchClause h predicate clause env n = matchClause g predicate clause env n
  | .link l target, hclause, env, n => by
    rw [Clause.Indifferent] at hclause
    have htarget : matchTree h predicate target env = matchTree g predicate target env :=
      funext fun m => matchTree_alike hgh target hclause.2 env m
    rw [matchClause, matchClause, hclause.1.witnesses hgh, htarget]
  | .group alternatives, hclause, env, n => by
    rw [Clause.Indifferent] at hclause
    rw [matchClause, matchClause, matchAlternatives_alike hgh alternatives hclause]

/-- Indifferent alternatives are matched alike. -/
theorem matchAlternatives_alike (hgh : Graph.Alike settings other g h) :
    (alternatives : List (List Clause)) →
    alternativesIndifferent settings other alternatives → (env : Environment) → (n : Node) →
    matchAlternatives h predicate alternatives env n = matchAlternatives g predicate alternatives env n
  | [], _, env, n => by rw [matchAlternatives, matchAlternatives]
  | clauses :: rest, halternatives, env, n => by
    rw [alternativesIndifferent] at halternatives
    rw [matchAlternatives, matchAlternatives, matchClauses_alike hgh clauses halternatives.1,
      matchAlternatives_alike hgh rest halternatives.2]

end

/-- Indifferent trees are matched alike. -/
theorem matchTrees_alike (hgh : Graph.Alike settings other g h) {trees : List PatternTree}
    (htrees : ∀ tree ∈ trees, tree.Indifferent settings other) (env : Environment) (n : Node) :
    matchTrees h predicate trees env n = matchTrees g predicate trees env n := by
  induction trees generalizing env with
  | nil => rfl
  | cons tree rest ih =>
    rw [List.forall_mem_cons] at htrees
    have hrest : (fun env => matchTrees h predicate rest env n) =
        fun env => matchTrees g predicate rest env n := funext fun env => ih htrees.2 env
    rw [matchTrees, matchTrees, matchTree_alike predicate hgh tree htrees.1, hrest]

/-- An indifferent pattern has the same results in both graphs. -/
theorem search_alike (hgh : Graph.Alike settings other g h) {p : Pattern}
    (hp : ∀ tree ∈ p.trees, tree.Indifferent settings other)
    (base : Environment) : search p h predicate base = search p g predicate base := by
  have hroots : (fun root => (matchTrees h predicate p.trees base root).map fun env => Finding.mk root env) =
      fun root => (matchTrees g predicate p.trees base root).map fun env => Finding.mk root env :=
    funext fun root => by rw [matchTrees_alike predicate hgh hp]
  rw [search, search, hroots, hgh.nodes]

end Match

/-! ### Records -/

omit [Text.CharacterNames] in
/-- Graphs that are alike have the same record of a node. -/
theorem Graph.Alike.record (hgh : Alike settings other g h) (n : Node) : h.record n = g.record n := by
  simp only [Graph.record, wordOf, ask, hgh.mem_iff, hgh.word]

omit [Text.CharacterNames] in
/-- Graphs that are alike have the same records of bindings. -/
theorem Graph.Alike.recordAll (hgh : Alike settings other g h) (env : Environment) :
    h.recordAll env = g.recordAll env := by
  induction env with
  | nil => rfl
  | cons binding rest ih => rw [Graph.recordAll, Graph.recordAll, hgh.record, ih]

omit [Text.CharacterNames] in
/-- In graphs that are alike, the same is told of results. -/
theorem records_alike (hgh : Graph.Alike settings other g h) (limit : Option Nat)
    (found : Results SearchFault Finding) : records h limit found = records g limit found := by
  induction found generalizing limit with
  | done => rfl
  | failed e => rfl
  | next f rest ih =>
    have hrecord : f.record h = f.record g := by
      rw [Finding.record, Finding.record, hgh.record, hgh.recordAll]
    cases limit with
    | none => simp only [records, hrecord, ih]
    | some limit => cases limit <;> simp only [records, hrecord, ih]

/-- **The keys for words and labels do not matter, where nothing is asked under them.**  Take a graph as
data or in bracket notation, and two settings under which it can be kept.  Unless the key for words is the
same, let no description test the attribute under either of the two.  Unless labels are kept in the same way,
which they are not under the key that tells parallel edges apart, let no link have a filter.  Then the records
of a search, up to any limit, are the same under both settings. -/
theorem records_of_settings {source : GraphSource} {p : Pattern} (hg : source.graph settings = .ok g)
    (hh : source.graph other = .ok h) (hp : ∀ tree ∈ p.trees, tree.Indifferent settings other)
    (predicate : LabelPredicate) (base : Environment) (limit : Option Nat) :
    records h limit (search p h predicate base) = records g limit (search p g predicate base) := by
  have hgh : Graph.Alike settings other g h := by
    cases source with
    | data d => exact Graph.alike_of_ofData hg hh
    | bracketed text => exact Graph.alike_of_ofNotation hg hh
  rw [search_alike predicate hgh hp, records_alike hgh]

end

/-- A verb with its subject, its words under a key and its edge with or without a label. -/
def verbGraph (settings : Settings) (label : Option String)
    (identified : List (Node × Node × String) := []) : Graph where
  entries := [(.index 1, [(settings.wordKey, some "ate"), ("value", some "ate")]),
    (.index 2, [(settings.wordKey, some "Bill"), ("value", some "Bill")])]
  edges := [⟨.index 1, .index 2, label⟩]
  declared := [.index 1]
  wordKey := settings.wordKey
  labelKey := settings.relationKey
  identified := identified
  nodup := by simp
  closed := by simp

/-- The words `ate` with anything below them. -/
def valueQuery : Pattern where
  first := .node { tests := [⟨.value, .literal "ate"⟩] }
    [.link ⟨.down, .far none, none, false⟩ (.node { name := some "x" } [])]

/-- Neither the words, which are tested as values, nor the label of the edge is looked up under its key. -/
theorem records_of_settings_valueQuery :
    (GraphSource.bracketed "[ate subj:Bill]").graph {} = .ok (verbGraph {} (some "subj")) ∧
      (GraphSource.bracketed "[ate subj:Bill]").graph ⟨"key", "form", none⟩ =
        .ok (verbGraph ⟨"key", "form", none⟩ none [(.index 1, .index 2, "subj")]) ∧
      (∀ tree ∈ valueQuery.trees, tree.Indifferent {} ⟨"key", "form", none⟩) ∧
      records (verbGraph ⟨"key", "form", none⟩ none [(.index 1, .index 2, "subj")]) none
          (search valueQuery (verbGraph ⟨"key", "form", none⟩ none [(.index 1, .index 2, "subj")])
            (.total fun _ _ => true) []) =
        records (verbGraph {} (some "subj")) none
          (search valueQuery (verbGraph {} (some "subj")) (.total fun _ _ => true) []) := by
  -- the two settings keep the word under different keys, and the query asks for neither
  have hread : (GraphSource.bracketed "[ate subj:Bill]").graph {} = .ok (verbGraph {} (some "subj")) := rfl
  have hother : (GraphSource.bracketed "[ate subj:Bill]").graph ⟨"key", "form", none⟩ =
      .ok (verbGraph ⟨"key", "form", none⟩ none [(.index 1, .index 2, "subj")]) := rfl
  have hquery : ∀ tree ∈ valueQuery.trees, tree.Indifferent {} ⟨"key", "form", none⟩ := by
    have hvalue : Description.Indifferent {} ⟨"key", "form", none⟩ { tests := [⟨.value, .literal "ate"⟩] } :=
      .inr (by decide)
    have hname : Description.Indifferent {} ⟨"key", "form", none⟩ { name := some "x" } :=
      .inr (by decide)
    exact List.forall_mem_singleton.2 ⟨hvalue, ⟨.inl rfl, hname, trivial⟩, trivial⟩
  exact ⟨hread, hother, hquery, records_of_settings hread hother hquery _ _ _⟩

/-- The word `ate`. -/
def wordQuery : Pattern where
  first := .node { tests := [⟨.word, .literal "ate"⟩] } []

/-- Anything with a subject. -/
def subjectQuery : Pattern where
  first := .node {} [.link ⟨.down, .direct, some (.name "subj"), false⟩ (.node {} [])]

/-- A test of the word finds nothing where words are kept under another key, and a filter accepts nothing
where labels only tell edges apart. -/
theorem records_ne_of_settings :
    (GraphSource.bracketed "[ate subj:Bill]").graph {} = .ok (verbGraph {} (some "subj")) ∧
      (GraphSource.bracketed "[ate subj:Bill]").graph { wordKey := "form" } =
        .ok (verbGraph { wordKey := "form" } (some "subj")) ∧
      (GraphSource.bracketed "[ate subj:Bill]").graph { relationKey := "key" } =
        .ok (verbGraph { relationKey := "key" } none [(.index 1, .index 2, "subj")]) ∧
      records (verbGraph {} (some "subj")) none (search wordQuery (verbGraph {} (some "subj"))
        Taxonomy.flat.predicate []) = .ok ([⟨⟨.index 1, "ate"⟩, []⟩], false) ∧
      records (verbGraph { wordKey := "form" } (some "subj")) none
        (search wordQuery (verbGraph { wordKey := "form" } (some "subj")) Taxonomy.flat.predicate []) =
          .ok ([], false) ∧
      records (verbGraph {} (some "subj")) none (search subjectQuery (verbGraph {} (some "subj"))
        Taxonomy.flat.predicate []) = .ok ([⟨⟨.index 1, "ate"⟩, []⟩], false) ∧
      records (verbGraph { relationKey := "key" } none [(.index 1, .index 2, "subj")]) none
        (search subjectQuery (verbGraph { relationKey := "key" } none [(.index 1, .index 2, "subj")])
          Taxonomy.flat.predicate []) = .ok ([], false) :=
  ⟨rfl, rfl, rfl, rfl, rfl, rfl, rfl⟩

end DependencyQuery
