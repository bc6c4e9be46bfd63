import DependencyQuery.Taxonomy.Basic

namespace DependencyQuery.Taxonomy

/-!
# The labels of English dependency grammar

* `englishKinds` — grammatical relations, each with the relations that are kinds of it;
* `english` — the taxonomy that they make up, `ofHierarchy_english` — when they are listed in a hierarchy.
-/

/-- Grammatical relations and their kinds. -/
def englishKinds : List (String × List String) := [
    ("dep", ["aux", "arg", "cc", "conj", "expl", "mod", "parataxis", "punct", "ref", "sdep",
      "goeswith"]),
    ("aux", ["auxpass", "cop"]),
    ("arg", ["agent", "comp", "subj"]),
    ("comp", ["acomp", "ccomp", "xcomp", "obj", "attr", "complm", "mark", "rel"]),
    ("obj", ["dobj", "iobj", "pobj"]),
    ("subj", ["nsubj", "csubj"]),
    ("nsubj", ["nsubjpass"]),
    ("csubj", ["csubjpass"]),
    ("sdep", ["xsubj"]),
    ("mod", ["abbrev", "amod", "appos", "advcl", "purpcl", "det", "predet", "preconj", "infmod",
      "partmod", "advmod", "mwe", "rcmod", "quantmod", "nn", "npadvmod", "num", "number", "prep",
      "poss", "possessive", "prt"]),
    ("advmod", ["neg"]),
    ("npadvmod", ["tmod"])]

/-- The taxonomy of English grammatical relations. -/
def english : Taxonomy where
  parents := englishKinds.flatMap fun (parent, kinds) =>
    kinds.map fun kind => (.text kind, .text parent)

/-- There are fifty-six relations below the topmost one, all different. -/
theorem size_english : english.size = 56 ∧ (english.parents.map Prod.fst).Nodup := by decide

/-- The hierarchy that lists the relations is accepted, and the taxonomy is what it declares. -/
theorem ofHierarchy_english : ofHierarchy (hierarchyDatum englishKinds) = .ok english := by rfl

end DependencyQuery.Taxonomy
