import DependencyQuery.Proofs.Search.Extension
import DependencyQuery.Proofs.Walk.Witnesses
import DependencyQuery.Search.Basic

namespace DependencyQuery

/-!
# Choices

A choice for a pattern picks a node for the root, and then, for whatever it reaches of the pattern, a
node for the target of every link that is not negated and one alternative of every group.

* `TreeChoice`, `ClausesChoice`, `ClauseChoice`, `AlternativeChoice`, `TreesChoice`, `PatternChoice` —
  the choices for each part of a pattern;
* `bindings` — the names that a choice selects with their nodes, from left to right and depth first;
* `Holds` — whether every description that is selected passes its tests, every target is a witness,
  and no negated link that is reached has a target that can be chosen;
* `PatternChoice.Consistent` — whether a choice holds and gives each name one node;
* `Precedes` — the lexicographic order: targets in the order of the witnesses, alternatives from left
  to right, and what stands further left counts first;
* `PatternChoice.finding` — the result that a choice stands for.
-/

/-! ### Choices for the parts of a pattern -/

variable [Text.CharacterNames]

mutual

/-- A choice for a tree, which stands at a node that has been chosen already. -/
inductive TreeChoice : PatternTree → Type
  | node {description : Description} {clauses : List Clause} (below : ClausesChoice clauses) :
      TreeChoice (.node description clauses)

/-- A choice for each of several clauses. -/
inductive ClausesChoice : List Clause → Type
  | nil : ClausesChoice []
  | cons {clause : Clause} {rest : List Clause} (first : ClauseChoice clause)
      (more : ClausesChoice rest) : ClausesChoice (clause :: rest)

/-- A choice for a clause; nothing is chosen for a negated link. -/
inductive ClauseChoice : Clause → Type
  | absent {l : Link} {target : PatternTree} (negated : l.negated = true) :
      ClauseChoice (.link l target)
  | target {l : Link} {target : PatternTree} (positive : l.negated = false) (n : Node)
      (below : TreeChoice target) : ClauseChoice (.link l target)
  | group {alternatives : List (List Clause)} (chosen : AlternativeChoice alternatives) :
      ClauseChoice (.group alternatives)

/-- The choice of one alternative, and a choice for its clauses. -/
inductive AlternativeChoice : List (List Clause) → Type
  | first {clauses : List Clause} {rest : List (List Clause)} (below : ClausesChoice clauses) :
      AlternativeChoice (clauses :: rest)
  | later {clauses : List Clause} {rest : List (List Clause)} (chosen : AlternativeChoice rest) :
      AlternativeChoice (clauses :: rest)

end

/-- A choice for each of several trees at the same node. -/
inductive TreesChoice : List PatternTree → Type
  | nil : TreesChoice []
  | cons {tree : PatternTree} {rest : List PatternTree} (first : TreeChoice tree)
      (more : TreesChoice rest) : TreesChoice (tree :: rest)

/-- A choice for a pattern: a node for the root, and choices for all its trees. -/
structure PatternChoice (p : Pattern) where
  root : Node
  trees : TreesChoice p.trees

/-! ### What a choice binds -/

mutual

/-- The names that a choice for a tree at a node selects. -/
def TreeChoice.bindings : {tree : PatternTree} → TreeChoice tree → Node → List (String × Node)
  | .node description _, .node below, n => description.binding n ++ below.bindings n

/-- The names that a choice for several clauses at a node selects. -/
def ClausesChoice.bindings : {clauses : List Clause} → ClausesChoice clauses → Node →
    List (String × Node)
  | _, .nil, _ => []
  | _, .cons first more, n => first.bindings n ++ more.bindings n

/-- The names that a choice for a clause at a node selects. -/
def ClauseChoice.bindings : {clause : Clause} → ClauseChoice clause → Node → List (String × Node)
  | _, .absent _, _ => []
  | _, .target _ m below, _ => below.bindings m
  | _, .group chosen, n => chosen.bindings n

/-- The names that the choice of an alternative at a node selects. -/
def AlternativeChoice.bindings : {alternatives : List (List Clause)} →
    AlternativeChoice alternatives → Node → List (String × Node)
  | _, .first below, n => below.bindings n
  | _, .later chosen, n => chosen.bindings n

end

/-- The names that a choice for several trees at a node selects. -/
def TreesChoice.bindings : {trees : List PatternTree} → TreesChoice trees → Node →
    List (String × Node)
  | _, .nil, _ => []
  | _, .cons first more, n => first.bindings n ++ more.bindings n

namespace PatternChoice

variable {p : Pattern}

/-- The names that a choice for a pattern selects. -/
def bindings (c : PatternChoice p) : List (String × Node) := c.trees.bindings c.root

/-- The result that a choice stands for, given nodes for some names. -/
def finding (base : Environment) (c : PatternChoice p) : Finding := ⟨c.root, base.extend c.bindings⟩

end PatternChoice

/-! ### Choices that hold

The environment is the one that the base and the names selected before make up.
-/

section Holds

variable (g : Graph) (accepts : LabelFilter → Option String → Bool)

mutual

/-- Whether a choice for a tree at a node holds. -/
def TreeChoice.Holds : (tree : PatternTree) → TreeChoice tree → Environment → Node → Prop
  | .node description clauses, .node below, env, n =>
    description.testsPass g n = true ∧
      ClausesChoice.Holds clauses below (env.extend (description.binding n)) n

/-- Whether a choice for several clauses at a node holds. -/
def ClausesChoice.Holds : (clauses : List Clause) → ClausesChoice clauses → Environment → Node →
    Prop
  | [], .nil, _, _ => True
  | clause :: rest, .cons first more, env, n =>
    ClauseChoice.Holds clause first env n ∧
      ClausesChoice.Holds rest more (env.extend (first.bindings n)) n

/-- Whether a choice for a clause at a node holds. -/
def ClauseChoice.Holds : (clause : Clause) → ClauseChoice clause → Environment → Node → Prop
  | .link l target, .absent _, env, n =>
    ¬ ∃ m ∈ g.witnessList accepts l n, ∃ c : TreeChoice target,
      TreeChoice.Holds target c env m ∧ env.Agree (c.bindings m)
  | .link l target, .target _ m below, env, n =>
    m ∈ g.witnessList accepts l n ∧ TreeChoice.Holds target below env m
  | .group alternatives, .group chosen, env, n => AlternativeChoice.Holds alternatives chosen env n

/-- Whether the choice of an alternative at a node holds. -/
def AlternativeChoice.Holds : (alternatives : List (List Clause)) →
    AlternativeChoice alternatives → Environment → Node → Prop
  | clauses :: _, .first below, env, n => ClausesChoice.Holds clauses below env n
  | _ :: rest, .later chosen, env, n => AlternativeChoice.Holds rest chosen env n

end

/-- Whether a choice for several trees at a node holds. -/
def TreesChoice.Holds : (trees : List PatternTree) → TreesChoice trees → Environment → Node → Prop
  | [], .nil, _, _ => True
  | tree :: rest, .cons first more, env, n =>
    TreeChoice.Holds g accepts tree first env n ∧
      TreesChoice.Holds rest more (env.extend (first.bindings n)) n

/-- Whether a choice for a pattern holds, and each name has one node, the one that the base gives it
if it does. -/
structure PatternChoice.Consistent {p : Pattern} (base : Environment) (c : PatternChoice p) : Prop
    where
  root_mem : c.root ∈ g
  holds : c.trees.Holds g accepts p.trees base c.root
  agree : base.Agree c.bindings

end Holds

/-! ### The order of choices -/

section Order

variable (g : Graph) (accepts : LabelFilter → Option String → Bool)

mutual

/-- The order of choices for a tree at a node. -/
def TreeChoice.Precedes : {tree : PatternTree} → Node → TreeChoice tree → TreeChoice tree → Prop
  | .node _ _, n, .node c, .node c' => ClausesChoice.Precedes n c c'

/-- The order of choices for several clauses at a node: the first difference counts. -/
def ClausesChoice.Precedes : {clauses : List Clause} → Node → ClausesChoice clauses →
    ClausesChoice clauses → Prop
  | _, _, .nil, .nil => False
  | _, n, .cons a more, .cons a' more' =>
    ClauseChoice.Precedes n a a' ∨ a = a' ∧ ClausesChoice.Precedes n more more'

/-- The order of choices for a clause at a node: targets come in the order of the witnesses. -/
def ClauseChoice.Precedes : {clause : Clause} → Node → ClauseChoice clause → ClauseChoice clause →
    Prop
  | .link l _, n, .target _ m c, .target _ m' c' =>
    [m, m'].Sublist (g.witnessList accepts l n) ∨ m = m' ∧ TreeChoice.Precedes m c c'
  | .link _ _, _, .target _ _ _, .absent _ => False
  | .link _ _, _, .absent _, _ => False
  | .group _, n, .group c, .group c' => AlternativeChoice.Precedes n c c'

/-- The order of choices of alternatives at a node: alternatives come from left to right. -/
def AlternativeChoice.Precedes : {alternatives : List (List Clause)} → Node →
    AlternativeChoice alternatives → AlternativeChoice alternatives → Prop
  | _, n, .first c, .first c' => ClausesChoice.Precedes n c c'
  | _, _, .first _, .later _ => True
  | _, _, .later _, .first _ => False
  | _, n, .later c, .later c' => AlternativeChoice.Precedes n c c'

end

/-- The order of choices for several trees at a node. -/
def TreesChoice.Precedes : {trees : List PatternTree} → Node → TreesChoice trees →
    TreesChoice trees → Prop
  | _, _, .nil, .nil => False
  | _, n, .cons a more, .cons a' more' =>
    TreeChoice.Precedes g accepts n a a' ∨ a = a' ∧ TreesChoice.Precedes n more more'

/-- The order of choices for a pattern: roots come in the order of the graph's nodes. -/
def PatternChoice.Precedes {p : Pattern} (c c' : PatternChoice p) : Prop :=
  [c.root, c'.root].Sublist g.nodes ∨
    c.root = c'.root ∧ TreesChoice.Precedes g accepts c.root c.trees c'.trees

end Order

end DependencyQuery
