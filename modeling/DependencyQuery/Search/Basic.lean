import DependencyQuery.Search.Environment
import DependencyQuery.Search.Walk

namespace DependencyQuery

/-!
# Searching a graph for a pattern

A search goes through the nodes of the graph in their order and, at each of them, through the clauses
of the pattern from left to right: every witness of a link, or alternative of a group, goes on with
the environment that the clauses before have left.  A negated link lets the environment pass if none
of its witnesses fits the target.

* `matchTree`, `matchClauses`, `matchClause`, `matchAlternatives` — the environments in which a tree,
  clauses, a clause, or one of some alternatives fit a node;
* `linkHolds` — whether a link has a witness that fits its target;
* `search` — the roots and environments of a whole pattern.
-/

variable [Text.CharacterNames]

section Match

variable (g : Graph) (predicate : LabelPredicate)

/-- Lets the environment pass if what is negated does not hold. -/
def unlessHolds (env : Environment) : Except SearchFault Bool → Results SearchFault Environment
  | .error e => .failed e
  | .ok true => .done
  | .ok false => .single env

mutual

/-- The environments in which a tree fits a node. -/
def matchTree : PatternTree → Environment → Node → Results SearchFault Environment
  | .node description clauses, env, n =>
    if description.isSatisfied g env n then matchClauses clauses (description.bind env n) n
    else .done

/-- The environments in which all clauses fit a node. -/
def matchClauses : List Clause → Environment → Node → Results SearchFault Environment
  | [], env, _ => .single env
  | clause :: rest, env, n =>
    (matchClause clause env n).flatMap fun env => matchClauses rest env n

/-- The environments in which a clause fits a node. -/
def matchClause : Clause → Environment → Node → Results SearchFault Environment
  | .link l target, env, n =>
    if l.negated then
      unlessHolds env ((g.witnesses predicate l n).existsAny (matchTree target env))
    else (g.witnesses predicate l n).flatMap (matchTree target env)
  | .group alternatives, env, n => matchAlternatives alternatives env n

/-- The environments in which one of the alternatives fits a node. -/
def matchAlternatives : List (List Clause) → Environment → Node → Results SearchFault Environment
  | [], _, _ => .done
  | clauses :: rest, env, n => (matchClauses clauses env n).append fun _ => matchAlternatives rest env n

end

/-- Whether a link has a witness that fits the target, be the link negated or not. -/
def linkHolds (l : Link) (target : PatternTree) (env : Environment) (n : Node) :
    Except SearchFault Bool :=
  (g.witnesses predicate l n).existsAny (matchTree g predicate target env)

/-- The environments in which all trees fit the same node. -/
def matchTrees : List PatternTree → Environment → Node → Results SearchFault Environment
  | [], env, _ => .single env
  | tree :: rest, env, n =>
    (matchTree g predicate tree env n).flatMap fun env => matchTrees rest env n

end Match

/-- The root of a result, and the nodes that names are bound to. -/
structure Finding where
  root : Node
  bindings : Environment
deriving DecidableEq, Repr

/-- The results of a pattern in a graph, given nodes for some names. -/
def search (p : Pattern) (g : Graph) (predicate : LabelPredicate) (base : Environment) :
    Results SearchFault Finding :=
  Results.flatMapList
    (fun root => (matchTrees g predicate p.trees base root).map fun env => ⟨root, env⟩) g.nodes

end DependencyQuery
