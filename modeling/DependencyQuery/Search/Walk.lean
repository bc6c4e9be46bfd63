import DependencyQuery.Graph.Basic
import DependencyQuery.Pattern.Basic
import DependencyQuery.Search.Results

namespace DependencyQuery

/-!
# Walks and their witnesses

A witness of a link is a node at the end of a walk whose number of edges lies within the link's range
and whose last edge carries a label that the link accepts.

* `Graph.step` — the edges by which a walk goes on from a node;
* `Sweep` — what a breadth-first search keeps: a queue, the states that have been in it, and the nodes that
  have been found; `Sweep.enqueue` — what becomes of the node that an edge leads to;
* `sweepEdges`, `sweep` — the edges out of one node from the queue, and the search with one node after another;
* `Graph.witnesses` — the nodes at the ends of the walks, each where it is first accepted.

Without an upper bound for the number of edges, walks that have reached the lower one are no longer told apart by
their length; so a search comes to its end also where edges form a circle.
-/

/-- A label and the node that an edge with it leads to. -/
abbrev Arrival := Option String × Node

/-- What keeps a search from going on. -/
inductive SearchFault where
  /-- A walk begins at a node that the graph does not have. -/
  | unknownNode
  /-- A label cannot be compared, since a kind above it is no text. -/
  | incomparableLabel
deriving DecidableEq, Repr

variable [Text.CharacterNames]

/-- Decides whether a filter accepts the label of an edge, if it can. -/
abbrev LabelPredicate := LabelFilter → Option String → Except SearchFault Bool

/-- Whether a link accepts the label of an edge. -/
def Link.accepts (l : Link) (predicate : LabelPredicate) (label : Option String) :
    Except SearchFault Bool :=
  match l.label with
  | none => .ok true
  | some filter => predicate filter label

/-! ### The queue -/

/-- What a breadth-first search keeps. -/
structure Sweep where
  /-- The nodes to go on from, each with the number of edges that lead there. -/
  queue : List (Node × Nat)
  /-- The states of the nodes that have been in the queue. -/
  seen : List (Node × Nat)
  /-- The nodes that have been found. -/
  returned : List Node

section Sweep

variable (least : Nat) (most : Option Nat)

/-- The state in which walks of so many edges reach a node.  Without an upper bound, it does not matter by how
many edges a walk exceeds the lower one. -/
def stateOf (n : Node) (depth : Nat) : Node × Nat := (n, if most.isSome then depth else min depth least)

/-- The search after a node has been reached: it will be gone on from, unless walks may not be any longer, or it
has been reached in the same state before. -/
def Sweep.enqueue (s : Sweep) (n : Node) (depth : Nat) : Sweep :=
  if most.any (· ≤ depth) then s
  else if stateOf least most n depth ∈ s.seen then s
  else { s with queue := s.queue ++ [(n, depth)], seen := s.seen ++ [stateOf least most n depth] }

variable {ε : Type} (accepts : Option String → Except ε Bool)

/-- Follows edges that end walks of `depth` edges; `after` says how the search goes on. -/
def sweepEdges (depth : Nat) (after : Sweep → Results ε Node) : List Arrival → Sweep → Results ε Node
  | [], s => after s
  | (label, n) :: rest, s =>
    if least ≤ depth ∧ n ∉ s.returned then
      -- the predicate is asked only for a node that may be returned
      match accepts label with
      | .error e => .failed e
      | .ok true => .next n fun _ =>
        sweepEdges depth after rest (Sweep.enqueue least most { s with returned := n :: s.returned } n depth)
      | .ok false => sweepEdges depth after rest (s.enqueue least most n depth)
    else sweepEdges depth after rest (s.enqueue least most n depth)

/-- Goes on from the nodes in the queue until it is empty; `rounds` bounds how many there will be. -/
def sweep (step : Node → List Arrival) : (rounds : Nat) → Sweep → Results ε Node
  | 0, _ => .done
  | rounds + 1, s =>
    match s.queue with
    | [] => .done
    | (n, depth) :: queue =>
      sweepEdges least most accepts (depth + 1) (sweep step rounds) (step n) { s with queue }

end Sweep

namespace Graph

/-- The edges by which a walk goes on from a node. -/
def step (g : Graph) : Direction → Node → List Arrival
  | .up => g.governors
  | .down => g.dependents

/-- The witnesses of a link from a node, as far as a number of rounds. -/
def witnessesWithin (g : Graph) (rounds : Nat) (predicate : LabelPredicate) (l : Link) (start : Node) :
    Results SearchFault Node :=
  let least := max l.range.least 1
  if l.range.most.any (· < least) then .done
  else if start ∈ g then
    sweep least l.range.most (l.accepts predicate) (g.step l.direction) rounds ⟨[(start, 0)], [(start, 0)], []⟩
  else .failed .unknownNode

/-- The number of rounds that bring any search to its end: more than there are states in which nodes can be
reached. -/
def rounds (g : Graph) (range : DepthRange) : Nat := g.size * (range.most.getD (max range.least 1) + 1) + 1

/-- The witnesses of a link from a node. -/
def witnesses (g : Graph) (predicate : LabelPredicate) (l : Link) (start : Node) : Results SearchFault Node :=
  g.witnessesWithin (g.rounds l.range) predicate l start

end Graph

end DependencyQuery
