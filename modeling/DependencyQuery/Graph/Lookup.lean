import DependencyQuery.Graph.Basic

namespace DependencyQuery

/-!
# Questions about nodes that may not be there

* `UnknownNode` — the node that a question was about, where the graph does not have it;
* `attributeOf`, `wordOf`, `governorsOf`, `dependentsOf` — what the graph knows about a node;
* `nodeByIndex?` — the node with an index, if there is one.
-/

/-- A node that the graph does not have was asked about. -/
structure UnknownNode where
  node : Node
deriving DecidableEq, Repr

namespace Graph

/-- The answer to a question about a node, which has to be there. -/
def ask {α : Type} (g : Graph) (n : Node) (answer : α) : Except UnknownNode α :=
  if n ∈ g then .ok answer else .error ⟨n⟩

/-- The value of an attribute of a node. -/
def attributeOf (g : Graph) (n : Node) (key : String) : Except UnknownNode (Option String) :=
  g.ask n (g.attribute? n key)

/-- The word of a node. -/
def wordOf (g : Graph) (n : Node) : Except UnknownNode String := g.ask n (g.word n)

/-- The labels of the edges into a node, with the nodes that govern it. -/
def governorsOf (g : Graph) (n : Node) : Except UnknownNode (List (Option String × Node)) :=
  g.ask n (g.governors n)

/-- The labels of the edges out of a node, with the nodes that depend on it. -/
def dependentsOf (g : Graph) (n : Node) : Except UnknownNode (List (Option String × Node)) :=
  g.ask n (g.dependents n)

/-- The node with the given index. -/
def nodeByIndex? (g : Graph) (n : Node) : Option Node := if n ∈ g then some n else none

/-- The wording where no node has the index. -/
def noIndexMessage (n : Node) : String := "No node with index " ++ n.text

/-- A question about a node is answered just if the graph has the node. -/
theorem ask_eq_ok {α : Type} {g : Graph} {n : Node} {a b : α} :
    g.ask n a = .ok b ↔ n ∈ g ∧ a = b := by
  unfold ask
  split
  · next h => simp [h]
  · next h => simp [h]

end Graph

end DependencyQuery
