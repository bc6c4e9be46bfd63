import DependencyQuery.Graph.Error
import DependencyQuery.Settings

namespace DependencyQuery

/-!
# Graphs from tables

Other programs keep graphs as rows: a node or an edge, each with attributes of any kind.

* `NodeRow`, `EdgeRow`, `GraphTable` — such a graph;
* `Graph.ofTable` — the dependency graph that it holds, if its edges have a direction.

Attributes become text.  An edge's label is the attribute that the settings name for it.
-/

/-- A node and its attributes. -/
structure NodeRow where
  node : Node
  attributes : List (String × Datum)

/-- An edge and its attributes. -/
structure EdgeRow where
  governor : Node
  dependent : Node
  attributes : List (String × Datum)

/-- A graph as rows. -/
structure GraphTable where
  /-- Whether the edges have a direction. -/
  directed : Bool := true
  /-- Whether two nodes can have more than one edge between them. -/
  parallel : Bool := true
  nodes : List NodeRow
  edges : List EdgeRow

/-- An attribute's value as text; null is no value. -/
def Datum.attributeText? : Datum → Option String
  | null => none
  | d => some d.toText

namespace Graph

/-- The label of the first edge between two nodes. -/
def labelBetween (g : Graph) (governor dependent : Node) : Option String :=
  (g.edges.find? fun e => e.governor = governor && e.dependent = dependent).bind (·.label)

/-- The graph with the node of a row. -/
def addNodeRow (g : Graph) (row : NodeRow) : Graph :=
  (g.mention row.node).describe row.node
    (row.attributes.map fun (key, value) => (key, value.attributeText?))

/-- The graph with the edge of a row.  Where there is at most one edge between two nodes, an edge
without the attribute for labels leaves the label as it is. -/
def addEdgeRow (labelKey : String) (g : Graph) (row : EdgeRow) : Graph :=
  let label :=
    match row.attributes.lookup labelKey with
    | some value => value.attributeText?
    | none => if g.parallel then none else g.labelBetween row.governor row.dependent
  g.addEdge row.governor row.dependent label

/-- The graph that a table holds. -/
def ofTable (settings : Settings) (t : GraphTable) : Except Refusal Graph :=
  if t.directed then
    let g := t.nodes.foldl addNodeRow (empty settings.wordKey t.parallel settings.relationKey)
    .ok (t.edges.foldl (addEdgeRow settings.relationKey) g)
  else .error .undirected

end Graph

end DependencyQuery
