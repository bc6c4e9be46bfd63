import DependencyQuery.Graph.Error
import DependencyQuery.Payload.Check
import DependencyQuery.Settings

namespace DependencyQuery

open Payload

/-!
# Graphs as data

* `GraphData` — a graph as lists of nodes, edges and roots, as a request holds it;
* `GraphData.fault?` — the first broken rule: the indices of the nodes are distinct, and edges and
  roots refer to nodes;
* `GraphData.check` — reads graph data, `Graph.ofData` — the graph that they describe.
-/

/-- A node of a graph as data. -/
structure NodeData where
  index : Int
  word : String
  value : Option String
  base : Option String
  tag : Option String
  entity : Option String
deriving DecidableEq, Repr

/-- An edge of a graph as data. -/
structure EdgeData where
  governor : Int
  dependent : Int
  relation : String
deriving DecidableEq, Repr

/-- A graph as data. -/
structure GraphData where
  nodes : List NodeData
  edges : List EdgeData
  roots : List Int
deriving DecidableEq, Repr

/-- The rules that graph data can break. -/
inductive ReferenceFault where
  | duplicate (index : Int)
  | edgeEnd (index : Int)
  | root (index : Int)
deriving DecidableEq, Repr

/-- The wording of a broken rule. -/
def ReferenceFault.message : ReferenceFault → String
  | duplicate index => "Duplicate node index: " ++ toString index
  | edgeEnd index => "Edge references unknown node: " ++ toString index
  | root index => "Root references unknown node: " ++ toString index

/-- The first element that occurs again before it. -/
def firstRepeated? : (seen : List Int) → List Int → Option Int
  | _, [] => none
  | seen, n :: rest => if n ∈ seen then some n else firstRepeated? (n :: seen) rest

namespace GraphData

/-- The indices of the nodes. -/
def indices (d : GraphData) : List Int := d.nodes.map (·.index)

/-- The first rule that is broken. -/
def fault? (d : GraphData) : Option ReferenceFault :=
  ((firstRepeated? [] d.indices).map .duplicate).or <|
    (((d.edges.flatMap fun e => [e.governor, e.dependent]).find? (· ∉ d.indices)).map .edgeEnd).or <|
      (d.roots.find? (· ∉ d.indices)).map .root

/-- The node with the given index. -/
def node? (d : GraphData) (index : Int) : Option NodeData := d.nodes.find? fun n => n.index = index

end GraphData

/-- Reads a node. -/
def NodeData.check : Datum → Checked NodeData
  | .map fields =>
    let text (name : String) := withDefault fields name none (optional string)
    .ap (.ap (.ap (.ap (.ap ((required fields "index" positive).map NodeData.mk)
      (required fields "word" string)) (text "value")) (text "lemma")) (text "tag")) (text "ner")
  | _ => .fail .notAModel

/-- Reads an edge. -/
def EdgeData.check : Datum → Checked EdgeData
  | .map fields =>
    .ap (.ap ((requiredAs fields "from" "governor" positive).map EdgeData.mk)
      (requiredAs fields "to" "dependent" positive)) (required fields "relation" nonemptyString)
  | _ => .fail .notAModel

/-- Reads graph data; the rules apply only where all parts could be read. -/
def GraphData.check : Datum → Checked GraphData
  | .map fields => do
    let d ← Checked.ap (.ap ((withDefault fields "nodes" [] (listOf NodeData.check)).map GraphData.mk)
      (withDefault fields "edges" [] (listOf EdgeData.check)))
      (withDefault fields "roots" [] (listOf integer))
    match d.fault? with
    | some fault => .fail (.rule fault.message)
    | none => .ok d
  | _ => .fail .notAModel

/-- The attributes that a node carries besides its word. -/
def NodeData.attributes (n : NodeData) : Attributes :=
  [("value", n.value), ("lemma", n.base), ("tag", n.tag), ("ner", n.entity)].filter (·.2.isSome)

namespace Graph

/-- The graph with a node from data. -/
def addNodeData (g : Graph) (n : NodeData) : Except Refusal Graph :=
  match g.addNode? (.index n.index) n.word n.attributes with
  | some h => .ok h
  | none => .error .keyClash

/-- The graph with an edge from data. -/
def addEdgeData (g : Graph) (e : EdgeData) : Except Refusal Graph :=
  match g.addEdge? (.index e.governor) (.index e.dependent) (some e.relation) with
  | some h => .ok h
  | none => .error .keyClash

/-- The graph that data describe. -/
def ofData (settings : Settings) (d : GraphData) : Except Refusal Graph := do
  let g ← d.nodes.foldlM addNodeData (empty settings.wordKey true settings.relationKey)
  let g ← d.edges.foldlM addEdgeData g
  return g.setRoots (d.roots.map Node.index)

end Graph

end DependencyQuery
