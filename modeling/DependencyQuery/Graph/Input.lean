import DependencyQuery.Graph.Data
import DependencyQuery.Graph.Notation.Reader

namespace DependencyQuery.Graph

open Payload

/-!
# Graphs from data of either form

* `InputFault` — why data are no graph;
* `ofPayload` — the graph that a map of nodes and edges describes;
* `ofDatum` — the graph in such a map, or in a text in bracket notation.
-/

/-- Why data are no graph. -/
inductive InputFault where
  | refused (refusal : Refusal)
  | invalid (issues : List Issue)
deriving DecidableEq, Repr

/-- The graph that data describe, once they are checked. -/
def ofPayload (settings : Settings) (d : Datum) : Except InputFault Graph :=
  match GraphData.check d with
  | .error issues => .error (.invalid issues)
  | .ok data => (ofData settings data).mapError .refused

/-- Refuses a datum of a kind that holds no graph. -/
def unsupported (kind : String) : Except InputFault Graph := .error (.refused (.unsupported kind))

/-- The graph that a datum holds: a text in bracket notation, or a map of nodes and edges. -/
def ofDatum (settings : Settings) : Datum → Except InputFault Graph
  | .text s => (ofNotation settings s).mapError .refused
  | .map entries => ofPayload settings (.map entries)
  | .null => unsupported "NoneType"
  | .bool _ => unsupported "bool"
  | .int _ => unsupported "int"
  | .decimal _ => unsupported "float"
  | .list _ => unsupported "list"

end DependencyQuery.Graph
