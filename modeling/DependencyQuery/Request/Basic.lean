import DependencyQuery.Graph.Data

namespace DependencyQuery

open Payload

/-!
# Requests for matches

* `GraphSource` — the graph of a request, as data or in bracket notation;
* `MatchRequest` — a pattern, a graph, and what else bears on the search;
* `MatchRequest.check` — reads a request; its graph has to be given in exactly one of the two forms.
-/

/-- The graph of a request. -/
inductive GraphSource where
  | data (graph : GraphData)
  | bracketed (text : String)
deriving DecidableEq, Repr

/-- A request for the matches of a pattern in a graph. -/
structure MatchRequest where
  pattern : String
  source : GraphSource
  /-- The indices of the nodes to which names are bound beforehand. -/
  bindings : List (String × Int)
  /-- Labels with their kinds; takes the place of the taxonomy in the settings. -/
  hierarchy : Option (List (String × List String))
  settings : Datum
  /-- The greatest number of matches to report. -/
  limit : Option Nat
deriving Repr

/-- The fields of a request before it is known how its graph is given. -/
structure RequestFields where
  pattern : String
  graph : Option GraphData
  bracketed : Option String
  bindings : List (String × Int)
  hierarchy : Option (List (String × List String))
  settings : Datum
  limit : Option Int

/-- A map, which is left as it is. -/
def anyMap : Datum → Checked Datum
  | .map entries => .ok (.map entries)
  | _ => .fail .notAMap

/-- Reads the fields of a request. -/
def RequestFields.check (fields : List (Datum × Datum)) : Checked RequestFields :=
  .ap (.ap (.ap (.ap (.ap (.ap ((required fields "pattern" nonemptyString).map RequestFields.mk)
    (withDefault fields "graph" none (optional GraphData.check)))
    (withDefault fields "notation" none (optional string)))
    (withDefault fields "bindings" [] (textMap integer)))
    (withDefault fields "taxonomy" none (optional (textMap (listOf string)))))
    (withDefault fields "settings" (.map []) anyMap))
    (withDefault fields "limit" none (optional positive))

/-- The graph of a request that gives one in exactly one form. -/
def RequestFields.source? (f : RequestFields) : Option GraphSource :=
  match f.graph, f.bracketed with
  | some graph, none => some (.data graph)
  | none, some text => some (.bracketed text)
  | _, _ => none

/-- Reads a request. -/
def MatchRequest.check : Datum → Checked MatchRequest
  | .map fields => do
    let f ← RequestFields.check fields
    match f.source? with
    | some source =>
      return ⟨f.pattern, source, f.bindings, f.hierarchy, f.settings, f.limit.map Int.toNat⟩
    | none => .fail (.rule "Provide exactly one of 'graph' or 'notation'")
  | _ => .fail .notAModel

end DependencyQuery
