import DependencyQuery.Search.Basic

namespace DependencyQuery

/-!
# Records of results

* `NodeRecord` — a node with its word;
* `MatchRecord` — a result with the words of all its nodes, `Finding.record` makes one;
* `records` — the records of a search, up to a limit.
-/

/-- A node and its word. -/
structure NodeRecord where
  node : Node
  word : String
deriving DecidableEq, Repr

/-- A result with the words of its nodes. -/
structure MatchRecord where
  root : NodeRecord
  bindings : List (String × NodeRecord)
deriving DecidableEq, Repr

/-- The record of a node, which has to be in the graph. -/
def Graph.record (g : Graph) (n : Node) : Except UnknownNode NodeRecord := do
  return ⟨n, ← g.wordOf n⟩

/-- The records of bound nodes. -/
def Graph.recordAll (g : Graph) : Environment → Except UnknownNode (List (String × NodeRecord))
  | [] => .ok []
  | (name, n) :: rest => do
    let record ← g.record n
    let more ← g.recordAll rest
    return (name, record) :: more

/-- The record of a result. -/
def Finding.record (f : Finding) (g : Graph) : Except UnknownNode MatchRecord := do
  return ⟨← g.record f.root, ← g.recordAll f.bindings⟩

/-- What can go wrong on the way to the records of a search. -/
inductive RecordFault where
  | search (fault : SearchFault)
  | unknownNode (node : Node)
deriving DecidableEq, Repr

/-- The records of results, at most as many as the limit says, and whether it leaves some out. -/
def records (g : Graph) : (limit : Option Nat) → Results SearchFault Finding →
    Except RecordFault (List MatchRecord × Bool)
  | _, .done => .ok ([], false)
  | _, .failed e => .error (.search e)
  -- the limit is reached, and there is another result
  | some 0, .next _ _ => .ok ([], true)
  -- a record that cannot be made ends the run, whatever comes after it
  | limit, .next finding rest =>
    match finding.record g with
    | .error e => .error (.unknownNode e.node)
    | .ok record => do
      let (more, truncated) ← records g (limit.map (· - 1)) (rest ())
      return (record :: more, truncated)

end DependencyQuery
