import DependencyQuery.Graph.Basic

namespace DependencyQuery.Graph

open Text (quoted)

/-!
# Graphs: what can be wrong with one

* `NotationFault` — the ways in which a text is no graph in bracket notation;
* `Refusal` — why there is no graph: its notation is faulty, its words or labels cannot be kept
  under their keys, or what is handed over is no directed graph.
-/

/-- The ways in which a text is no graph in bracket notation. -/
inductive NotationFault where
  | unexpectedEnd
  | unbalancedClosing
  | unbalancedOpening
  | noWord
  | noEntry (found : String)
  | noLabel (found : String)
  | otherWord (index : Nat) (word : String)
deriving DecidableEq, Repr

/-- The wording of a fault. -/
def NotationFault.message : NotationFault → String
  | unexpectedEnd => "Unexpected end"
  | unbalancedClosing => "Unbalanced ']'"
  | unbalancedOpening => "Unbalanced '['"
  | noWord => "Expected word after '['"
  | noEntry found => "Expected 'relation:dependent', found " ++ quoted found
  | noLabel found => "Missing relation in " ++ quoted found
  | otherWord index word => "Index " ++ toString index ++ " already used by " ++ quoted word

/-- Why there is no graph. -/
inductive Refusal where
  /-- There is no notation: it is blank, or no text. -/
  | blank
  | misread (fault : NotationFault) (text : String)
  /-- A word or a label cannot be kept under its key. -/
  | keyClash
  | undirected
  /-- A kind of thing that graphs are not made from. -/
  | unsupported (kind : String)
deriving DecidableEq, Repr

/-- The wording of a refusal, if it has one. -/
def Refusal.message? : Refusal → Option String
  | blank => some "Graph notation must be a non-empty string"
  | misread fault text => some (fault.message ++ " in graph notation: " ++ quoted text)
  | keyClash => none
  | undirected => some "Dependency graphs must be directed"
  | unsupported kind => some ("Unsupported graph type: " ++ kind)

end DependencyQuery.Graph
