import DependencyQuery.Graph.Basic
import DependencyQuery.Text.Quoted

namespace DependencyQuery

/-!
# Writing bracket notation

A graph is first unfolded into outlines: each node is expanded where it is met first, with an entry
for every edge out of it, and is only mentioned everywhere else.

* `Graph.expand` — the outline at a node, `Graph.outlines` — those of a whole graph: at its roots, then
  at the nodes that these do not reach;
* `Graph.label` — how a node is written: its word, its tag, and its index where the node is mentioned
  again or has more than one governor;
* `Graph.bracketed?` — the text of a graph, `Graph.description?` — the text that shows it.
-/

/-- A node with all that hangs off it, or the mention of a node that has been written before. -/
inductive Outline where
  | mention (node : Node)
  | expansion (node : Node) (entries : List (Option String × Outline))
deriving Repr

/-- Maps the elements of a list from left to right, handing a state along. -/
def threadMap {α β σ : Type} (f : σ → α → β × σ) : σ → List α → List β × σ
  | s, [] => ([], s)
  | s, a :: rest =>
    let (b, s) := f s a
    let (bs, s) := threadMap f s rest
    (b :: bs, s)

namespace Graph

/-- The outline at a node, given the nodes already written, and those written after it.  The first
argument bounds the depth; it is enough if it exceeds the number of nodes still to be written. -/
def expand (g : Graph) : (fuel : Nat) → (written : List Node) → Node → Outline × List Node
  | 0, written, n => (.mention n, written)
  | fuel + 1, written, n =>
    -- a node that has been written is only mentioned again
    if n ∈ written then (.mention n, written)
    else
      -- what one dependent writes is known to those after it
      let (entries, written) := threadMap
        (fun written link =>
          let (item, written) := g.expand fuel written link.2
          ((link.1, item), written))
        (n :: written) (g.dependents n)
      (.expansion n entries, written)

/-- The outlines at those of the given nodes that have not been written yet. -/
def expandNew (g : Graph) : (written : List Node) → List Node → List Outline × List Node
  | written, [] => ([], written)
  | written, n :: rest =>
    if n ∈ written then g.expandNew written rest
    else
      let (outline, written) := g.expand (g.size + 1) written n
      let (more, written) := g.expandNew written rest
      (outline :: more, written)

/-- The outlines of a graph. -/
def outlines (g : Graph) : List Outline := (g.expandNew [] (g.roots ++ g.nodes)).1

/-- How a node is written, with its index if that is asked for. -/
def labelWith (g : Graph) (n : Node) (indexed : Bool) : List Char :=
  (g.word n).toList ++
    (match g.attribute? n "tag" with
    | some tag => if tag.isEmpty then [] else '/' :: tag.toList
    | none => []) ++
    if indexed then '-' :: n.text.toList else []

/-- How a node is written where it is expanded. -/
def label (g : Graph) (n : Node) : List Char := g.labelWith n (1 < g.inDegree n)

end Graph

/-- The label of an edge, also where there is none. -/
def edgeLabel : Option String → List Char
  | some label => label.toList
  | none => "None".toList

mutual

/-- The text of an outline. -/
def Outline.render (g : Graph) : Outline → List Char
  | .mention n => g.labelWith n true
  | .expansion n [] => g.label n
  | .expansion n entries => '[' :: g.label n ++ renderEntries g entries ++ [']']

/-- The text of entries, with a blank before each. -/
def renderEntries (g : Graph) : List (Option String × Outline) → List Char
  | [] => []
  | (label, item) :: rest => ' ' :: edgeLabel label ++ ':' :: item.render g ++ renderEntries g rest

end

namespace Graph

/-- The bracket notation of a graph, or the declared root that is none of its nodes. -/
def bracketed? (g : Graph) : Except Node String :=
  match g.roots.find? fun n => n ∉ g with
  | some n => .error n
  | none => .ok (String.ofList ([' '].intercalate (g.outlines.map (Outline.render g))))

/-- The text that shows a graph. -/
def description? (g : Graph) : Except Node String := do
  let text ← g.bracketed?
  return "SemanticGraph(" ++ Text.quoted text ++ ")"

end Graph

end DependencyQuery
