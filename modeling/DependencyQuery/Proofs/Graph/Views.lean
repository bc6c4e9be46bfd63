import DependencyQuery.Proofs.Settings.Alike
import Mathlib.Data.List.Induction
import Mathlib.Logic.Function.Basic

namespace DependencyQuery.Graph

open scoped List

/-!
# The two views of a graph that is built call by call

A graph shows its edges from below and from above.  However it has been built, both views show the same edges.

* `Call`, `after`, `built` — the calls that build a graph, what one of them leaves of a graph, and the graph that
  some of them make of an empty one;
* `Call.edges`, `Call.mentions` — the edge that a call adds, if it adds one, and the nodes that it mentions;
  `Call.accepted` — whether it is not refused;
* `view` — the edges that all nodes together show in one direction, `view_perm` — which are those of the graph;
* `Neighbours`, `Adjacency` — for each direction a map of its own from nodes to their neighbours, to which an edge
  adds one label under one neighbour; `adjacency_eq` — what the map holds after some calls;
* `Advances` — what a call makes of a graph, `advances_after`;
* `Tallies` — what is known of a graph after some calls, `Tallies.after` — and after one more;
* `built_filter_accepted` — calls that are refused leave no trace;
* `Follows` — what a graph shows of the calls that have built it, `follows_built` — which holds after any calls.
-/

/-! ### Calls -/

/-- A call that builds a graph. -/
inductive Call where
  | node (n : Node) (word : String) (attributes : Attributes)
  | edge (governor dependent : Node) (label : Option String)
  | roots (nodes : List Node)

/-- The graph that a call leads to, unless it is refused. -/
def call? (g : Graph) : Call → Option Graph
  | .node n word attributes => g.addNode? n word attributes
  | .edge governor dependent label => g.addEdge? governor dependent label
  | .roots nodes => some (g.setRoots nodes)

/-- The graph after a call; one that is refused leaves it as it is. -/
def after (g : Graph) (c : Call) : Graph := (g.call? c).getD g

/-- The graph that calls make of the empty one. -/
def built (key : String) (calls : List Call) : Graph := calls.foldl after (empty key true)

/-- A last call comes after what the others have built. -/
theorem built_concat (key : String) (calls : List Call) (c : Call) :
    built key (calls ++ [c]) = (built key calls).after c :=
  List.foldl_concat ..

namespace Call

/-- The edges that a call adds, one or none. -/
def edges : Call → List Edge
  | .node _ _ _ => []
  | .edge governor dependent label => [⟨governor, dependent, label⟩]
  | .roots _ => []

/-- Whether a call is not refused, where words are kept under a key: a node is, if its word and its attributes
cannot be kept side by side. -/
def accepted (key : String) : Call → Bool
  | .node _ _ attributes => (empty key true).keepsApart attributes
  | .edge _ _ _ => true
  | .roots _ => true

/-- The nodes that a call mentions, unless it is refused. -/
def mentions (key : String) (c : Call) : List Node :=
  match c with
  | .node n _ _ => if c.accepted key then [n] else []
  | .edge governor dependent _ => [governor, dependent]
  | .roots _ => []

end Call

/-! ### What the views show -/

variable {g : Graph} {calls : List Call} {key : String}

/-- The edge that a link in a direction stands for. -/
def edgeAlong (direction : Direction) (n : Node) (link : Arrival) : Edge :=
  match direction with
  | .up => ⟨link.2, n, link.1⟩
  | .down => ⟨n, link.2, link.1⟩

/-- The edges that the nodes of a graph show in a direction, one node after the other. -/
def view (g : Graph) (direction : Direction) : List Edge :=
  g.nodes.flatMap fun n => (g.step direction n).map (edgeAlong direction n)

/-- The links that edges show at a node in a direction. -/
def linksAt (edges : List Edge) (direction : Direction) (n : Node) : List Arrival :=
  (edges.filter fun e => Edge.near e direction = n).map fun e => (e.label, Edge.far e direction)

/-- What walks go on by is what the edges at the node lead to, grouped by where they lead. -/
theorem step_eq (g : Graph) (direction : Direction) (n : Node) :
    g.step direction n = groupByNeighbour (linksAt g.edges direction n) := by
  cases direction <;> rfl

/-- An edge is known from the end that it is followed from and the arrival at the other one. -/
theorem edgeAlong_near (direction : Direction) (e : Edge) :
    edgeAlong direction (Edge.near e direction) (e.label, Edge.far e direction) = e := by
  cases direction <;> rfl

/-- The end that an edge is followed from is a node. -/
theorem near_mem (direction : Direction) {e : Edge} (he : e ∈ g.edges) : Edge.near e direction ∈ g.nodes := by
  cases direction with
  | up => exact (g.closed e he).2
  | down => exact (g.closed e he).1

/-- A view shows the edges of the graph, each as often as it is there. -/
theorem view_perm (g : Graph) (direction : Direction) : g.view direction ~ g.edges := by
  -- the links at a node are its edges, put into groups
  have hnode : ∀ n, (g.step direction n).map (edgeAlong direction n) ~
      g.edges.filter fun e => Edge.near e direction = n := by
    intro n
    have hlinks : (linksAt g.edges direction n).map (edgeAlong direction n) =
        g.edges.filter fun e => Edge.near e direction = n := by
      rw [linksAt, List.map_map]
      conv_rhs => rw [← List.map_id (g.edges.filter _)]
      refine List.map_congr_left fun e he => ?_
      obtain ⟨-, hn⟩ := List.mem_filter.1 he
      rw [decide_eq_true_eq] at hn
      subst hn
      exact edgeAlong_near direction e
    rw [step_eq, ← hlinks]
    exact (groupByNeighbour_perm _).map _
  calc g.view direction
      ~ g.nodes.flatMap fun n => g.edges.filter fun e => Edge.near e direction = n :=
        (List.Perm.refl _).flatMap fun n _ => hnode n
    _ ~ g.edges := flatMap_filter_perm g.nodup fun e he => near_mem direction he

/-- Between two nodes, a view shows the labels in the order of the edges. -/
theorem filter_step (g : Graph) (direction : Direction) (m n : Node) :
    (g.step direction m).filter (fun link => link.2 = n) =
      (g.edges.filter fun e => Edge.near e direction = m ∧ Edge.far e direction = n).map
        fun e => (e.label, n) := by
  have hboth : (g.edges.filter fun e => Edge.near e direction = m).filter
        ((fun link : Arrival => decide (link.2 = n)) ∘ fun e => (e.label, Edge.far e direction)) =
      g.edges.filter fun e => Edge.near e direction = m ∧ Edge.far e direction = n := by
    rw [List.filter_filter]
    refine List.filter_congr fun e _ => ?_
    rw [Bool.decide_and, Bool.and_comm]
    rfl
  rw [step_eq, filter_groupByNeighbour, linksAt, List.filter_map, hboth]
  refine List.map_congr_left fun e he => ?_
  obtain ⟨-, -, hfar⟩ : e ∈ g.edges ∧ Edge.near e direction = m ∧ Edge.far e direction = n := by
    simpa using he
  rw [hfar]

/-! ### One map for each view -/

/-- Neighbours in the order in which they were met first, each with the labels of the edges to it. -/
abbrev Neighbours := List (Node × List (Option String))

/-- Puts a label after those under a neighbour; a new neighbour comes after the others. -/
def putLabel (neighbours : Neighbours) (n : Node) (label : Option String) : Neighbours :=
  if n ∈ neighbours.map Prod.fst then
    neighbours.map fun entry => if entry.1 = n then (n, entry.2 ++ [label]) else entry
  else neighbours ++ [(n, [label])]

/-- Labels with the neighbours that they stand under. -/
def unfolded (neighbours : Neighbours) : List Arrival :=
  neighbours.flatMap fun entry => entry.2.map fun label => (label, entry.1)

/-- The neighbours of the nodes, in a map for each direction. -/
abbrev Adjacency := Direction → Node → Neighbours

/-- The maps after a call: an edge adds its label once in each of them. -/
def Adjacency.after (a : Adjacency) : Call → Adjacency
  | .node _ _ _ => a
  | .edge governor dependent label => fun direction =>
    let e : Edge := ⟨governor, dependent, label⟩
    let n := Edge.near e direction
    Function.update (a direction) n (putLabel (a direction n) (Edge.far e direction) label)
  | .roots _ => a

/-- The maps that calls make of empty ones. -/
def adjacency (calls : List Call) : Adjacency := calls.foldl Adjacency.after fun _ _ => []

/-- Links under their neighbours. -/
def neighbours (links : List Arrival) : Neighbours :=
  (targets links).map fun n => (n, (links.filter fun link => link.2 = n).map Prod.fst)

/-- The neighbours are the targets of the links. -/
theorem map_fst_neighbours (links : List Arrival) : (neighbours links).map Prod.fst = targets links := by
  rw [neighbours, List.map_map]
  exact List.map_id _

/-- Labels under their neighbours are the links grouped by neighbour. -/
theorem unfolded_neighbours (links : List Arrival) :
    unfolded (neighbours links) = groupByNeighbour links := by
  rw [unfolded, neighbours, List.flatMap_map]
  refine List.flatMap_congr fun n _ => ?_
  rw [List.map_map]
  conv_rhs => rw [← List.map_id (links.filter _)]
  refine List.map_congr_left fun link hlink => ?_
  have hn : link.2 = n := by simpa using (List.mem_filter.1 hlink).2
  rw [← hn]
  rfl

/-- A further link puts its label under its neighbour. -/
theorem neighbours_concat (links : List Arrival) (label : Option String) (n : Node) :
    neighbours (links ++ [(label, n)]) = putLabel (neighbours links) n label := by
  have hother : ∀ m, m ≠ n → (links ++ [(label, n)]).filter (fun link => link.2 = m) =
      links.filter fun link => link.2 = m := by
    intro m hm
    rw [List.filter_append, List.filter_cons_of_neg (by simpa using hm.symm), List.filter_nil,
      List.append_nil]
  have hown : (links ++ [(label, n)]).filter (fun link => link.2 = n) =
      (links.filter fun link => link.2 = n) ++ [(label, n)] := by
    rw [List.filter_append, List.filter_cons_of_pos (by simp), List.filter_nil]
  rw [putLabel, map_fst_neighbours]
  by_cases hn : n ∈ targets links
  · rw [if_pos hn, neighbours, neighbours, targets_append, targets_singleton,
      List.filter_cons_of_neg (by simpa using hn), List.filter_nil, List.append_nil, List.map_map]
    refine List.map_congr_left fun m _ => ?_
    by_cases hm : m = n
    · subst hm
      rw [hown, List.map_append]
      exact (if_pos rfl).symm
    · rw [hother m hm]
      exact (if_neg hm).symm
  · -- the neighbour is new, so that no label stands under it yet
    have hnone : (links.filter fun link => link.2 = n) = [] :=
      List.filter_eq_nil_iff.2 fun link hlink => by
        have hne : link.2 ≠ n := by
          rintro rfl
          exact hn (mem_targets.2 ⟨link, hlink, rfl⟩)
        simpa using hne
    rw [if_neg hn, neighbours, neighbours, targets_append, targets_singleton,
      List.filter_cons_of_pos (by simpa using hn), List.filter_nil, List.map_append, List.map_singleton,
      hown, hnone]
    congr 1
    refine List.map_congr_left fun m hm => ?_
    rw [hother m (ne_of_mem_of_not_mem hm hn)]

/-- A last edge comes last among the links at the node that it is followed from, and at no other. -/
theorem linksAt_concat (edges : List Edge) (e : Edge) (direction : Direction) (n : Node) :
    linksAt (edges ++ [e]) direction n = linksAt edges direction n ++
      if Edge.near e direction = n then [(e.label, Edge.far e direction)] else [] := by
  rw [linksAt, List.filter_append, List.map_append]
  congr 1
  by_cases hn : Edge.near e direction = n
  · rw [if_pos hn, List.filter_cons_of_pos (by simpa using hn)]
    rfl
  · rw [if_neg hn, List.filter_cons_of_neg (by simpa using hn)]
    rfl

/-- Each map holds the links that the edges of the calls show in its direction. -/
theorem adjacency_eq (calls : List Call) (direction : Direction) (n : Node) :
    adjacency calls direction n = neighbours (linksAt (calls.flatMap Call.edges) direction n) := by
  induction calls using List.reverseRecOn generalizing n with
  | nil => rfl
  | append_singleton calls c ih =>
    rw [adjacency, List.foldl_concat, ← adjacency, List.flatMap_append, List.flatMap_singleton]
    -- only an edge changes the maps, and in each direction at one node only
    cases c with
    | node m word attributes =>
      rw [Call.edges, List.append_nil]
      exact ih n
    | roots nodes =>
      rw [Call.edges, List.append_nil]
      exact ih n
    | edge governor dependent label =>
      rw [Call.edges, linksAt_concat]
      by_cases hn : Edge.near ⟨governor, dependent, label⟩ direction = n
      · subst hn
        rw [if_pos rfl, neighbours_concat, ← ih]
        exact Function.update_self ..
      · rw [if_neg hn, List.append_nil, ← ih]
        exact Function.update_of_ne (Ne.symm hn) ..

/-! ### Call after call -/

/-- Whether a word and attributes can be kept side by side depends on the key of the word alone. -/
theorem keepsApart_congr {g h : Graph} (hkey : g.wordKey = h.wordKey) : g.keepsApart = h.keepsApart := by
  funext attributes
  rw [keepsApart, keepsApart, hkey]

/-- A node is refused just where the attributes would hide those of the graph. -/
theorem accepted_node (g : Graph) (n : Node) (word : String) (attributes : Attributes) :
    Call.accepted g.wordKey (.node n word attributes) = g.keepsApart attributes :=
  congrFun (keepsApart_congr rfl) attributes

/-- Where labels are kept under their usual key, whether a call is refused does not depend on the calls before. -/
theorem isSome_call? (hlabel : g.labelKey = "relation") (c : Call) :
    (g.call? c).isSome = c.accepted g.wordKey := by
  cases c with
  | node n word attributes =>
    rw [accepted_node, call?, addNode?]
    split
    · next hkeeps => exact hkeeps.symm
    · next hkeeps => exact (Bool.eq_false_iff.2 hkeeps).symm
  | edge governor dependent label => rw [call?, addEdge?_of_labelKey hlabel]; rfl
  | roots nodes => rfl

/-- A call that is refused leaves the graph as it is. -/
theorem after_of_refused {c : Call} (h : g.call? c = none) : g.after c = g := by
  rw [after, h, Option.getD_none]

/-- What a call makes of a graph. -/
structure Advances (g : Graph) (c : Call) (h : Graph) : Prop where
  wordKey : h.wordKey = g.wordKey
  labelKey : h.labelKey = g.labelKey
  parallel : h.parallel = g.parallel
  edges : h.edges = g.edges ++ c.edges
  nodes : h.nodes = ((c.mentions g.wordKey).foldl mention g).nodes
  refused : c.accepted g.wordKey = false → h = g

/-- Where labels are kept under their usual key, a call adds its edge and the nodes that it mentions. -/
theorem advances_after (hlabel : g.labelKey = "relation") (hparallel : g.parallel = true) (c : Call) :
    Advances g c (g.after c) := by
  cases c with
  | node n word attributes =>
    have hkept := accepted_node g n word attributes
    by_cases hkeeps : g.keepsApart attributes = true
    · obtain ⟨added, hadded⟩ : ∃ added, g.addNode? n word attributes = some added := ⟨_, if_pos hkeeps⟩
      have hnames := names_of_addNode? hadded
      have hafter : g.after (.node n word attributes) = added := by
        rw [after, call?, hadded, Option.getD_some]
      have hmentions : Call.mentions g.wordKey (.node n word attributes) = [n] := if_pos (hkept.trans hkeeps)
      rw [hafter]
      exact ⟨hnames.wordKey, hnames.labelKey, hnames.parallel, by rw [hnames.edges, Call.edges, List.append_nil],
        by rw [hnames.nodes, hmentions]; rfl, fun h => by rw [hkept, hkeeps] at h; cases h⟩
    · -- the call is refused, and mentions nothing
      have hafter : g.after (.node n word attributes) = g := after_of_refused (if_neg hkeeps)
      have hmentions : Call.mentions g.wordKey (.node n word attributes) = [] :=
        if_neg fun h => hkeeps (hkept ▸ h)
      rw [hafter]
      exact ⟨rfl, rfl, rfl, by rw [Call.edges, List.append_nil], by rw [hmentions]; rfl, fun _ => rfl⟩
  | edge governor dependent label =>
    have hafter : g.after (.edge governor dependent label) = g.addEdge governor dependent label := by
      rw [after, call?, addEdge?_of_labelKey hlabel, Option.getD_some]
    rw [hafter]
    exact ⟨wordKey_addEdge .., labelKey_addEdge .., parallel_addEdge .., edges_addEdge hparallel .., rfl,
      fun h => by cases h⟩
  | roots nodes => exact ⟨rfl, rfl, rfl, (List.append_nil _).symm, rfl, fun h => by cases h⟩

/-- Nodes that are mentioned after others join them if they are new. -/
theorem nodes_foldl_mention {mentioned : List Node} (h : g.nodes = mentioned.eraseDups) (more : List Node) :
    (more.foldl mention g).nodes = (mentioned ++ more).eraseDups := by
  induction more generalizing g mentioned with
  | nil => rw [List.append_nil]; exact h
  | cons n more ih =>
    have hmem : n ∈ g ↔ n ∈ mentioned := by
      show n ∈ g.nodes ↔ n ∈ mentioned
      rw [h, List.mem_eraseDups]
    have hfirst : (g.mention n).nodes = (mentioned ++ [n]).eraseDups := by
      rw [nodes_mention, h]
      by_cases hn : n ∈ mentioned
      · rw [if_pos (hmem.2 hn), eraseDups_append_of_subset (by simpa using hn)]
      · rw [if_neg (mt hmem.1 hn), List.eraseDups_append,
          show [n].removeAll mentioned = [n] by simp [List.removeAll, hn]]
        rfl
    rw [List.foldl_cons, ih hfirst, List.append_assoc]
    rfl

/-- What is known of a graph after some calls. -/
structure Tallies (key : String) (calls : List Call) (g : Graph) : Prop where
  wordKey : g.wordKey = key
  labelKey : g.labelKey = "relation"
  parallel : g.parallel = true
  edges : g.edges = calls.flatMap Call.edges
  nodes : g.nodes = (calls.flatMap (Call.mentions key)).eraseDups

/-- A further call adds its edge to those of the others, and the nodes that it mentions if they are new. -/
theorem Tallies.after (h : Tallies key calls g) (c : Call) : Tallies key (calls ++ [c]) (g.after c) := by
  have hadvances := advances_after h.labelKey h.parallel c
  refine ⟨?_, ?_, ?_, ?_, ?_⟩
  · rw [hadvances.wordKey, h.wordKey]
  · rw [hadvances.labelKey, h.labelKey]
  · rw [hadvances.parallel, h.parallel]
  · rw [hadvances.edges, h.edges, List.flatMap_append, List.flatMap_singleton]
  · rw [hadvances.nodes, h.wordKey, nodes_foldl_mention h.nodes, List.flatMap_append, List.flatMap_singleton]

/-- What calls build tallies with them. -/
theorem tallies_built (key : String) (calls : List Call) : Tallies key calls (built key calls) := by
  -- on runs from their last call, as what is known of a graph is about all the calls before
  induction calls using List.reverseRecOn with
  | nil => exact ⟨rfl, rfl, rfl, rfl, rfl⟩
  | append_singleton calls c ih =>
    rw [built_concat]
    exact ih.after c

/-- Without the calls that are refused, the others make the same graph. -/
theorem built_filter_accepted (key : String) (calls : List Call) :
    built key (calls.filter (Call.accepted key)) = built key calls := by
  induction calls using List.reverseRecOn with
  | nil => rfl
  | append_singleton calls c ih =>
    have h := tallies_built key calls
    rw [List.filter_append]
    by_cases hc : c.accepted key = true
    · rw [List.filter_cons_of_pos hc, List.filter_nil, built_concat, built_concat, ih]
    · -- the words of the graph so far are kept under the same key, so that it refuses the call as well
      have hrefused : (built key calls).after c = built key calls :=
        (advances_after h.labelKey h.parallel c).refused (by simpa [h.wordKey] using hc)
      rw [List.filter_cons_of_neg hc, List.filter_nil, List.append_nil, built_concat, ih, hrefused]

/-- What a graph shows of the calls that have built it, where the words of its nodes are kept under a key. -/
structure Follows (key : String) (calls : List Call) (g : Graph) : Prop where
  /-- Either view shows the edges of the calls, each as often as it has been added. -/
  edges : ∀ direction, g.view direction ~ calls.flatMap Call.edges
  /-- From one node to another, either view shows the labels in the order of the calls. -/
  labels : ∀ direction m n, (g.step direction m).filter (fun link => link.2 = n) =
    ((calls.flatMap Call.edges).filter fun e => Edge.near e direction = m ∧ Edge.far e direction = n).map
      fun e => (e.label, n)
  /-- Either view is that of a map of its own, to which the calls have added one edge after the other. -/
  adjacency : ∀ direction n, g.step direction n = unfolded (adjacency calls direction n)
  /-- The nodes are those that the calls mention, each once and where it was mentioned first. -/
  nodes : g.nodes = (calls.flatMap (Call.mentions key)).eraseDups
  /-- A node that is added again keeps its place, and with all the others its edges. -/
  again : ∀ n word attributes, n ∈ g → (g.after (.node n word attributes)).nodes = g.nodes ∧
    (g.after (.node n word attributes)).step = g.step
  /-- Which calls are refused does not depend on the calls before. -/
  accepted : ∀ c, (g.call? c).isSome = c.accepted key
  /-- A node that cannot be added leaves the graph as it is. -/
  refused : ∀ n word attributes, g.addNode? n word attributes = none → g.after (.node n word attributes) = g
  /-- Calls that were refused on the way have left no trace. -/
  traceless : g = built key (calls.filter (Call.accepted key))

/-- **The two views never drift apart.**  Whatever calls build a graph from the empty one, in whichever order,
both of its views show the edges that have been added, and its nodes are those that have been mentioned. -/
theorem follows_built (key : String) (calls : List Call) : Follows key calls (built key calls) := by
  have h := tallies_built key calls
  refine ⟨fun direction => ?_, fun direction m n => ?_, fun direction n => ?_, h.nodes, ?_, fun c => ?_,
    fun _ _ _ hnone => after_of_refused hnone, (built_filter_accepted key calls).symm⟩
  · rw [← h.edges]
    exact view_perm _ direction
  · rw [filter_step, h.edges]
  · rw [step_eq, h.edges, adjacency_eq, unfolded_neighbours]
  · intro n word attributes hn
    have hadvances := advances_after h.labelKey h.parallel (.node n word attributes)
    refine ⟨?_, step_congr (hadvances.edges.trans (List.append_nil _))⟩
    rw [hadvances.nodes, Call.mentions]
    -- the node is mentioned again, or not at all if it is refused
    split
    · rw [List.foldl_cons, List.foldl_nil, mention_of_mem hn]
    · rw [List.foldl_nil]
  · rw [isSome_call? h.labelKey, h.wordKey]

/-- Calls in disorder: an edge before its ends, a loop, a second edge between two nodes, a node that is added
again, and one whose attributes claim the key of its word. -/
def disorder : List Call :=
  [.edge (.index 2) (.index 1) (some "x"), .node (.index 3) "c" [], .edge (.index 2) (.index 2) (some "y"),
    .node (.index 4) "d" [("word", none)], .edge (.index 2) (.index 1) (some "z"), .node (.index 2) "b" []]

example : (built "word" disorder).nodes = [.index 2, .index 1, .index 3] ∧
    (built "word" disorder).step .down (.index 2) =
      [(some "x", .index 1), (some "z", .index 1), (some "y", .index 2)] ∧
    (built "word" disorder).step .up (.index 2) = [(some "y", .index 2)] := by
  decide

end DependencyQuery.Graph
