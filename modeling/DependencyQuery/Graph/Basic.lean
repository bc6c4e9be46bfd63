import DependencyQuery.Datum.Basic

namespace DependencyQuery

/-!
# Dependency graphs

A graph has nodes with attributes, and labelled edges from governors to what depends on them.

* `Node`, `Edge`, `Graph` — the types; a graph lists its nodes without repetition, in the order in
  which they were first mentioned, and holds both ends of every edge;
* `addNode?`, `addEdge?`, `setRoots` — how a graph is built, if words and labels can be kept under their
  keys; `addEdge` — an edge that carries its label, `addIdentified` — one that only goes by it;
* `dependents`, `governors` — the two views of the edges, edge by edge but grouped by neighbour, with
  neighbours in the order of their first edge;
* `attribute?`, `word`, `roots`, `nodeByWord?` — what can be asked about a graph.
-/

/-- What identifies a node. -/
inductive Node where
  | index (n : Int)
  | name (s : String)
deriving DecidableEq, Repr

/-- A node as text. -/
def Node.text : Node → String
  | index n => toString n
  | name s => s

/-- The node that a datum identifies: numbers are indices, and a truth value counts as a number. -/
def Node.ofDatum? (d : Datum) : Option Node :=
  match d.key? with
  | some (.int n) => some (index n)
  | some (.text s) => some (name s)
  | _ => none

/-- An edge; its label may be missing. -/
structure Edge where
  governor : Node
  dependent : Node
  label : Option String
deriving DecidableEq, Repr

/-- Attributes by key, the latest first; an attribute may be there without a value. -/
abbrev Attributes := List (String × Option String)

/-- A dependency graph. -/
structure Graph where
  /-- The nodes and their attributes, in the order in which they were first mentioned. -/
  entries : List (Node × Attributes) := []
  /-- The edges, in the order in which they were added. -/
  edges : List Edge := []
  /-- The nodes that have been declared roots. -/
  declared : List Node := []
  /-- The key of the attribute that holds the word. -/
  wordKey : String := "word"
  /-- The key of the attribute that holds the label of an edge. -/
  labelKey : String := "relation"
  /-- Whether two nodes can have more than one edge between them. -/
  parallel : Bool := true
  /-- The edges that go by a label which they do not carry: both ends, and the label. -/
  identified : List (Node × Node × String) := []
  nodup : (entries.map Prod.fst).Nodup := by simp
  closed : ∀ e ∈ edges, e.governor ∈ entries.map Prod.fst ∧ e.dependent ∈ entries.map Prod.fst := by
    simp

namespace Graph

/-- The nodes, in the order in which they were first mentioned. -/
def nodes (g : Graph) : List Node := g.entries.map Prod.fst

/-- A node is in a graph if it is among its nodes. -/
instance : Membership Node Graph := ⟨fun g n => n ∈ g.nodes⟩

instance (n : Node) (g : Graph) : Decidable (n ∈ g) := inferInstanceAs (Decidable (n ∈ g.nodes))

/-- The number of nodes. -/
def size (g : Graph) : Nat := g.entries.length

/-- Membership is that of the entries. -/
theorem mem_def {n : Node} {g : Graph} : n ∈ g ↔ n ∈ g.entries.map Prod.fst := Iff.rfl

/-! ### Building a graph -/

/-- The graph without nodes. -/
def empty (wordKey : String) (parallel : Bool) (labelKey : String := "relation") : Graph where
  entries := []
  edges := []
  wordKey := wordKey
  labelKey := labelKey
  parallel := parallel
  nodup := List.nodup_nil
  closed := fun _ h => absurd h List.not_mem_nil

/-- The graph with the node in it, without attributes if it is new. -/
def mention (g : Graph) (n : Node) : Graph :=
  if h : n ∈ g then g else
    { g with
      -- a new node stands last and has no attributes yet
      entries := g.entries ++ [(n, [])]
      -- it is none of those that are there, so none stands twice
      nodup := by
        rw [List.map_append, List.nodup_append]
        refine ⟨g.nodup, by simp, ?_⟩
        intro a ha b hb hab
        simp only [List.map_cons, List.map_nil, List.mem_singleton] at hb
        exact h (mem_def.2 (hb ▸ hab ▸ ha))
      -- the edges are those of before, and their ends are still nodes
      closed := by
        intro e he
        rw [List.map_append]
        exact ⟨List.mem_append_left _ (g.closed e he).1, List.mem_append_left _ (g.closed e he).2⟩ }

/-- The graph with further attributes at a node; the latest value of an attribute counts. -/
def describe (g : Graph) (n : Node) (attributes : Attributes) : Graph :=
  let put := fun entry : Node × Attributes =>
    -- what is put in front is found first, and so takes the place of an earlier value
    if entry.1 = n then (entry.1, attributes ++ entry.2) else entry
  have same : (g.entries.map put).map Prod.fst = g.entries.map Prod.fst := by
    rw [List.map_map]
    refine List.map_congr_left fun entry _ => ?_
    simp only [put, Function.comp]
    split <;> rfl
  { g with
    entries := g.entries.map put
    nodup := by rw [same]; exact g.nodup
    closed := by rw [same]; exact g.closed }

/-- The keys of attributes that a caller may not give, as they stand for the node and its word. -/
def ownKeys : List String := ["self", "index", "word"]

/-- The keys under which nothing can be kept. -/
def reservedKeys : List String := ["self", "node_for_adding"]

/-- Whether a node's word and its further attributes, the value among them, can be kept side by
side. -/
def keepsApart (g : Graph) (attributes : Attributes) : Bool :=
  let keys := attributes.map Prod.fst
  !keys.any ownKeys.contains && !(g.wordKey :: keys).any reservedKeys.contains &&
    !("value" :: keys).contains g.wordKey

/-- Adds a node with its word and further attributes, or describes it further.  Its value is the
word unless another one is given.  There is no such graph if the word's key is also that of another
attribute. -/
def addNode? (g : Graph) (n : Node) (word : String) (attributes : Attributes) : Option Graph :=
  if g.keepsApart attributes then
    let value := (attributes.lookup "value").getD (some word)
    some ((g.mention n).describe n ((g.wordKey, some word) :: ("value", value) :: attributes))
  else none

/-- Mentioning a node adds that node and no other. -/
theorem mem_mention {g : Graph} {n m : Node} : m ∈ g.mention n ↔ m ∈ g ∨ m = n := by
  unfold mention
  split
  · next h => exact ⟨Or.inl, fun k => k.elim id fun e => e ▸ h⟩
  · simp [mem_def]

/-- Replaces the label of the edge between two nodes, or adds one if there is none. -/
def relabel (edges : List Edge) (e : Edge) : List Edge :=
  if edges.any fun f => f.governor = e.governor && f.dependent = e.dependent then
    edges.map fun f => if f.governor = e.governor ∧ f.dependent = e.dependent then e else f
  else edges ++ [e]

/-- Relabelling an edge brings in no edge but the given one. -/
theorem mem_relabel {edges : List Edge} {e f : Edge} (h : f ∈ relabel edges e) :
    f ∈ edges ∨ f = e := by
  unfold relabel at h
  split at h
  · obtain ⟨d, hd, rfl⟩ := List.mem_map.1 h
    split
    · exact Or.inr rfl
    · exact Or.inl hd
  · simpa using h

/-- Adds an edge and whichever of its two nodes are new, the governor first. -/
def addEdge (g : Graph) (governor dependent : Node) (label : Option String) : Graph :=
  let h := (g.mention governor).mention dependent
  let e : Edge := ⟨governor, dependent, label⟩
  { h with
    -- a graph without parallel edges has one edge for each pair, and keeps the last label
    edges := if g.parallel then g.edges ++ [e] else relabel g.edges e
    closed := by
      -- the ends of the new edge are nodes from here on
      intro f hf
      have hf : f ∈ g.edges ∨ f = e := by
        split at hf
        · simpa using hf
        · exact mem_relabel hf
      rcases hf with hf | rfl
      · exact ⟨mem_mention.2 (.inl (mem_mention.2 (.inl (g.closed f hf).1))),
          mem_mention.2 (.inl (mem_mention.2 (.inl (g.closed f hf).2)))⟩
      · exact ⟨mem_mention.2 (.inl (mem_mention.2 (.inr rfl))), mem_mention.2 (.inr rfl)⟩ }

/-- The key under which a label says which of several edges between two nodes is meant. -/
def identityKey : String := "key"

/-- Adds an edge that goes by its label, unless there is one already between the two nodes.  The edge does
not carry the label. -/
def addIdentified (g : Graph) (governor dependent : Node) : (label : Option String) → Graph
  | none => g.addEdge governor dependent none
  | some label =>
    if (governor, dependent, label) ∈ g.identified then g
    else
      { g.addEdge governor dependent none with
        identified := (governor, dependent, label) :: g.identified }

/-- The keys under which no label can be kept, as they stand for the ends of an edge. -/
def reservedLabelKeys (parallel : Bool) : List String :=
  if parallel then ["self", "u_for_edge", "v_for_edge"] else ["self", "u_of_edge", "v_of_edge"]

/-- Adds an edge with its label, and whichever of its two nodes are new.  There is no such graph if labels
cannot be kept under their key. -/
def addEdge? (g : Graph) (governor dependent : Node) (label : Option String) : Option Graph :=
  if (reservedLabelKeys g.parallel).contains g.labelKey then none
  else if g.parallel && g.labelKey == identityKey then some (g.addIdentified governor dependent label)
  else some (g.addEdge governor dependent label)

/-- Declares the roots. -/
def setRoots (g : Graph) (roots : List Node) : Graph := { g with declared := roots }

/-! ### The two views of the edges -/

/-- Labels and neighbours grouped by neighbour, in the order in which each neighbour first occurs. -/
def groupByNeighbour (links : List (Option String × Node)) : List (Option String × Node) :=
  (links.map Prod.snd).eraseDups.flatMap fun n => links.filter fun link => link.2 = n

/-- The labels of the edges out of a node, with the nodes that depend on it. -/
def dependents (g : Graph) (n : Node) : List (Option String × Node) :=
  groupByNeighbour ((g.edges.filter fun e => e.governor = n).map fun e => (e.label, e.dependent))

/-- The labels of the edges into a node, with the nodes that govern it. -/
def governors (g : Graph) (n : Node) : List (Option String × Node) :=
  groupByNeighbour ((g.edges.filter fun e => e.dependent = n).map fun e => (e.label, e.governor))

/-- The number of edges into a node. -/
def inDegree (g : Graph) (n : Node) : Nat := (g.edges.filter fun e => e.dependent = n).length

/-! ### Questions about a graph -/

/-- The value of an attribute. -/
def attribute? (g : Graph) (n : Node) (key : String) : Option String :=
  ((g.entries.lookup n).bind fun attributes => attributes.lookup key).join

/-- The word of a node; a node without one goes by what identifies it. -/
def word (g : Graph) (n : Node) : String := (g.attribute? n g.wordKey).getD n.text

/-- The declared roots, or if there are none the nodes that nothing governs. -/
def roots (g : Graph) : List Node :=
  if g.declared.isEmpty then g.nodes.filter fun n => g.inDegree n = 0 else g.declared

/-- The first node with the given word. -/
def nodeByWord? (g : Graph) (word : String) : Option Node := g.nodes.find? fun n => g.word n = word

end Graph

end DependencyQuery
