import DependencyQuery.Graph.Data
import DependencyQuery.Proofs.Steps
import DependencyQuery.Proofs.Walk.Targets

namespace DependencyQuery.Graph

open Steps (bind_eq_ok foldlM_related)

/-!
# Graphs that are built alike

Two graphs may keep words and labels under keys of their own.  Where the same is put into both, they come
out alike.

* `TellsLabels` — two keys under which labels are kept in the same way;
* `Keeps` — a graph that keeps words and labels as settings say;
* `Alike` — graphs that differ at most in the attributes under their word keys and, if labels are not kept
  in the same way, in their labels and in how many edges there are between two nodes;
* `Names` — what becomes of a graph when a node is added, `names_of_addNode?`;
* `AddsEdge` — the three ways in which a labelled edge is added, `addsEdge_of_addEdge?` — there are no
  others;
* `Edge.across`, `targets_step_append` — to which node an edge leads, `AddsEdge.targets_step` — however it
  is added; `AddsEdge.edges_eq` — it is added in the same way where labels are kept in the same way;
* `Alike.addNode?`, `Alike.addEdge?` — graphs stay alike when a node or an edge is added to both;
* `alike_of_ofData` — and so the graphs that data describe are alike under any two settings.
-/

/-- Whether labels are kept in the same way under two keys: either the keys are the same, or labels are
attributes under both of them. -/
def TellsLabels (key other : String) : Prop :=
  other = key ∨ key ≠ identityKey ∧ other ≠ identityKey

/-- Whether a graph keeps words and labels as settings say, and the edges that go by a label are there. -/
structure Keeps (settings : Settings) (g : Graph) : Prop where
  wordKey : g.wordKey = settings.wordKey
  labelKey : g.labelKey = settings.relationKey
  parallel : g.parallel = true
  identified : ∀ i ∈ g.identified, ∃ label, ⟨i.1, i.2.1, label⟩ ∈ g.edges

/-- Whether two graphs, each of which keeps words and labels under keys of its own, are the same but for
these. -/
structure Alike (settings other : Settings) (g h : Graph) : Prop where
  keeps : Keeps settings g
  other_keeps : Keeps other h
  nodes : h.nodes = g.nodes
  word : ∀ n, h.word n = g.word n
  attributes : ∀ key, (other.wordKey = settings.wordKey ∨ key ≠ settings.wordKey ∧ key ≠ other.wordKey) →
    ∀ n, h.attribute? n key = g.attribute? n key
  targets : ∀ direction n, targets (h.step direction n) = targets (g.step direction n)
  labels : TellsLabels settings.relationKey other.relationKey →
    h.edges = g.edges ∧ h.identified = g.identified

variable {settings other : Settings} {g h g' h' : Graph} {n governor dependent : Node} {text : String}

/-- Empty graphs are alike. -/
theorem alike_empty (settings other : Settings) :
    Alike settings other (empty settings.wordKey true settings.relationKey)
      (empty other.wordKey true other.relationKey) where
  keeps := ⟨rfl, rfl, rfl, fun _ hi => absurd hi List.not_mem_nil⟩
  other_keeps := ⟨rfl, rfl, rfl, fun _ hi => absurd hi List.not_mem_nil⟩
  nodes := rfl
  word _ := rfl
  attributes _ _ _ := rfl
  targets direction _ := by cases direction <;> rfl
  labels _ := ⟨rfl, rfl⟩

/-- Declaring roots changes nothing that is kept under keys. -/
theorem Keeps.setRoots (hg : Keeps settings g) (roots : List Node) : Keeps settings (g.setRoots roots) :=
  ⟨hg.wordKey, hg.labelKey, hg.parallel, hg.identified⟩

/-- Graphs stay alike whichever roots they declare. -/
theorem Alike.setRoots (hgh : Alike settings other g h) (roots others : List Node) :
    Alike settings other (g.setRoots roots) (h.setRoots others) :=
  ⟨hgh.keeps.setRoots roots, hgh.other_keeps.setRoots others, hgh.nodes, hgh.word, hgh.attributes,
    hgh.targets, hgh.labels⟩

/-- Graphs that are alike have the same nodes. -/
theorem Alike.mem_iff (hgh : Alike settings other g h) : n ∈ h ↔ n ∈ g := mem_congr hgh.nodes

/-- Mentioning a node adds it to the same nodes. -/
theorem nodes_mention_congr (hnodes : h.nodes = g.nodes) (n : Node) :
    (h.mention n).nodes = (g.mention n).nodes := by
  simp only [nodes_mention, mem_congr hnodes, hnodes]

/-! ### Nodes -/

/-- What a node is described by comes before what is known of it, and the other nodes stay as they are. -/
theorem attribute?_describe (hn : n ∈ g) (attributes : Attributes) (m : Node) (key : String) :
    (g.describe n attributes).attribute? m key =
      if m = n then (attributes.lookup key).getD (g.attribute? n key) else g.attribute? m key := by
  by_cases hm : m = n
  · subst hm
    obtain ⟨old, hold⟩ : ∃ old, g.entries.lookup m = some old := by
      cases hlookup : g.entries.lookup m with
      | some old => exact ⟨old, rfl⟩
      | none =>
        obtain ⟨entry, hentry, rfl⟩ := List.mem_map.1 (mem_def.1 hn)
        exact absurd (List.lookup_eq_none_iff.1 hlookup entry hentry) (by simp)
    rw [if_pos rfl, attribute?, attribute?, lookup_describe, hold]
    simp only [Option.map_some, if_true, Option.bind_some, List.lookup_append]
    cases attributes.lookup key <;> rfl
  · rw [if_neg hm, attribute?_describe_of_ne hm]

/-- A node that has been added goes by its word, and has it as an attribute under the word's key. -/
structure Names (g : Graph) (n : Node) (word : String) (attributes : Attributes) (h : Graph) : Prop where
  nodes : h.nodes = (g.mention n).nodes
  edges : h.edges = g.edges
  identified : h.identified = g.identified
  wordKey : h.wordKey = g.wordKey
  labelKey : h.labelKey = g.labelKey
  parallel : h.parallel = g.parallel
  values : ∀ m key, h.attribute? m key =
    if m = n then
      (((g.wordKey, some word) :: ("value", (attributes.lookup "value").getD (some word)) ::
        attributes).lookup key).getD (g.attribute? n key)
    else g.attribute? m key

/-- Adding a node gives it its word. -/
theorem names_of_addNode? {word : String} {attributes : Attributes}
    (hadd : g.addNode? n word attributes = some h) : Names g n word attributes h := by
  unfold addNode? at hadd
  split at hadd
  · cases hadd
    exact {
      nodes := nodes_describe _ _ _
      edges := edges_mention g n
      identified := identified_mention g n
      wordKey := wordKey_mention g n
      labelKey := labelKey_mention g n
      parallel := parallel_mention g n
      values := fun m key => by
        rw [attribute?_describe (mem_mention.2 (.inr rfl)), attribute?_mention, attribute?_mention] }
  · cases hadd

/-- Walks go on by the edges alone. -/
theorem step_congr (hedges : h.edges = g.edges) : h.step = g.step := by
  funext direction n
  cases direction with
  | up => rw [step, step, governors, governors, hedges]
  | down => rw [step, step, dependents, dependents, hedges]

/-- A new word is kept under the key for words. -/
theorem Names.keeps {word : String} {attributes : Attributes} (hn : Names g n word attributes h)
    (hg : Keeps settings g) : Keeps settings h := by
  refine ⟨hn.wordKey.trans hg.wordKey, hn.labelKey.trans hg.labelKey, hn.parallel.trans hg.parallel, ?_⟩
  rw [hn.identified, hn.edges]
  exact hg.identified

/-- Graphs stay alike when the same node is added to both. -/
theorem Alike.addNode? (hgh : Alike settings other g h) {word : String} {attributes : Attributes}
    (hg : g.addNode? n word attributes = some g') (hh : h.addNode? n word attributes = some h') :
    Alike settings other g' h' := by
  have hg := names_of_addNode? hg
  have hh := names_of_addNode? hh
  refine ⟨hg.keeps hgh.keeps, hh.keeps hgh.other_keeps, ?_, fun m => ?_, fun key hkey m => ?_, ?_, ?_⟩
  · -- the nodes
    rw [hh.nodes, hg.nodes, nodes_mention_congr hgh.nodes]
  · -- the words: the one that is new, or those that agreed before
    rw [Graph.word, Graph.word, hh.wordKey, hg.wordKey, hh.values, hg.values]
    split
    · simp
    · exact hgh.word m
  · rw [hh.values, hg.values, hgh.keeps.wordKey, hgh.other_keeps.wordKey]
    split
    · -- unless a word's key is asked for, both nodes are described by the same
      have hlookup : ∀ old : Attributes, ((other.wordKey, some word) :: old).lookup key =
          ((settings.wordKey, some word) :: old).lookup key := by
        intro old
        rcases hkey with hsame | ⟨hne, hne'⟩
        · rw [hsame]
        · rw [List.lookup_cons, List.lookup_cons, beq_false_of_ne hne, beq_false_of_ne hne']
      rw [hlookup, hgh.attributes key hkey]
    · exact hgh.attributes key hkey m
  · -- what the edges lead to and their labels, which a new node leaves as they are
    rw [step_congr hh.edges, step_congr hg.edges]
    exact hgh.targets
  · rw [hh.edges, hg.edges, hh.identified, hg.identified]
    exact hgh.labels

/-! ### Edges -/

/-- The end of an edge at which a walk in a direction sets out. -/
def Edge.near (e : Edge) : Direction → Node
  | .up => e.dependent
  | .down => e.governor

/-- The end to which it leads. -/
def Edge.far (e : Edge) : Direction → Node
  | .up => e.governor
  | .down => e.dependent

/-- What walks lead to are the far ends of the edges. -/
theorem targets_step (g : Graph) (direction : Direction) (n : Node) :
    DependencyQuery.targets (g.step direction n) =
      DependencyQuery.targets ((g.edges.filter fun e => Edge.near e direction = n).map
        fun e => (e.label, Edge.far e direction)) := by
  cases direction <;> exact targets_groupByNeighbour _

/-- The node to which an edge leads from a node, if it sets out there. -/
def Edge.across (e : Edge) (direction : Direction) (n : Node) : List Node :=
  if Edge.near e direction = n then [Edge.far e direction] else []

/-- Where an edge leads does not depend on its label. -/
theorem Edge.across_label (label : Option String) :
    Edge.across ⟨governor, dependent, label⟩ = Edge.across ⟨governor, dependent, none⟩ := by
  funext direction n
  cases direction <;> rfl

/-- A further edge leads to its other end. -/
theorem targets_step_append {g h : Graph} {e : Edge} (hedges : h.edges = g.edges ++ [e])
    (direction : Direction) (n : Node) :
    DependencyQuery.targets (h.step direction n) = DependencyQuery.targets (g.step direction n) ++
      (Edge.across e direction n).filter (· ∉ DependencyQuery.targets (g.step direction n)) := by
  rw [targets_step h, hedges, List.filter_append, List.map_append, targets_append, ← targets_step]
  congr 2
  rw [Edge.across]
  by_cases hn : Edge.near e direction = n
  · rw [if_pos hn, List.filter_cons_of_pos (by simpa using hn), List.filter_nil, List.map_singleton,
      targets_singleton]
  · rw [if_neg hn, List.filter_cons_of_neg (by simpa using hn)]
    rfl

/-- The far end of an edge is one that walks lead to. -/
theorem mem_targets_step {g : Graph} {e : Edge} (he : e ∈ g.edges) (direction : Direction) :
    Edge.far e direction ∈ DependencyQuery.targets (g.step direction (Edge.near e direction)) := by
  rw [targets_step]
  exact mem_targets.2 ⟨_, List.mem_map_of_mem (List.mem_filter.2 ⟨he, by simp⟩), rfl⟩

/-- The ways in which an edge with a label is added. -/
inductive AddsEdge (g : Graph) (governor dependent : Node) (text : String) : Graph → Prop
  /-- The edge carries its label. -/
  | carried (key : g.labelKey ≠ identityKey) :
    AddsEdge g governor dependent text (g.addEdge governor dependent (some text))
  /-- The edge goes by its label, and is there. -/
  | known (key : g.labelKey = identityKey) (known : (governor, dependent, text) ∈ g.identified) :
    AddsEdge g governor dependent text g
  /-- The edge goes by its label, and is new. -/
  | new (key : g.labelKey = identityKey) (new : (governor, dependent, text) ∉ g.identified) :
    AddsEdge g governor dependent text { g.addEdge governor dependent none with
      identified := (governor, dependent, text) :: g.identified }

/-- Adding an edge with a label adds it to the edges. -/
theorem addsEdge_of_addEdge? (hparallel : g.parallel = true)
    (hadd : g.addEdge? governor dependent (some text) = some h) :
    AddsEdge g governor dependent text h := by
  unfold addEdge? at hadd
  rw [hparallel, Bool.true_and] at hadd
  split at hadd
  · cases hadd
  · split at hadd
    · next hkey =>
      cases hadd
      rw [addIdentified]
      split
      · next hknown => exact .known (beq_iff_eq.1 hkey) hknown
      · next hnew => exact .new (beq_iff_eq.1 hkey) hnew
    · next hkey =>
      cases hadd
      exact .carried (by simpa using hkey)

namespace AddsEdge

variable (ha : AddsEdge g governor dependent text h)

include ha

/-- An edge keeps the key for words. -/
theorem wordKey : h.wordKey = g.wordKey := by
  cases ha with
  | carried _ => exact wordKey_addEdge ..
  | known _ _ => rfl
  | new _ _ => exact wordKey_addEdge g governor dependent none

/-- An edge changes no attribute. -/
theorem attribute? (n : Node) (key : String) : h.attribute? n key = g.attribute? n key := by
  cases ha with
  | carried _ => exact attribute?_addEdge ..
  | known _ _ => rfl
  | new _ _ => exact attribute?_addEdge g governor dependent none n key

/-- What is kept under keys stays so when an edge is added. -/
theorem keeps (hg : Keeps settings g) : Keeps settings h := by
  cases ha with
  -- the edge carries its label, and no label is identified
  | carried _ =>
    refine ⟨(wordKey_addEdge ..).trans hg.wordKey, (labelKey_addEdge ..).trans hg.labelKey,
      (parallel_addEdge ..).trans hg.parallel, fun i hi => ?_⟩
    rw [identified_addEdge] at hi
    obtain ⟨label, hedge⟩ := hg.identified i hi
    exact ⟨label, by rw [edges_addEdge hg.parallel]; exact List.mem_append_left _ hedge⟩
  | known _ _ => exact hg
  -- the label is identified, and its edge is the last one
  | new _ _ =>
    have hedges := edges_addEdge hg.parallel governor dependent none
    refine ⟨(wordKey_addEdge g governor dependent none).trans hg.wordKey,
      (labelKey_addEdge g governor dependent none).trans hg.labelKey,
      (parallel_addEdge g governor dependent none).trans hg.parallel, fun i hi => ?_⟩
    rcases List.mem_cons.1 hi with rfl | hi
    · exact ⟨none, hedges ▸ List.mem_append_right _ List.mem_cons_self⟩
    · obtain ⟨label, hedge⟩ := hg.identified i hi
      exact ⟨label, hedges ▸ List.mem_append_left _ hedge⟩

/-- However an edge is added, its ends come after the nodes that have been there. -/
theorem nodes (hg : Keeps settings g) : h.nodes = ((g.mention governor).mention dependent).nodes := by
  cases ha with
  | carried _ => rfl
  | known _ hknown =>
    obtain ⟨label, hedge⟩ := hg.identified _ hknown
    obtain ⟨hgovernor, hdependent⟩ := g.closed _ hedge
    rw [mention_of_mem hgovernor, mention_of_mem hdependent]
  | new _ _ => rfl

/-- However an edge is added, it leads to the same node. -/
theorem targets_step (hg : Keeps settings g) (direction : Direction) (n : Node) :
    DependencyQuery.targets (h.step direction n) = DependencyQuery.targets (g.step direction n) ++
      (Edge.across ⟨governor, dependent, none⟩ direction n).filter
        (· ∉ DependencyQuery.targets (g.step direction n)) := by
  cases ha with
  | carried _ =>
    rw [targets_step_append (edges_addEdge hg.parallel governor dependent (some text)),
      Edge.across_label (some text)]
  | new _ _ => exact targets_step_append (edges_addEdge hg.parallel governor dependent none) direction n
  | known _ hknown =>
    -- the edge is there, and so is the node to which it leads
    obtain ⟨label, hedge⟩ := hg.identified _ hknown
    have hmem := mem_targets_step hedge direction
    rw [← Edge.across_label label, Edge.across]
    by_cases hn : Edge.near ⟨governor, dependent, label⟩ direction = n
    · rw [if_pos hn, List.filter_cons_of_neg (by simpa [hn] using hmem), List.filter_nil, List.append_nil]
    · rw [if_neg hn, List.filter_nil, List.append_nil]

/-- Where labels are kept in the same way, an edge is added in the same way. -/
theorem edges_eq {h₀ h' : Graph} (hg : Keeps settings g) (hh : Keeps other h₀)
    (hb : AddsEdge h₀ governor dependent text h')
    (hlabels : TellsLabels settings.relationKey other.relationKey)
    (hsame : h₀.edges = g.edges ∧ h₀.identified = g.identified) :
    h'.edges = h.edges ∧ h'.identified = h.identified := by
  obtain ⟨hedges, hidentified⟩ := hsame
  have hkeys : g.labelKey = identityKey ↔ h₀.labelKey = identityKey := by
    rw [hg.labelKey, hh.labelKey]
    rcases hlabels with hsame | ⟨hne, hne'⟩
    · rw [hsame]
    · exact iff_of_false hne hne'
  have hadded : ∀ label, (h₀.addEdge governor dependent label).edges =
      (g.addEdge governor dependent label).edges := fun label => by
    rw [edges_addEdge hh.parallel, edges_addEdge hg.parallel, hedges]
  -- the key of labels and the labels that edges go by tell which rule applies, and they are the same
  cases ha with
  | carried hkey =>
    cases hb with
    | carried _ => exact ⟨hadded _, by rw [identified_addEdge, identified_addEdge, hidentified]⟩
    | known hkey' _ => exact absurd (hkeys.2 hkey') hkey
    | new hkey' _ => exact absurd (hkeys.2 hkey') hkey
  | known hkey hknown =>
    cases hb with
    | carried hkey' => exact absurd (hkeys.1 hkey) hkey'
    | known _ _ => exact ⟨hedges, hidentified⟩
    | new _ hnew => exact absurd (hidentified ▸ hknown) hnew
  | new hkey hnew =>
    cases hb with
    | carried hkey' => exact absurd (hkeys.1 hkey) hkey'
    | known _ hknown => exact absurd (hidentified ▸ hknown) hnew
    | new _ _ => exact ⟨hadded _, congrArg ((governor, dependent, text) :: ·) hidentified⟩

end AddsEdge

/-- Graphs stay alike when the same edge is added to both. -/
theorem Alike.addEdge? (hgh : Alike settings other g h)
    (hgadd : g.addEdge? governor dependent (some text) = some g')
    (hhadd : h.addEdge? governor dependent (some text) = some h') : Alike settings other g' h' := by
  have hg := hgh.keeps
  have hh := hgh.other_keeps
  have hgadd := addsEdge_of_addEdge? hg.parallel hgadd
  have hhadd := addsEdge_of_addEdge? hh.parallel hhadd
  refine ⟨hgadd.keeps hg, hhadd.keeps hh, ?_, fun n => ?_, fun key hkey n => ?_, fun direction n => ?_,
    fun hlabels => hgadd.edges_eq hg hh hhadd hlabels (hgh.labels hlabels)⟩
  · rw [hhadd.nodes hh, hgadd.nodes hg]
    exact nodes_mention_congr (nodes_mention_congr hgh.nodes governor) dependent
  · rw [Graph.word, Graph.word, hhadd.wordKey, hgadd.wordKey, hhadd.attribute?, hgadd.attribute?]
    exact hgh.word n
  · rw [hhadd.attribute?, hgadd.attribute?]
    exact hgh.attributes key hkey n
  · rw [hhadd.targets_step hh, hgadd.targets_step hg, hgh.targets]

/-! ### Graphs from data -/

/-- Adding the data of a node adds the node. -/
theorem addNodeData_eq_ok {node : NodeData} (hadd : g.addNodeData node = .ok h) :
    g.addNode? (.index node.index) node.word node.attributes = some h := by
  unfold addNodeData at hadd
  split at hadd
  · next hadded =>
    cases hadd
    exact hadded
  · cases hadd

/-- Adding the data of an edge adds the edge. -/
theorem addEdgeData_eq_ok {edge : EdgeData} (hadd : g.addEdgeData edge = .ok h) :
    g.addEdge? (.index edge.governor) (.index edge.dependent) (some edge.relation) = some h := by
  unfold addEdgeData at hadd
  split at hadd
  · next hadded =>
    cases hadd
    exact hadded
  · cases hadd

/-- The graphs that data describe under any two settings are alike. -/
theorem alike_of_ofData {d : GraphData} (hg : ofData settings d = .ok g)
    (hh : ofData other d = .ok h) : Alike settings other g h := by
  unfold ofData at hg hh
  obtain ⟨g₁, hnodes, hg⟩ := bind_eq_ok hg
  obtain ⟨g₂, hedges, hg⟩ := bind_eq_ok hg
  obtain ⟨h₁, hnodes', hh⟩ := bind_eq_ok hh
  obtain ⟨h₂, hedges', hh⟩ := bind_eq_ok hh
  cases hg
  cases hh
  -- the two runs are related after each node, and then after each edge
  have hbefore : Alike settings other g₁ h₁ := by
    refine foldlM_related (R := Alike settings other) ?_ (alike_empty settings other) hnodes hnodes'
    intro _ _ _ _ _ halike hadd hadd'
    exact halike.addNode? (addNodeData_eq_ok hadd) (addNodeData_eq_ok hadd')
  have hafter : Alike settings other g₂ h₂ := by
    refine foldlM_related (R := Alike settings other) ?_ hbefore hedges hedges'
    intro _ _ _ _ _ halike hadd hadd'
    exact halike.addEdge? (addEdgeData_eq_ok hadd) (addEdgeData_eq_ok hadd')
  exact hafter.setRoots _ _

end DependencyQuery.Graph
