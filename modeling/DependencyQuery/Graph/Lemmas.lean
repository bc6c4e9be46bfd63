import DependencyQuery.Graph.Basic
import Mathlib.Data.List.Perm.Basic

namespace DependencyQuery.Graph

/-!
# Graphs: what building one does to its views

* `nodes_mention`, `nodes_describe`, `nodes_addEdge`, `nodes_setRoots` — a node is listed where it is
  first mentioned, and nothing else changes the list of nodes;
* `edges_addEdge`, `mem_edges_addEdge` — what an edge adds to the edges; `addEdge?_of_labelKey` — under the
  usual key it carries its label;
* `lookup_describe`, `attribute?_addNode?`, `attribute?_addEdge` — what becomes of the attributes;
* `mem_dependents`, `mem_governors` — both views show the edges of the graph and no others;
* `groupByNeighbour_perm`, `flatMap_filter_perm` — grouping by neighbour or by governor keeps every link
  as often as it is there; `filter_groupByNeighbour` — and the links to one neighbour in their order.
-/

/-- A graph has as many nodes as its size says. -/
theorem length_nodes (g : Graph) : g.nodes.length = g.size := by
  rw [nodes, List.length_map, size]

/-- Which nodes a graph has is told by the list of its nodes. -/
theorem mem_congr {g h : Graph} (hnodes : h.nodes = g.nodes) {n : Node} : n ∈ h ↔ n ∈ g := by
  show n ∈ h.nodes ↔ n ∈ g.nodes
  rw [hnodes]

/-- A node that is mentioned again keeps its place. -/
theorem nodes_mention (g : Graph) (n : Node) :
    (g.mention n).nodes = if n ∈ g then g.nodes else g.nodes ++ [n] := by
  unfold mention
  split
  · rfl
  · simp [nodes]

/-- Describing a node adds none. -/
@[simp] theorem nodes_describe (g : Graph) (n : Node) (attributes : Attributes) :
    (g.describe n attributes).nodes = g.nodes := by
  simp only [nodes, describe, List.map_map]
  refine List.map_congr_left fun entry _ => ?_
  simp only [Function.comp]
  split <;> rfl

/-- An edge adds its two ends, the governor first. -/
@[simp] theorem nodes_addEdge (g : Graph) (governor dependent : Node) (label : Option String) :
    (g.addEdge governor dependent label).nodes =
      ((g.mention governor).mention dependent).nodes := rfl

/-- Declaring roots adds no nodes. -/
@[simp] theorem nodes_setRoots (g : Graph) (roots : List Node) : (g.setRoots roots).nodes = g.nodes := rfl

/-- Mentioning a node that is there changes nothing. -/
theorem mention_of_mem {g : Graph} {n : Node} (h : n ∈ g) : g.mention n = g := dif_pos h

/-- Mentioning a node keeps the key for words. -/
@[simp] theorem wordKey_mention (g : Graph) (n : Node) : (g.mention n).wordKey = g.wordKey := by
  unfold mention
  split <;> rfl

/-- An edge keeps the key for words. -/
@[simp] theorem wordKey_addEdge (g : Graph) (governor dependent : Node) (label : Option String) :
    (g.addEdge governor dependent label).wordKey = g.wordKey := by
  simp [addEdge]

/-- Mentioning a node keeps the key for labels. -/
@[simp] theorem labelKey_mention (g : Graph) (n : Node) : (g.mention n).labelKey = g.labelKey := by
  unfold mention
  split <;> rfl

/-- An edge keeps the key for labels. -/
@[simp] theorem labelKey_addEdge (g : Graph) (governor dependent : Node) (label : Option String) :
    (g.addEdge governor dependent label).labelKey = g.labelKey := by
  simp [addEdge]

/-- Mentioning a node adds no edge. -/
@[simp] theorem edges_mention (g : Graph) (n : Node) : (g.mention n).edges = g.edges := by
  unfold mention
  split <;> rfl

/-- Mentioning a node keeps the keys that tell parallel edges apart. -/
@[simp] theorem identified_mention (g : Graph) (n : Node) : (g.mention n).identified = g.identified := by
  unfold mention
  split <;> rfl

/-- An edge without a key of its own adds none. -/
@[simp] theorem identified_addEdge (g : Graph) (governor dependent : Node) (label : Option String) :
    (g.addEdge governor dependent label).identified = g.identified := by
  simp [addEdge]

/-- Mentioning a node does not change whether there may be parallel edges. -/
@[simp] theorem parallel_mention (g : Graph) (n : Node) : (g.mention n).parallel = g.parallel := by
  unfold mention
  split <;> rfl

/-- An edge does not change whether there may be parallel edges. -/
@[simp] theorem parallel_addEdge (g : Graph) (governor dependent : Node) (label : Option String) :
    (g.addEdge governor dependent label).parallel = g.parallel := by
  simp [addEdge]

/-- An edge between nodes of the graph changes none of them. -/
theorem nodes_addEdge_of_mem {g : Graph} {governor dependent : Node} (hgovernor : governor ∈ g)
    (hdependent : dependent ∈ g) (label : Option String) :
    (g.addEdge governor dependent label).nodes = g.nodes := by
  rw [nodes_addEdge, mention_of_mem hgovernor, mention_of_mem hdependent]

/-- After an edge has been added, its ends are nodes, and so is what was one before. -/
theorem mem_addEdge {g : Graph} {governor dependent n : Node} {label : Option String} :
    n ∈ g.addEdge governor dependent label ↔ (n ∈ g ∨ n = governor) ∨ n = dependent :=
  mem_mention.trans (or_congr_left mem_mention)

/-- Where nodes can have several edges between them, an edge is put after the others. -/
theorem edges_addEdge {g : Graph} (h : g.parallel = true) (governor dependent : Node)
    (label : Option String) :
    (g.addEdge governor dependent label).edges = g.edges ++ [⟨governor, dependent, label⟩] := by
  simp [addEdge, h]

/-- Adding an edge brings in no other one. -/
theorem mem_edges_addEdge {g : Graph} {governor dependent : Node} {label : Option String} {e : Edge}
    (h : e ∈ (g.addEdge governor dependent label).edges) :
    e ∈ g.edges ∨ e = ⟨governor, dependent, label⟩ := by
  simp only [addEdge] at h
  split at h
  · simpa using h
  · exact mem_relabel h

/-- An edge under a key of its own takes no node away. -/
theorem mem_addIdentified_of_mem {g : Graph} {governor dependent n : Node} (hn : n ∈ g)
    (label : Option String) : n ∈ g.addIdentified governor dependent label := by
  have hadded : ∀ label, n ∈ g.addEdge governor dependent label :=
    fun _ => mem_addEdge.2 (.inl (.inl hn))
  cases label with
  | none => exact hadded none
  | some text =>
    rw [addIdentified]
    split
    · exact hn
    · exact hadded none

/-- An edge takes no node away. -/
theorem mem_of_addEdge? {g h : Graph} {governor dependent n : Node} {label : Option String}
    (hadded : g.addEdge? governor dependent label = some h) (hn : n ∈ g) : n ∈ h := by
  unfold addEdge? at hadded
  split at hadded
  · cases hadded
  · split at hadded
    · cases hadded
      exact mem_addIdentified_of_mem hn label
    · cases hadded
      exact mem_addEdge.2 (.inl (.inl hn))

/-- Where labels are kept under a key of their own, an edge carries its label if it is added at all. -/
theorem eq_addEdge_of_addEdge? {g h : Graph} {governor dependent : Node} {label : Option String}
    (hkey : g.labelKey ≠ identityKey) (hadded : g.addEdge? governor dependent label = some h) :
    h = g.addEdge governor dependent label := by
  rw [addEdge?, beq_false_of_ne hkey, Bool.and_false] at hadded
  split at hadded
  · cases hadded
  · exact (Option.some.inj hadded).symm

/-- Where labels are kept under their usual key, an edge carries its label. -/
theorem addEdge?_of_labelKey {g : Graph} (h : g.labelKey = "relation") (governor dependent : Node)
    (label : Option String) :
    g.addEdge? governor dependent label = some (g.addEdge governor dependent label) := by
  have hreserved : (reservedLabelKeys g.parallel).contains "relation" = false := by
    cases g.parallel <;> rfl
  have hidentity : ("relation" == identityKey) = false := rfl
  rw [addEdge?, h, hreserved, hidentity, Bool.and_false]
  rfl

/-! ### Attributes -/

/-- Where there is no node, nothing is kept about it. -/
theorem lookup_of_not_mem {g : Graph} {n : Node} (h : n ∉ g) : g.entries.lookup n = none := by
  rw [List.lookup_eq_none_iff]
  intro entry hentry
  rw [bne_iff_ne]
  rintro rfl
  exact h (List.mem_map_of_mem hentry)

/-- A node that is mentioned for the first time has no attributes yet. -/
@[simp] theorem attribute?_mention (g : Graph) (n m : Node) (key : String) :
    (g.mention n).attribute? m key = g.attribute? m key := by
  unfold mention
  split
  · rfl
  · next h =>
    simp only [attribute?, List.lookup_append]
    by_cases hm : m = n
    · subst hm
      simp [lookup_of_not_mem h]
    · simp [List.lookup_cons, beq_false_of_ne hm]

/-- Describing a node puts attributes before those that it has, and leaves the other nodes alone. -/
theorem lookup_describe (g : Graph) (n m : Node) (attributes : Attributes) :
    (g.describe n attributes).entries.lookup m =
      (g.entries.lookup m).map fun old => if m = n then attributes ++ old else old := by
  simp only [describe]
  induction g.entries with
  | nil => rfl
  | cons entry entries ih =>
    obtain ⟨a, old⟩ := entry
    have hhead : (if a = n then (a, attributes ++ old) else (a, old)) =
        (a, if a = n then attributes ++ old else old) := by
      split <;> rfl
    rw [List.map_cons, hhead, List.lookup_cons, List.lookup_cons, ih]
    -- the entry of the node itself, or one after it
    by_cases hm : m = a
    · subst hm
      simp
    · simp [beq_false_of_ne hm]

/-- Describing one node leaves the attributes of the others as they are. -/
theorem attribute?_describe_of_ne {g : Graph} {n m : Node} {attributes : Attributes} (h : m ≠ n)
    (key : String) : (g.describe n attributes).attribute? m key = g.attribute? m key := by
  rw [attribute?, lookup_describe, attribute?]
  simp [h]

/-- Where a node is described for the first time, its attributes are the given ones. -/
theorem attribute?_addNode? {g h : Graph} {n : Node} {word : String} {attributes : Attributes}
    (hn : n ∉ g) (hadd : g.addNode? n word attributes = some h) (m : Node) (key : String) :
    h.attribute? m key =
      if m = n then
        (((g.wordKey, some word) :: ("value", (attributes.lookup "value").getD (some word)) ::
          attributes).lookup key).join
      else g.attribute? m key := by
  unfold addNode? at hadd
  split at hadd
  · cases hadd
    split
    · next hm =>
      -- the node has just been mentioned, and nothing is kept about it yet
      have hlookup : (g.mention n).entries.lookup n = some [] := by
        simp only [mention, hn, dif_neg, not_false_eq_true, List.lookup_append, lookup_of_not_mem hn]
        simp
      subst hm
      rw [attribute?, lookup_describe, hlookup]
      simp
    · next hm => rw [attribute?_describe_of_ne hm, attribute?_mention]
  · cases hadd

/-- An edge changes no attribute. -/
@[simp] theorem attribute?_addEdge (g : Graph) (governor dependent : Node) (label : Option String)
    (n : Node) (key : String) :
    (g.addEdge governor dependent label).attribute? n key = g.attribute? n key := by
  calc (g.addEdge governor dependent label).attribute? n key
      = ((g.mention governor).mention dependent).attribute? n key := rfl
    _ = g.attribute? n key := by rw [attribute?_mention, attribute?_mention]

/-- An edge changes no word. -/
@[simp] theorem word_addEdge (g : Graph) (governor dependent : Node) (label : Option String) (n : Node) :
    (g.addEdge governor dependent label).word n = g.word n := by
  simp [word]

/-! ### The two views of the edges -/

/-- Grouping neither adds nor drops a link. -/
theorem mem_groupByNeighbour {links : List (Option String × Node)} {link : Option String × Node} :
    link ∈ groupByNeighbour links ↔ link ∈ links := by
  simp only [groupByNeighbour, List.mem_flatMap, List.mem_filter]
  constructor
  · rintro ⟨n, _, h, _⟩
    exact h
  · intro h
    refine ⟨link.2, ?_, h, by simp⟩
    rw [List.mem_eraseDups]
    exact List.mem_map_of_mem h

/-- The view from a governor shows the edges out of it. -/
theorem mem_dependents {g : Graph} {n m : Node} {label : Option String} :
    (label, m) ∈ g.dependents n ↔ ⟨n, m, label⟩ ∈ g.edges := by
  simp only [dependents, mem_groupByNeighbour, List.mem_map, List.mem_filter]
  constructor
  · rintro ⟨⟨governor, dependent, l⟩, ⟨h, hn⟩, he⟩
    simp only [decide_eq_true_eq, Prod.mk.injEq] at hn he
    obtain ⟨rfl, rfl⟩ := he
    subst hn
    exact h
  · intro h
    exact ⟨⟨n, m, label⟩, ⟨h, by simp⟩, rfl⟩

/-- The view from a dependent shows the edges into it. -/
theorem mem_governors {g : Graph} {n m : Node} {label : Option String} :
    (label, m) ∈ g.governors n ↔ ⟨m, n, label⟩ ∈ g.edges := by
  simp only [governors, mem_groupByNeighbour, List.mem_map, List.mem_filter]
  constructor
  · rintro ⟨⟨governor, dependent, l⟩, ⟨h, hn⟩, he⟩
    simp only [decide_eq_true_eq, Prod.mk.injEq] at hn he
    obtain ⟨rfl, rfl⟩ := he
    subst hn
    exact h
  · intro h
    exact ⟨⟨m, n, label⟩, ⟨h, by simp⟩, rfl⟩

/-- An edge counts among those into its dependent. -/
theorem inDegree_pos {g : Graph} {e : Edge} (h : e ∈ g.edges) : 0 < g.inDegree e.dependent :=
  List.length_pos_of_mem (List.mem_filter.2 ⟨h, by simp⟩)

/-- Where nothing is repeated, nothing is erased. -/
theorem eraseDups_of_nodup {α : Type} [BEq α] [LawfulBEq α] {items : List α} (h : items.Nodup) :
    items.eraseDups = items := by
  induction items with
  | nil => rfl
  | cons a rest ih =>
    rw [List.nodup_cons] at h
    -- no later item equals the first one, so that nothing is filtered out
    have hothers : rest.filter (fun b => !b == a) = rest := by
      refine List.filter_eq_self.2 fun b hb => ?_
      rw [beq_false_of_ne (ne_of_mem_of_not_mem hb h.1)]
      rfl
    rw [List.eraseDups_cons, hothers, ih h.2]

/-- What has been there before adds nothing. -/
theorem eraseDups_append_of_subset {α : Type} [BEq α] [LawfulBEq α] {items more : List α}
    (h : ∀ a ∈ more, a ∈ items) : (items ++ more).eraseDups = items.eraseDups := by
  have hnone : more.removeAll items = [] := by
    refine List.filter_eq_nil_iff.2 fun a ha => ?_
    simpa using h a ha
  rw [List.eraseDups_append, hnone]
  exact List.append_nil _

/-- What is left after repetitions have been erased has none. -/
theorem nodup_eraseDups (nodes : List Node) : nodes.eraseDups.Nodup := by
  cases nodes with
  | nil => simp
  | cons n rest =>
    rw [List.eraseDups_cons, List.nodup_cons]
    refine ⟨?_, nodup_eraseDups _⟩
    rw [List.mem_eraseDups, List.mem_filter]
    simp
termination_by nodes.length
decreasing_by
  -- what is left without the first node is shorter
  have := List.length_filter_le (fun m => !m == n) rest
  rw [List.length_cons]
  omega

/-- Items that are grouped by a node of theirs are still the same items. -/
theorem flatMap_filter_perm {α : Type} {node : α → Node} {nodes : List Node} {items : List α}
    (hnodup : nodes.Nodup) (hmem : ∀ item ∈ items, node item ∈ nodes) :
    (nodes.flatMap fun n => items.filter fun item => node item = n).Perm items := by
  induction nodes generalizing items with
  | nil =>
    have : items = [] := List.eq_nil_iff_forall_not_mem.2 fun item h => List.not_mem_nil (hmem item h)
    rw [this]
    rfl
  | cons n nodes ih =>
    rw [List.nodup_cons] at hnodup
    rw [List.flatMap_cons]
    -- the groups after the first one are those of the other items
    have hothers : (nodes.flatMap fun m => items.filter fun item => node item = m) =
        nodes.flatMap fun m => (items.filter fun item => !decide (node item = n)).filter
          fun item => node item = m := by
      refine List.flatMap_congr fun m hm => ?_
      rw [List.filter_filter]
      refine List.filter_congr fun item _ => ?_
      by_cases hitem : node item = m
      · have : m ≠ n := fun e => hnodup.1 (e ▸ hm)
        simp [hitem, this]
      · simp [hitem]
    rw [hothers]
    refine ((ih hnodup.2 fun item hitem => ?_).append_left _).trans (List.filter_append_perm _ _)
    rw [List.mem_filter] at hitem
    exact (List.mem_cons.1 (hmem item hitem.1)).resolve_left (by simpa using hitem.2)

/-- Grouping by neighbour keeps every link as often as it is there. -/
theorem groupByNeighbour_perm (links : List (Option String × Node)) :
    (groupByNeighbour links).Perm links := by
  refine flatMap_filter_perm (nodup_eraseDups _) fun link h => ?_
  rw [List.mem_eraseDups]
  exact List.mem_map_of_mem h

/-- Of several groups, those links lead to a node that are in its own group. -/
theorem filter_groups {nodes : List Node} (hnodup : nodes.Nodup) {n : Node} (hn : n ∈ nodes)
    (links : List (Option String × Node)) :
    (nodes.flatMap fun m => links.filter fun link => link.2 = m).filter (fun link => link.2 = n) =
      links.filter fun link => link.2 = n := by
  induction nodes with
  | nil => exact absurd hn List.not_mem_nil
  | cons m nodes ih =>
    rw [List.nodup_cons] at hnodup
    rw [List.flatMap_cons, List.filter_append]
    by_cases hm : n = m
    · subst hm
      -- what is gathered for the nodes after `n` leads elsewhere
      have hothers : (nodes.flatMap fun m => links.filter fun link => link.2 = m).filter
          (fun link => link.2 = n) = [] := by
        refine List.filter_eq_nil_iff.2 fun link hlink => ?_
        obtain ⟨k, hk, hlink⟩ := List.mem_flatMap.1 hlink
        have hlinked : link.2 = k := by simpa using (List.mem_filter.1 hlink).2
        simpa [hlinked] using ne_of_mem_of_not_mem hk hnodup.1
      rw [hothers, List.append_nil, List.filter_filter]
      simp
    · -- what is gathered for another node does not lead to `n`
      have hothers : (links.filter fun link => link.2 = m).filter (fun link => link.2 = n) = [] := by
        refine List.filter_eq_nil_iff.2 fun link hlink => ?_
        have hlinked : link.2 = m := by simpa using (List.mem_filter.1 hlink).2
        simpa [hlinked] using Ne.symm hm
      rw [hothers, List.nil_append, ih hnodup.2 ((List.mem_cons.1 hn).resolve_left hm)]

/-- Grouping by neighbour keeps the links to each neighbour in their order. -/
theorem filter_groupByNeighbour (links : List (Option String × Node)) (n : Node) :
    (groupByNeighbour links).filter (fun link => link.2 = n) = links.filter fun link => link.2 = n := by
  by_cases hn : n ∈ (links.map Prod.snd).eraseDups
  · exact filter_groups (nodup_eraseDups _) hn links
  · -- no link leads there
    have hnone : ∀ link ∈ links, link.2 ≠ n := by
      rintro link hlink rfl
      exact hn (List.mem_eraseDups.2 (List.mem_map_of_mem hlink))
    rw [List.filter_eq_nil_iff.2 fun link h => by simpa using hnone link (mem_groupByNeighbour.1 h),
      List.filter_eq_nil_iff.2 fun link h => by simpa using hnone link h]

end DependencyQuery.Graph
