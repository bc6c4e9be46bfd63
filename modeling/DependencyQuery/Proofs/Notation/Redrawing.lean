import DependencyQuery.Proofs.Notation.Outlines
import DependencyQuery.Proofs.Walk.Targets

namespace DependencyQuery.Graph

/-!
# Graphs that are written alike

What is written for a graph depends on little of it.

* `WrittenAlike` — two graphs with the same edges out of each node, in the same order, and the same words,
  tags and numbers of edges into each node;
* `WrittenAlike.expandNew`, `WrittenAlike.render` — their nodes have the same outlines, and an outline has
  the same text for both;
* `expandNew_heads` — the outlines at some nodes are those at the heads of these outlines;
* `WrittenAlike.outlines` — so a graph has the same outlines if it declares the heads of them as its roots;
* `groupByNeighbour_idem`, `Unfolds.filter_edges` — the edges that outlines show out of a node are those of
  the graph, in the same order: `filter_shown`.
-/

/-- Whether two graphs differ in nothing that their outlines and labels depend on. -/
structure WrittenAlike (g h : Graph) : Prop where
  nodes : ∀ n, n ∈ h ↔ n ∈ g
  size : h.size = g.size
  dependents : ∀ n, h.dependents n = g.dependents n
  inDegree : ∀ n, h.inDegree n = g.inDegree n
  word : ∀ n, h.word n = g.word n
  tag : ∀ n, h.attribute? n "tag" = g.attribute? n "tag"

variable {g h : Graph} {written : List Node}

/-! ### Outlines -/

/-- The outlines at the heads of some outlines are the same ones again, and further nodes that have been
written by then have none. -/
theorem expandNew_heads (g : Graph) (written ns more : List Node)
    (hmore : more ⊆ (g.expandNew written ns).2) :
    g.expandNew written ((g.expandNew written ns).1.map Outline.node ++ more) = g.expandNew written ns := by
  induction ns generalizing written with
  | nil =>
    have hold : more ⊆ written := hmore
    clear hmore
    -- nodes that have been written add nothing
    induction more with
    | nil => rfl
    | cons n more ih =>
      rw [List.cons_subset] at hold
      exact (if_pos hold.1).trans (ih hold.2)
  | cons n ns ih =>
    rw [expandNew] at hmore ⊢
    by_cases hn : n ∈ written
    · rw [if_pos hn] at hmore ⊢
      exact ih written hmore
    · -- the first outline is that of a new node, and this node is its head
      rw [if_neg hn] at hmore ⊢
      have hhead : (g.expand (g.size + 1) written n).1.node = n := by
        rw [expand, if_neg hn]
        rfl
      have hrest := ih (g.expand (g.size + 1) written n).2 hmore
      simp only [List.map_cons, List.cons_append, hhead]
      rw [expandNew, if_neg hn]
      simp only [hrest]

namespace WrittenAlike

/-- The roots do not matter to how a node is written. -/
theorem setRoots (hgh : g.WrittenAlike h) (roots : List Node) : g.WrittenAlike (h.setRoots roots) :=
  ⟨hgh.nodes, hgh.size, hgh.dependents, hgh.inDegree, hgh.word, hgh.tag⟩

/-- Nodes are expanded alike. -/
theorem expand (hgh : g.WrittenAlike h) (fuel : Nat) (written : List Node) (n : Node) :
    h.expand fuel written n = g.expand fuel written n := by
  induction fuel generalizing written n with
  | zero => rfl
  | succ fuel ih =>
    rw [Graph.expand, Graph.expand, hgh.dependents]
    simp only [ih]

/-- The same nodes have the same outlines. -/
theorem expandNew (hgh : g.WrittenAlike h) (written ns : List Node) :
    h.expandNew written ns = g.expandNew written ns := by
  induction ns generalizing written with
  | nil => rfl
  | cons n ns ih => simp only [Graph.expandNew, hgh.size, hgh.expand, ih]

/-- A graph that declares the heads of the other one's outlines as its roots has the same outlines. -/
theorem outlines (hgh : g.WrittenAlike h) (hroots : ∀ n ∈ g.declared, n ∈ g) (hne : g.outlines ≠ [])
    (hdeclared : h.declared = g.outlines.map Outline.node) : h.outlines = g.outlines := by
  obtain ⟨-, hwritten, -⟩ := expandNew_unfolds g [] _ (mem_of_mem_roots hroots)
  have hhroots : h.roots = g.outlines.map Outline.node := by
    rw [roots, hdeclared, if_neg (by simpa using hne)]
  have hmore : h.nodes ⊆ (g.expandNew [] (g.roots ++ g.nodes)).2 := fun n hn =>
    hwritten n (List.mem_append_right _ ((hgh.nodes n).1 hn))
  rw [Graph.outlines, hhroots, hgh.expandNew]
  exact congrArg Prod.fst (expandNew_heads g [] _ _ hmore)

/-- Nodes are called alike, with an index or without. -/
theorem labelWith (hgh : g.WrittenAlike h) (n : Node) (indexed : Bool) :
    h.labelWith n indexed = g.labelWith n indexed := by
  rw [Graph.labelWith, Graph.labelWith, hgh.word, hgh.tag]

/-- Nodes are called with an index in the same places. -/
theorem label (hgh : g.WrittenAlike h) (n : Node) : h.label n = g.label n := by
  rw [Graph.label, Graph.label, hgh.labelWith, hgh.inDegree]

mutual

/-- An outline has the same text. -/
theorem render (hgh : g.WrittenAlike h) : (outline : Outline) → outline.render h = outline.render g
  | .mention n => by rw [Outline.render, Outline.render, hgh.labelWith]
  | .expansion n [] => by rw [Outline.render, Outline.render, hgh.label]
  | .expansion n (entry :: entries) => by
    rw [Outline.render, Outline.render, hgh.label, renderEntries_eq hgh (entry :: entries)]
    all_goals simp

/-- Entries are written alike. -/
theorem renderEntries_eq (hgh : g.WrittenAlike h) : (entries : List (Option String × Outline)) →
    renderEntries h entries = renderEntries g entries
  | [] => by rw [renderEntries, renderEntries]
  | (label, item) :: rest => by
    rw [renderEntries, renderEntries, render hgh item, renderEntries_eq hgh rest]

end

/-- A graph that declares the heads of the other one's outlines as its roots has the same notation. -/
theorem bracketed? (hgh : g.WrittenAlike h) (hroots : ∀ n ∈ g.declared, n ∈ g) (hne : g.outlines ≠ [])
    (hdeclared : h.declared = g.outlines.map Outline.node) : h.bracketed? = g.bracketed? := by
  have hhroots : ∀ n ∈ h.declared, n ∈ h := by
    intro n hn
    rw [hdeclared, List.mem_map] at hn
    obtain ⟨outline, houtline, rfl⟩ := hn
    obtain ⟨m, hm, entries, rfl⟩ := outlines_expand hroots outline houtline
    exact (hgh.nodes m).2 hm
  rw [bracketed?_eq hhroots, bracketed?_eq hroots, hgh.outlines hroots hne hdeclared]
  simp only [funext hgh.render]

end WrittenAlike

/-! ### Edges -/

/-- What is grouped by neighbour stays as it is when it is grouped again. -/
theorem groupByNeighbour_idem (links : List (Option String × Node)) :
    groupByNeighbour (groupByNeighbour links) = groupByNeighbour links := by
  have htargets := targets_groupByNeighbour links
  show (targets (groupByNeighbour links)).flatMap _ = (targets links).flatMap _
  rw [htargets]
  exact List.flatMap_congr fun n _ => filter_groupByNeighbour links n

namespace Unfolds

variable {after : List Node} {entries : List (Option String × Outline)}

/-- What has been written is not expanded again. -/
theorem not_mem_expandedIn (h : Unfolds g written entries after) {n : Node} (hn : n ∈ written) :
    n ∉ expandedIn entries := by
  induction h with
  | nil => exact List.not_mem_nil
  | mention _ _ ih => simpa [expandedIn, Outline.expanded] using ih hn
  | expansion new _ below _ ihBelow ihMore =>
    have hbelow := ihBelow (List.mem_cons_of_mem _ hn)
    have hmore := ihMore (below.subset (List.mem_cons_of_mem _ hn))
    have hne := ne_of_mem_of_not_mem hn new
    simp [expandedIn, Outline.expanded, hne, hbelow, hmore]

end Unfolds

/-- The edges that entries show out of another node than their own are those in their items. -/
theorem filter_edgesBelow_of_ne {head n : Node} (hne : n ≠ head)
    (entries : List (Option String × Outline)) :
    (edgesBelow head entries).filter (fun e => e.governor = n) =
      (entries.flatMap fun entry => entry.2.edges).filter fun e => e.governor = n := by
  induction entries with
  | nil => rfl
  | cons entry entries ih =>
    rw [edgesBelow, List.flatMap_cons, List.filter_append, List.filter_append,
      List.filter_cons_of_neg (by simpa using hne.symm), ih]

/-- The edges that entries show out of their own node are those to their items, if no item shows one. -/
theorem filter_edgesBelow_head {head : Node} {entries : List (Option String × Outline)}
    (hnone : (entries.flatMap fun entry => entry.2.edges).filter (fun e => e.governor = head) = []) :
    (edgesBelow head entries).filter (fun e => e.governor = head) =
      entries.map fun entry => ⟨head, entry.2.node, entry.1⟩ := by
  induction entries with
  | nil => rfl
  | cons entry entries ih =>
    rw [List.flatMap_cons, List.filter_append, List.append_eq_nil_iff] at hnone
    rw [edgesBelow, List.filter_append, hnone.1, List.filter_cons_of_pos (by simp), ih hnone.2]
    rfl

/-- Items show the edges out of a node that one of them expands, in their order, and of no other. -/
theorem Unfolds.filter_edges {after : List Node} {entries : List (Option String × Outline)}
    (h : Unfolds g written entries after) (n : Node) :
    (entries.flatMap fun entry => entry.2.edges).filter (fun e => e.governor = n) =
      if n ∈ expandedIn entries then g.outgoing n else [] := by
  induction h with
  | nil => rfl
  | mention _ _ ih =>
    rw [List.flatMap_cons, Outline.edges, List.nil_append, ih]
    rfl
  | @expansion written inner _ m _ entries rest new all below more ihBelow ihMore =>
    -- no node is expanded twice, so that its edges are shown in one place only
    have hinner : ∀ k ∈ m :: expandedIn entries, k ∉ expandedIn rest := by
      intro k hk
      refine more.not_mem_expandedIn ?_
      rw [below.after_eq]
      rcases List.mem_cons.1 hk with rfl | hk
      · simp
      · simp [hk]
    have hown : m ∉ expandedIn entries := below.not_mem_expandedIn List.mem_cons_self
    rw [List.flatMap_cons, List.filter_append, ihMore, Outline.edges, expandedIn, Outline.expanded]
    by_cases hn : n = m
    · -- the edges out of the node itself are those of its entries, as it is not expanded again
      subst hn
      rw [if_neg hown] at ihBelow
      have houtgoing : g.outgoing n = entries.map fun entry => ⟨n, entry.2.node, entry.1⟩ := by
        rw [outgoing, ← all, List.map_map]
        rfl
      rw [filter_edgesBelow_head ihBelow, if_neg (hinner n List.mem_cons_self), if_pos (by simp),
        houtgoing, List.append_nil]
    · rw [filter_edgesBelow_of_ne hn, ihBelow]
      by_cases hbelow : n ∈ expandedIn entries
      · rw [if_pos hbelow, if_neg (hinner n (List.mem_cons_of_mem _ hbelow)), if_pos (by simp [hbelow]),
          List.append_nil]
      · simp [hbelow, hn]

/-- The edges that the outlines of a graph show out of a node are those out of it, in the same order. -/
theorem filter_shown (hroots : ∀ n ∈ g.declared, n ∈ g) (n : Node) :
    (g.shown.filter fun e => e.governor = n) = g.outgoing n := by
  have hunfolds := unfolds_outlines hroots
  have hexpanded : n ∈ expandedIn (g.outlines.map (Prod.mk none)) ↔ n ∈ g := by
    rw [expandedIn_outlines]
    exact (order_perm_nodes hroots).mem_iff
  have hshown : g.shown =
      (g.outlines.map (Prod.mk (none : Option String))).flatMap fun entry => entry.2.edges := by
    rw [List.flatMap_map]
    rfl
  rw [hshown, hunfolds.filter_edges]
  by_cases hn : n ∈ g
  · rw [if_pos (hexpanded.2 hn)]
  · -- a node that the graph does not have has no edges
    have hnone : g.dependents n = [] := by
      refine List.eq_nil_iff_forall_not_mem.2 fun link hlink => hn ?_
      exact (g.closed _ (mem_dependents.1 hlink)).1
    rw [if_neg (hexpanded.not.2 hn), outgoing, hnone]
    rfl

end DependencyQuery.Graph
