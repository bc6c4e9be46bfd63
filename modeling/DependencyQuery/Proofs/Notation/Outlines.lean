import DependencyQuery.Graph.Lemmas
import DependencyQuery.Graph.Notation.Writer
import Mathlib.Data.List.Nodup
import Mathlib.Data.List.Perm.Basic

namespace DependencyQuery

open scoped List

/-!
# What the outlines of a graph hold

* `Outline.expanded`, `Outline.mentions`, `Outline.edges` — the nodes that an outline expands, those it
  mentions, and the edges it shows, all in the order of the text;
* `Graph.Unfolds` — entries one after another, each node expanded where it is met first;
* `Graph.expand_unfolds` — a node is expanded like that if the depth exceeds the number of nodes still to
  be written, as it does for `Graph.outlines`: `unfolds_outlines`;
* `bracketed?_eq` — the text of a graph is that of its outlines;
* `order_perm_nodes`, `shown_perm_edges` — the outlines of a graph expand each of its nodes once and show
  each of its edges once.
-/

/-- The node that an outline is about. -/
def Outline.node : Outline → Node
  | .mention n => n
  | .expansion n _ => n

/-- A mention is about the node that it mentions. -/
@[simp] theorem Outline.node_mention (n : Node) : (mention n).node = n := rfl

/-- An expansion is about the node that it expands. -/
@[simp] theorem Outline.node_expansion (n : Node) (entries : List (Option String × Outline)) :
    (expansion n entries).node = n := rfl

mutual

/-- The nodes that an outline expands, each before those below it. -/
def Outline.expanded : Outline → List Node
  | .mention _ => []
  | .expansion n entries => n :: expandedIn entries

/-- The nodes that entries expand. -/
def expandedIn : List (Option String × Outline) → List Node
  | [] => []
  | (_, item) :: rest => item.expanded ++ expandedIn rest

end

mutual

/-- The nodes that an outline mentions after they have been written. -/
def Outline.mentions : Outline → List Node
  | .mention n => [n]
  | .expansion _ entries => mentionsIn entries

/-- The nodes that entries mention after they have been written. -/
def mentionsIn : List (Option String × Outline) → List Node
  | [] => []
  | (_, item) :: rest => item.mentions ++ mentionsIn rest

end

mutual

/-- The edges that an outline shows, each where its item ends. -/
def Outline.edges : Outline → List Edge
  | .mention _ => []
  | .expansion n entries => edgesBelow n entries

/-- The edges that the entries of a node show. -/
def edgesBelow (head : Node) : List (Option String × Outline) → List Edge
  | [] => []
  | (label, item) :: rest => item.edges ++ ⟨head, item.node, label⟩ :: edgesBelow head rest

end

/-- Outlines without labels expand what each of them expands. -/
theorem expandedIn_outlines (outlines : List Outline) :
    expandedIn (outlines.map (Prod.mk none)) = outlines.flatMap Outline.expanded := by
  induction outlines with
  | nil => rfl
  | cons outline outlines ih => rw [List.map_cons, List.flatMap_cons, expandedIn, ih]

namespace Graph

variable {g : Graph} {written after : List Node} {entries : List (Option String × Outline)}

/-- The edges out of a node, in the order in which its entries show them. -/
def outgoing (g : Graph) (n : Node) : List Edge :=
  (g.dependents n).map fun link => ⟨n, link.2, link.1⟩

/-- The nodes of a graph in the order in which its outlines expand them. -/
def order (g : Graph) : List Node := g.outlines.flatMap Outline.expanded

/-- The edges of a graph in the order in which its outlines show them. -/
def shown (g : Graph) : List Edge := g.outlines.flatMap Outline.edges

/-- The nodes that the outlines of a graph mention after they have been written. -/
def mentioned (g : Graph) : List Node := g.outlines.flatMap Outline.mentions

/-- Entries that are written one after another, where some nodes have been written before and some are
after: a node is only mentioned if it has been written, and else it is expanded, with an entry for each
edge out of it.  Nodes are listed the latest first. -/
inductive Unfolds (g : Graph) : List Node → List (Option String × Outline) → List Node → Prop
  | nil {written : List Node} : Unfolds g written [] written
  | mention {written after : List Node} {n : Node} {label : Option String}
      {rest : List (Option String × Outline)} (old : n ∈ written) (more : Unfolds g written rest after) :
      Unfolds g written ((label, .mention n) :: rest) after
  | expansion {written inner after : List Node} {n : Node} {label : Option String}
      {entries rest : List (Option String × Outline)} (new : n ∉ written)
      (all : entries.map (fun entry => (entry.1, entry.2.node)) = g.dependents n)
      (below : Unfolds g (n :: written) entries inner) (more : Unfolds g inner rest after) :
      Unfolds g written ((label, .expansion n entries) :: rest) after

/-- The entries of a node stand for edges out of it. -/
theorem mem_edges_of_entry {n : Node}
    (all : entries.map (fun entry => (entry.1, entry.2.node)) = g.dependents n) :
    ∀ entry ∈ entries, ⟨n, entry.2.node, entry.1⟩ ∈ g.edges := by
  intro entry hentry
  rw [← mem_dependents, ← all]
  exact List.mem_map_of_mem hentry

namespace Unfolds

/-- An item and what comes after it. -/
theorem cons {inner : List Node} {label : Option String} {item : Outline}
    (first : Unfolds g written [(label, item)] inner) (more : Unfolds g inner entries after) :
    Unfolds g written ((label, item) :: entries) after := by
  cases first with
  | mention old rest =>
    cases rest
    exact .mention old more
  | expansion new all below rest =>
    cases rest
    exact .expansion new all below more

/-- What is written afterwards is what was written before and what the entries expand. -/
theorem after_eq (h : Unfolds g written entries after) :
    after = (expandedIn entries).reverse ++ written := by
  induction h with
  | nil => rfl
  | mention old more ih => exact ih
  | expansion new all below more ihBelow ihMore =>
    rw [ihMore, ihBelow]
    simp [expandedIn, Outline.expanded]

/-- What was written before stays written. -/
theorem subset (h : Unfolds g written entries after) : written ⊆ after := by
  rw [h.after_eq]
  exact List.subset_append_right _ _

/-- In the order of the text, what was written before comes first. -/
theorem prefix_reverse (h : Unfolds g written entries after) : written.reverse <+: after.reverse := by
  rw [h.after_eq, List.reverse_append]
  exact List.prefix_append _ _

/-- No node is expanded twice. -/
theorem nodup (h : Unfolds g written entries after) (hwritten : written.Nodup) : after.Nodup := by
  induction h with
  | nil => exact hwritten
  | mention old more ih => exact ih hwritten
  | expansion new all below more ihBelow ihMore =>
    exact ihMore (ihBelow (List.nodup_cons.2 ⟨new, hwritten⟩))

/-- Only nodes of the graph are expanded, if the entries are about its nodes. -/
theorem mem_graph (h : Unfolds g written entries after) (hentries : ∀ entry ∈ entries, entry.2.node ∈ g)
    (hwritten : ∀ n ∈ written, n ∈ g) : ∀ n ∈ after, n ∈ g := by
  induction h with
  | nil => exact hwritten
  | mention old more ih => exact ih (fun entry h => hentries entry (List.mem_cons_of_mem _ h)) hwritten
  | @expansion _ _ _ n _ entries _ new all below more ihBelow ihMore =>
    have hn : n ∈ g := hentries _ List.mem_cons_self
    have hbelow : ∀ entry ∈ entries, entry.2.node ∈ g := fun entry h =>
      (g.closed _ (mem_edges_of_entry all entry h)).2
    exact ihMore (fun entry h => hentries entry (List.mem_cons_of_mem _ h))
      (ihBelow hbelow (List.forall_mem_cons.2 ⟨hn, hwritten⟩))

/-- The entries of a node show the edges to their items, and those out of the nodes they expand. -/
theorem edgesBelow_perm (h : Unfolds g written entries after) (head : Node) :
    edgesBelow head entries ~
      entries.map (fun entry => ⟨head, entry.2.node, entry.1⟩) ++
        (expandedIn entries).flatMap g.outgoing := by
  induction h generalizing head with
  | nil => exact .refl _
  | mention old more ih =>
    simpa [edgesBelow, expandedIn, Outline.edges, Outline.expanded] using ih head
  | @expansion _ _ _ n label entries rest new all below more ihBelow ihMore =>
    have hown : entries.map (fun entry => (⟨n, entry.2.node, entry.1⟩ : Edge)) = g.outgoing n := by
      rw [outgoing, ← all, List.map_map]
      rfl
    have hbelow : edgesBelow n entries ~ (n :: expandedIn entries).flatMap g.outgoing := by
      rw [List.flatMap_cons, ← hown]
      exact ihBelow n
    -- the edge to the item is shown after those below it, and its own node comes before both
    have hsplit : (n :: (expandedIn entries ++ expandedIn rest)).flatMap g.outgoing =
        (n :: expandedIn entries).flatMap g.outgoing ++ (expandedIn rest).flatMap g.outgoing := by
      rw [← List.cons_append, List.flatMap_append]
    simp only [edgesBelow, Outline.edges, Outline.node_expansion, expandedIn, Outline.expanded,
      List.map_cons, List.cons_append]
    rw [hsplit]
    refine List.perm_middle.trans (.cons _ ?_)
    exact (hbelow.append (ihMore head)).trans (List.perm_append_comm_assoc _ _ _)

end Unfolds

/-! ### Unfolding a graph -/

/-- The number of nodes that have not been written yet. -/
def unwritten (g : Graph) (written : List Node) : Nat := (g.nodes.filter (· ∉ written)).length

/-- No more nodes are to be written than the graph has. -/
theorem unwritten_le_size (g : Graph) (written : List Node) : g.unwritten written ≤ g.size := by
  have := List.length_filter_le (fun n => decide (n ∉ written)) g.nodes
  simpa [unwritten, nodes, size] using this

/-- The more nodes have been written, the fewer are left. -/
theorem unwritten_anti (h : written ⊆ after) : g.unwritten after ≤ g.unwritten written := by
  refine List.Sublist.length_le (List.monotone_filter_right _ fun n hn => ?_)
  simp only [decide_eq_true_eq] at hn ⊢
  exact fun hw => hn (h hw)

/-- After a new node one less is left. -/
theorem unwritten_cons_lt {n : Node} (hn : n ∈ g) (hw : n ∉ written) :
    g.unwritten (n :: written) < g.unwritten written := by
  have hsplit : g.nodes.filter (· ∉ n :: written) = (g.nodes.filter (· ∉ written)).filter (· ≠ n) := by
    rw [List.filter_filter]
    refine List.filter_congr fun m _ => ?_
    simp [List.mem_cons, not_or]
  rw [unwritten, hsplit, unwritten]
  refine List.length_filter_lt_length_iff_exists.2 ⟨n, ?_, by simp⟩
  exact List.mem_filter.2 ⟨hn, by simpa using hw⟩

/-- A node unfolds if the depth exceeds the number of nodes still to be written. -/
theorem expand_unfolds (g : Graph) (fuel : Nat) (written : List Node) (n : Node) (label : Option String)
    (hn : n ∈ g) (hfuel : g.unwritten written < fuel) :
    (g.expand fuel written n).1.node = n ∧
      Unfolds g written [(label, (g.expand fuel written n).1)] (g.expand fuel written n).2 := by
  induction fuel generalizing written n label with
  | zero => omega
  | succ fuel ih =>
    rw [expand]
    split
    · next old => exact ⟨rfl, .mention old .nil⟩
    · next new =>
      have hless := unwritten_cons_lt hn new
      -- the entries of the node, each with what the ones before it have left
      have hentries : ∀ (links : List (Option String × Node)) (seen : List Node),
          (∀ link ∈ links, link.2 ∈ g) → g.unwritten seen < fuel →
          let entries := threadMap
            (fun written link => ((link.1, (g.expand fuel written link.2).1),
              (g.expand fuel written link.2).2)) seen links
          entries.1.map (fun entry => (entry.1, entry.2.node)) = links ∧
            Unfolds g seen entries.1 entries.2 := by
        intro links
        induction links with
        | nil => exact fun seen _ _ => ⟨rfl, .nil⟩
        | cons link links ihLinks =>
          intro seen hlinks hseen
          rw [List.forall_mem_cons] at hlinks
          obtain ⟨hnode, hfirst⟩ := ih seen link.2 link.1 hlinks.1 hseen
          have hmore := unwritten_anti (g := g) hfirst.subset
          obtain ⟨hnodes, hrest⟩ := ihLinks _ hlinks.2 (Nat.lt_of_le_of_lt hmore hseen)
          refine ⟨?_, hfirst.cons hrest⟩
          simp only [threadMap, List.map_cons, hnode, hnodes]
      have hlinks : ∀ link ∈ g.dependents n, link.2 ∈ g := fun link h =>
        (g.closed _ (mem_dependents.1 h)).2
      obtain ⟨hnodes, hbelow⟩ := hentries (g.dependents n) (n :: written) hlinks (by omega)
      exact ⟨rfl, .expansion new hnodes hbelow .nil⟩

/-- The outlines at some nodes unfold, and are those of all of them that have not been written. -/
theorem expandNew_unfolds (g : Graph) (written ns : List Node) (hns : ∀ n ∈ ns, n ∈ g) :
    Unfolds g written ((g.expandNew written ns).1.map (Prod.mk none)) (g.expandNew written ns).2 ∧
      (∀ n ∈ ns, n ∈ (g.expandNew written ns).2) ∧
      ∀ outline ∈ (g.expandNew written ns).1, ∃ n ∈ ns, ∃ entries, outline = .expansion n entries := by
  induction ns generalizing written with
  | nil => exact ⟨.nil, by simp, by simp [expandNew]⟩
  | cons n ns ih =>
    rw [List.forall_mem_cons] at hns
    rw [expandNew]
    split
    · next old =>
      -- an earlier outline has reached the node, so that it has none of its own
      obtain ⟨hall, hmem, hheads⟩ := ih written hns.2
      refine ⟨hall, List.forall_mem_cons.2 ⟨hall.subset old, hmem⟩, fun outline ho => ?_⟩
      obtain ⟨m, hm, hentries⟩ := hheads outline ho
      exact ⟨m, List.mem_cons_of_mem _ hm, hentries⟩
    · next new =>
      have hfuel : g.unwritten written < g.size + 1 := Nat.lt_succ_of_le (g.unwritten_le_size written)
      obtain ⟨hnode, hfirst⟩ := expand_unfolds g (g.size + 1) written n none hns.1 hfuel
      obtain ⟨hall, hmem, hheads⟩ := ih (g.expand (g.size + 1) written n).2 hns.2
      have hhead : ∃ entries, (g.expand (g.size + 1) written n).1 = .expansion n entries := by
        rw [expand, if_neg new]
        exact ⟨_, rfl⟩
      have hwritten : n ∈ (g.expand (g.size + 1) written n).2 := by
        obtain ⟨entries, hentries⟩ := hhead
        rw [hfirst.after_eq, hentries]
        simp [expandedIn, Outline.expanded]
      refine ⟨hfirst.cons hall, List.forall_mem_cons.2 ⟨hall.subset hwritten, hmem⟩, ?_⟩
      refine List.forall_mem_cons.2 ⟨⟨n, List.mem_cons_self, hhead⟩, fun outline ho => ?_⟩
      obtain ⟨m, hm, hentries⟩ := hheads outline ho
      exact ⟨m, List.mem_cons_of_mem _ hm, hentries⟩

section

variable (hroots : ∀ n ∈ g.declared, n ∈ g)
include hroots

/-- All nodes at which outlines begin belong to the graph. -/
theorem mem_of_mem_roots : ∀ n ∈ g.roots ++ g.nodes, n ∈ g := by
  intro n hn
  rcases List.mem_append.1 hn with hn | hn
  · unfold roots at hn
    split at hn
    · exact (List.mem_filter.1 hn).1
    · exact hroots n hn
  · exact hn

omit hroots in
/-- The edges out of a node are those of the graph that begin there. -/
theorem outgoing_perm (g : Graph) (n : Node) :
    g.outgoing n ~ g.edges.filter fun e => e.governor = n := by
  have hperm := (groupByNeighbour_perm
    ((g.edges.filter fun e => e.governor = n).map fun e => (e.label, e.dependent))).map
    fun link => (⟨n, link.2, link.1⟩ : Edge)
  have hedges : ((g.edges.filter fun e => e.governor = n).map fun e => (e.label, e.dependent)).map
      (fun link => (⟨n, link.2, link.1⟩ : Edge)) = g.edges.filter fun e => e.governor = n := by
    rw [List.map_map]
    conv_rhs => rw [← List.map_id (g.edges.filter fun e => e.governor = n)]
    refine List.map_congr_left fun e he => ?_
    rw [List.mem_filter, decide_eq_true_eq] at he
    obtain ⟨-, rfl⟩ := he
    rfl
  rw [hedges] at hperm
  exact hperm

/-- The outlines of a graph unfold. -/
theorem unfolds_outlines : Unfolds g [] (g.outlines.map (Prod.mk none)) g.order.reverse := by
  obtain ⟨hall, -, -⟩ := expandNew_unfolds g [] _ (mem_of_mem_roots hroots)
  have hafter := hall.after_eq
  rw [expandedIn_outlines, List.append_nil] at hafter
  rwa [hafter] at hall

/-- Each outline of a graph expands a node of it. -/
theorem outlines_expand : ∀ outline ∈ g.outlines, ∃ n ∈ g, ∃ entries, outline = .expansion n entries := by
  intro outline ho
  obtain ⟨-, -, hheads⟩ := expandNew_unfolds g [] _ (mem_of_mem_roots hroots)
  obtain ⟨n, hn, hentries⟩ := hheads outline ho
  exact ⟨n, mem_of_mem_roots hroots n hn, hentries⟩

/-- The text of a graph whose declared roots are nodes of it. -/
theorem bracketed?_eq :
    g.bracketed? = .ok (String.ofList ([' '].intercalate (g.outlines.map (Outline.render g)))) := by
  have hfind : (g.roots.find? fun n => n ∉ g) = none := by
    rw [List.find?_eq_none]
    intro n hn
    simpa using mem_of_mem_roots hroots n (List.mem_append_left _ hn)
  rw [bracketed?, hfind]

/-- The outlines of a graph expand each of its nodes once. -/
theorem order_perm_nodes : g.order ~ g.nodes := by
  have hunfolds := unfolds_outlines hroots
  obtain ⟨hall, hmem, -⟩ := expandNew_unfolds g [] _ (mem_of_mem_roots hroots)
  have hafter : (g.expandNew [] (g.roots ++ g.nodes)).2 = g.order.reverse :=
    hall.after_eq.trans hunfolds.after_eq.symm
  -- neither list repeats a node, so it is enough that they have the same ones
  refine (List.perm_ext_iff_of_nodup ?_ g.nodup).2 fun n => ?_
  · exact List.nodup_reverse.1 (hunfolds.nodup List.nodup_nil)
  · refine ⟨fun h => ?_, fun h => ?_⟩
    · refine hunfolds.mem_graph (fun entry hentry => ?_) (by simp) n (List.mem_reverse.2 h)
      obtain ⟨outline, ho, rfl⟩ := List.mem_map.1 hentry
      obtain ⟨m, hm, entries, rfl⟩ := outlines_expand hroots outline ho
      exact hm
    · rw [← List.mem_reverse, ← hafter]
      exact hmem n (List.mem_append_right _ h)

/-- The outlines of a graph show each of its edges once. -/
theorem shown_perm_edges : g.shown ~ g.edges := by
  -- seen as entries of a further node, the outlines show the edges out of it besides
  have hbelow : ∀ (head : Node) (outlines : List Outline),
      edgesBelow head (outlines.map (Prod.mk none)) ~
        outlines.map (fun outline => ⟨head, outline.node, none⟩) ++
          outlines.flatMap Outline.edges := by
    intro head outlines
    induction outlines with
    | nil => exact .refl _
    | cons outline outlines ih =>
      simp only [List.map_cons, edgesBelow, List.flatMap_cons, List.cons_append]
      refine List.perm_middle.trans (.cons _ ?_)
      exact (ih.append_left _).trans (List.perm_append_comm_assoc _ _ _)
  have hunfolds := unfolds_outlines hroots
  have hexpanded : expandedIn (g.outlines.map (Prod.mk none)) = g.order := expandedIn_outlines g.outlines
  have hperm := (hbelow (.index 0) g.outlines).symm.trans (hunfolds.edgesBelow_perm (.index 0))
  rw [hexpanded, List.map_map] at hperm
  calc g.shown
      ~ g.order.flatMap g.outgoing := (List.perm_append_left_iff _).1 hperm
    _ ~ g.nodes.flatMap fun n => g.edges.filter fun e => e.governor = n :=
      (order_perm_nodes hroots).flatMap fun n _ => outgoing_perm g n
    _ ~ g.edges := flatMap_filter_perm g.nodup fun e he => (g.closed e he).1

end

end Graph

end DependencyQuery
