import DependencyQuery.Graph.Input
import DependencyQuery.Graph.Lookup
import DependencyQuery.Proofs.Graph.Views
import DependencyQuery.Proofs.Request.Fields
import Mathlib.Data.List.Nodup

namespace DependencyQuery

open Payload

/-!
# Graphs from nodes and edges that are given as data

Data are checked before a graph is built from them, and the graph shows what they say: nothing is lost on the
way, and nothing comes to it.

* `GraphData.IsRead` — whether data have the right shape, `GraphData.Sound` — whether the nodes in them are
  distinct and all that they refer to is there; `fault?_eq_none_iff` — just then no rule is broken;
* `NodeData.field`, `GraphData.labels`, `GraphData.ungoverned` — what data say of a node, of the edges from one
  node to another, and which nodes in them nothing governs;
* `GraphData.calls` — the calls that build the graph, `ofData_eq_built` — none of which is refused;
* `attribute?_built_nodes` — distinct nodes keep their fields apart;
* `Graph.Shows` — what a graph shows of data, `ofPayload_shows` — for each graph that is built from a payload.
-/

/-! ### Data -/

/-- Whether a payload has the shape of graph data, and reads as these. -/
def GraphData.IsRead (payload : Datum) (d : GraphData) : Prop :=
  ∃ fields, payload = .map fields ∧
    withDefault fields "nodes" [] (listOf NodeData.check) = .ok d.nodes ∧
    withDefault fields "edges" [] (listOf EdgeData.check) = .ok d.edges ∧
    withDefault fields "roots" [] (listOf integer) = .ok d.roots

/-- The nodes are distinct, and edges and roots refer to them. -/
structure GraphData.Sound (d : GraphData) : Prop where
  distinct : d.indices.Nodup
  ends : ∀ e ∈ d.edges, e.governor ∈ d.indices ∧ e.dependent ∈ d.indices
  roots : ∀ r ∈ d.roots, r ∈ d.indices

/-- What data say of a node under a key.  Its value is its word unless it has another one. -/
def NodeData.field (n : NodeData) (key : String) : Option String :=
  match key with
  | "word" => some n.word
  | "value" => some (n.value.getD n.word)
  | "lemma" => n.base
  | "tag" => n.tag
  | "ner" => n.entity
  | _ => none

/-- The labels of the edges from one node to another, in their order. -/
def GraphData.labels (d : GraphData) (governor dependent : Node) : List (Option String) :=
  (d.edges.filter fun e => Node.index e.governor = governor ∧ Node.index e.dependent = dependent).map
    fun e => some e.relation

/-- The indices of the nodes that are nobody's dependents, in their order. -/
def GraphData.ungoverned (d : GraphData) : List Int :=
  d.indices.filter fun index => ∀ e ∈ d.edges, e.dependent ≠ index

/-- What a graph shows of the data that it was built from. -/
structure Graph.Shows (g : Graph) (d : GraphData) : Prop where
  nodes : g.nodes = d.indices.map Node.index
  fields : ∀ n ∈ d.nodes, ∀ key, g.attributeOf (.index n.index) key = .ok (n.field key)
  dependents : ∀ a b, ((g.dependents a).filter fun link => link.2 = b).map Prod.fst = d.labels a b
  governors : ∀ a b, ((g.governors b).filter fun link => link.2 = a).map Prod.fst = d.labels a b
  roots : g.roots = (if d.roots = [] then d.ungoverned else d.roots).map Node.index

variable {payload : Datum} {d : GraphData}

/-! ### Checks -/

/-- No index is told as repeated just if none occurs twice, or among those seen before. -/
theorem firstRepeated?_eq_none_iff {seen indices : List Int} :
    firstRepeated? seen indices = none ↔ indices.Nodup ∧ ∀ n ∈ indices, n ∉ seen := by
  induction indices generalizing seen with
  | nil => simp [firstRepeated?]
  | cons n rest ih =>
    rw [firstRepeated?, List.nodup_cons, List.forall_mem_cons]
    by_cases hn : n ∈ seen
    · simp [hn]
    · rw [if_neg hn, ih]
      simp only [List.mem_cons, not_or]
      constructor
      · rintro ⟨hrest, hothers⟩
        exact ⟨⟨fun h => (hothers n h).1 rfl, hrest⟩, hn, fun m hm => (hothers m hm).2⟩
      · rintro ⟨⟨hnew, hrest⟩, -, hothers⟩
        exact ⟨hrest, fun m hm => ⟨ne_of_mem_of_not_mem hm hnew, hothers m hm⟩⟩

namespace GraphData

/-- The data have no fault just if they are sound. -/
theorem fault?_eq_none_iff : d.fault? = none ↔ d.Sound := by
  simp only [fault?, Option.or_eq_none_iff, Option.map_eq_none_iff, firstRepeated?_eq_none_iff,
    List.find?_eq_none, decide_eq_true_eq, not_not, List.forall_mem_flatMap, List.forall_mem_cons]
  constructor
  · rintro ⟨⟨hdistinct, -⟩, hends, hroots⟩
    exact ⟨hdistinct, fun e he => ⟨(hends e he).1, (hends e he).2.1⟩, hroots⟩
  · rintro ⟨hdistinct, hends, hroots⟩
    exact ⟨⟨hdistinct, fun _ _ => List.not_mem_nil⟩,
      fun e he => ⟨(hends e he).1, (hends e he).2, List.forall_mem_nil _⟩, hroots⟩

/-- Data of the right shape pass the check if no rule is broken. -/
theorem check_of_isRead (h : d.IsRead payload) :
    GraphData.check payload = match d.fault? with
      | some fault => .fail (.rule fault.message)
      | none => .ok d := by
  obtain ⟨fields, rfl, hnodes, hedges, hroots⟩ := h
  rw [GraphData.check, hnodes, hedges, hroots]
  rfl

/-- A payload is accepted just if it is read without a fault and the data are sound. -/
theorem check_eq_ok_iff : GraphData.check payload = .ok d ↔ d.IsRead payload ∧ d.Sound := by
  constructor
  · intro h
    have hcheck := h
    unfold GraphData.check at h
    split at h
    · next fields =>
      obtain ⟨d', hd, h⟩ := Steps.bind_eq_ok h
      obtain ⟨f₂, roots, h₂, hroots, rfl⟩ := Checked.ap_eq_ok hd
      obtain ⟨f₁, edges, h₁, hedges, rfl⟩ := Checked.ap_eq_ok h₂
      obtain ⟨nodes, hnodes, rfl⟩ := Steps.map_eq_ok h₁
      split at h
      · cases h
      · next hnone =>
        cases h
        exact ⟨⟨fields, rfl, hnodes, hedges, hroots⟩, fault?_eq_none_iff.1 hnone⟩
    · cases h
  · rintro ⟨hread, hsound⟩
    rw [check_of_isRead hread, fault?_eq_none_iff.2 hsound]

end GraphData

/-! ### Calls -/

/-- The call that adds a node. -/
def NodeData.call (n : NodeData) : Graph.Call := .node (.index n.index) n.word n.attributes

/-- The call that adds an edge. -/
def EdgeData.call (e : EdgeData) : Graph.Call :=
  .edge (.index e.governor) (.index e.dependent) (some e.relation)

/-- The calls that build a graph from data. -/
def GraphData.calls (d : GraphData) : List Graph.Call :=
  d.nodes.map NodeData.call ++ d.edges.map EdgeData.call ++ [.roots (d.roots.map Node.index)]

/-- Adding the node is never refused. -/
theorem NodeData.accepted_call (n : NodeData) : n.call.accepted "word" = true := by
  -- it depends on the keys alone, and so on which of the four fields are there
  obtain ⟨index, word, value, base, tag, entity⟩ := n
  cases value <;> cases base <;> cases tag <;> cases entity <;> rfl

namespace Graph

/-- Steps that make calls succeed where none of these is refused, and lead to what the calls make of a graph. -/
theorem foldlM_calls {α : Type} (call : α → Call) (step : Graph → α → Except Refusal Graph) {key : String}
    (hstep : ∀ g item, step g item =
      match g.call? (call item) with
      | some h => .ok h
      | none => .error .keyClash)
    {items : List α} (haccepted : ∀ item ∈ items, (call item).accepted key = true) (calls : List Call) :
    items.foldlM step (built key calls) = .ok (built key (calls ++ items.map call)) := by
  induction items generalizing calls with
  | nil => rw [List.map_nil, List.append_nil]; rfl
  | cons item rest ih =>
    rw [List.forall_mem_cons] at haccepted
    have h := tallies_built key calls
    -- an accepted call is never refused, whatever has been built before it
    have hsome : ((built key calls).call? (call item)).isSome = true := by
      rw [isSome_call? h.labelKey, h.wordKey, haccepted.1]
    obtain ⟨g, hg⟩ := Option.isSome_iff_exists.1 hsome
    have hnext : step (built key calls) item = .ok (built key (calls ++ [call item])) := by
      rw [hstep, hg, built_concat, after, hg, Option.getD_some]
    rw [List.foldlM_cons, hnext, Steps.ok_bind, ih haccepted.2, List.map_cons, List.append_assoc]
    rfl

/-- The graph is what the calls for its nodes and edges build. -/
theorem ofData_eq_built (d : GraphData) : ofData {} d = .ok (built "word" d.calls) := by
  have hnodes : d.nodes.foldlM addNodeData (built "word" []) = .ok (built "word" (d.nodes.map NodeData.call)) :=
    foldlM_calls NodeData.call addNodeData (fun _ _ => rfl) (fun n _ => n.accepted_call) []
  have hedges : d.edges.foldlM addEdgeData (built "word" (d.nodes.map NodeData.call)) =
      .ok (built "word" (d.nodes.map NodeData.call ++ d.edges.map EdgeData.call)) :=
    foldlM_calls EdgeData.call addEdgeData (fun _ _ => rfl) (fun _ _ => rfl) _
  have hempty : empty (Settings.wordKey {}) true (Settings.relationKey {}) = built "word" [] := rfl
  rw [ofData, hempty, hnodes, Steps.ok_bind, hedges, Steps.ok_bind, GraphData.calls, built_concat]
  rfl

end Graph

/-! ### Fields -/

/-- Without the attributes that have no value, the others keep theirs. -/
theorem join_lookup_filter {attributes : Attributes} (hkeys : (attributes.map Prod.fst).Nodup) (key : String) :
    ((attributes.filter (·.2.isSome)).lookup key).join = (attributes.lookup key).join := by
  induction attributes with
  | nil => rfl
  | cons entry rest ih =>
    obtain ⟨k, value⟩ := entry
    rw [List.map_cons, List.nodup_cons] at hkeys
    have hrest := ih hkeys.2
    cases value with
    | some value =>
      rw [List.filter_cons_of_pos rfl, List.lookup_cons, List.lookup_cons]
      split
      · rfl
      · exact hrest
    | none =>
      rw [List.filter_cons_of_neg Bool.false_ne_true, hrest, List.lookup_cons]
      split
      · next hkey =>
        -- no other attribute has the key
        rw [eq_of_beq hkey, List.lookup_eq_none_iff.2]
        · rfl
        · intro other hother
          rw [bne_iff_ne]
          exact fun hsame => hkeys.1 (List.mem_map.2 ⟨other, hother, hsame.symm⟩)
      · rfl

/-- A value that is given takes precedence over the word. -/
theorem NodeData.getD_lookup_value (n : NodeData) :
    (n.attributes.lookup "value").getD (some n.word) = some (n.value.getD n.word) := by
  obtain ⟨index, word, value, base, tag, entity⟩ := n
  cases value <;> cases base <;> cases tag <;> cases entity <;> rfl

/-- What a node has under a key, once its word and its value are put before its attributes, is its field. -/
theorem NodeData.join_lookup (n : NodeData) (key : String) :
    ((("word", some n.word) :: ("value", (n.attributes.lookup "value").getD (some n.word)) ::
      n.attributes).lookup key).join = n.field key := by
  -- a field without a value is not kept at all, which looks the same from outside
  have hattributes : ∀ key, (n.attributes.lookup key).join =
      (List.lookup key [("value", n.value), ("lemma", n.base), ("tag", n.tag), ("ner", n.entity)]).join := by
    refine join_lookup_filter ?_
    show ["value", "lemma", "tag", "ner"].Nodup
    decide
  rw [getD_lookup_value]
  unfold field
  split
  · rfl
  · rfl
  · exact hattributes "lemma"
  · exact hattributes "tag"
  · exact hattributes "ner"
  · next hword hvalue hlemma htag hner =>
    have hnone : List.lookup key [("value", n.value), ("lemma", n.base), ("tag", n.tag), ("ner", n.entity)] =
        none := by
      simp only [List.lookup_cons, List.lookup_nil, beq_false_of_ne hvalue, beq_false_of_ne hlemma,
        beq_false_of_ne htag, beq_false_of_ne hner]
    rw [List.lookup_cons, beq_false_of_ne hword, List.lookup_cons, beq_false_of_ne hvalue]
    exact (hattributes key).trans (congrArg Option.join hnone)

/-! ### The graph -/

/-- The call for a node mentions its index alone. -/
theorem NodeData.mentions_call (n : NodeData) : n.call.mentions "word" = [.index n.index] :=
  if_pos n.accepted_call

namespace Graph

/-- The calls for the nodes mention their indices, in their order. -/
theorem flatMap_mentions_nodes (nodes : List NodeData) :
    (nodes.map NodeData.call).flatMap (Call.mentions "word") = (nodes.map (·.index)).map Node.index := by
  rw [List.flatMap_map, List.map_map, List.flatMap_congr fun n _ => n.mentions_call]
  exact List.flatMap_pure_eq_map ..

/-- Every node keeps its own fields, as no other one has its index. -/
theorem attribute?_built_nodes {nodes : List NodeData} (hdistinct : (nodes.map (·.index)).Nodup) {n : NodeData}
    (hn : n ∈ nodes) (key : String) :
    (built "word" (nodes.map NodeData.call)).attribute? (.index n.index) key = n.field key := by
  -- on runs from the last node, as it is described after all the others
  induction nodes using List.reverseRecOn with
  | nil => exact absurd hn List.not_mem_nil
  | append_singleton nodes last ih =>
    rw [List.map_append, List.map_singleton, built_concat]
    have h := tallies_built "word" (nodes.map NodeData.call)
    set g := built "word" (nodes.map NodeData.call)
    rw [List.map_append, List.nodup_append] at hdistinct
    obtain ⟨hfirst, -, hlast⟩ := hdistinct
    have hother : ∀ m ∈ nodes, m.index ≠ last.index :=
      fun m hm => hlast _ (List.mem_map_of_mem hm) _ (List.mem_singleton_self _)
    have hnew : Node.index last.index ∉ g := by
      show Node.index last.index ∉ g.nodes
      rw [h.nodes, List.mem_eraseDups, flatMap_mentions_nodes, List.map_map, List.mem_map]
      rintro ⟨m, hm, hsame⟩
      exact hother m hm (Node.index.inj hsame)
    have hsome : (g.call? last.call).isSome = true := by
      rw [isSome_call? h.labelKey, h.wordKey, last.accepted_call]
    obtain ⟨g', hadded⟩ := Option.isSome_iff_exists.1 hsome
    rw [after, hadded, Option.getD_some, attribute?_addNode? hnew hadded, h.wordKey]
    rcases List.mem_append.1 hn with hn | hn
    · rw [if_neg fun hsame => hother n hn (Node.index.inj hsame), ih hfirst hn]
    · rw [List.mem_singleton.1 hn, if_pos rfl, NodeData.join_lookup]

/-- Edges change no attribute. -/
theorem attribute?_built_edges (calls : List Call) (edges : List EdgeData) :
    (built "word" (calls ++ edges.map EdgeData.call)).attribute? = (built "word" calls).attribute? := by
  induction edges using List.reverseRecOn with
  | nil => rw [List.map_nil, List.append_nil]
  | append_singleton edges e ih =>
    have h := tallies_built "word" (calls ++ edges.map EdgeData.call)
    rw [List.map_append, List.map_singleton, ← List.append_assoc, built_concat, ← ih]
    funext n key
    rw [after, EdgeData.call, call?, addEdge?_of_labelKey h.labelKey, Option.getD_some, attribute?_addEdge]

/-- The edges are those of the data, in their order. -/
theorem edges_built (d : GraphData) :
    (built "word" d.calls).edges =
      d.edges.map fun e => ⟨.index e.governor, .index e.dependent, some e.relation⟩ := by
  have hnodes : (d.nodes.map NodeData.call).flatMap Call.edges = [] := by
    rw [List.flatMap_map]
    exact List.flatMap_eq_nil_iff.2 fun _ _ => rfl
  have hedges : (d.edges.map EdgeData.call).flatMap Call.edges =
      d.edges.map fun e => ⟨.index e.governor, .index e.dependent, some e.relation⟩ := by
    rw [List.flatMap_map]
    exact List.flatMap_pure_eq_map ..
  rw [(tallies_built "word" d.calls).edges, GraphData.calls, List.flatMap_append, List.flatMap_append, hnodes,
    hedges]
  exact List.append_nil _

variable (hsound : d.Sound)

include hsound

/-- The nodes are those of the data, in their order. -/
theorem nodes_built : (built "word" d.calls).nodes = d.indices.map Node.index := by
  have hdistinct : (d.indices.map Node.index).Nodup :=  hsound.distinct.map fun _ _ => Node.index.inj
  -- the ends of the edges have been mentioned before
  have hends : ∀ n ∈ (d.edges.map EdgeData.call).flatMap (Call.mentions "word"),
      n ∈ d.indices.map Node.index := by
    intro n hn
    rw [List.flatMap_map, List.mem_flatMap] at hn
    obtain ⟨e, he, hn⟩ := hn
    have hend : n = .index e.governor ∨ n = .index e.dependent := by simpa [EdgeData.call, Call.mentions] using hn
    obtain ⟨hgovernor, hdependent⟩ := hsound.ends e he
    rcases hend with rfl | rfl
    · exact List.mem_map_of_mem hgovernor
    · exact List.mem_map_of_mem hdependent
  have hmentions : d.calls.flatMap (Call.mentions "word") =
      d.indices.map Node.index ++ (d.edges.map EdgeData.call).flatMap (Call.mentions "word") := by
    rw [GraphData.calls, List.flatMap_append, List.flatMap_append, flatMap_mentions_nodes]
    exact List.append_nil _
  rw [(tallies_built "word" d.calls).nodes, hmentions, eraseDups_append_of_subset hends,
    eraseDups_of_nodup hdistinct]

omit hsound in
/-- The labels between two nodes are those that data have there. -/
theorem labels_built (d : GraphData) (governor dependent : Node) :
    ((built "word" d.calls).edges.filter fun e => e.governor = governor ∧ e.dependent = dependent).map Edge.label =
      d.labels governor dependent := by
  rw [edges_built, List.filter_map, List.map_map]
  rfl

/-- Nothing governs the same nodes as in data. -/
theorem filter_inDegree_built :
    ((built "word" d.calls).nodes.filter fun n => (built "word" d.calls).inDegree n = 0) =
      d.ungoverned.map Node.index := by
  rw [nodes_built hsound, List.filter_map, GraphData.ungoverned]
  refine congrArg _ (List.filter_congr fun index _ => decide_eq_decide.2 ?_)
  rw [inDegree, List.length_eq_zero_iff, List.filter_eq_nil_iff, edges_built, List.forall_mem_map]
  simp only [decide_eq_true_eq, Node.index.injEq, ne_eq]

/-- The graph of sound data shows what they say. -/
theorem shows_built : (built "word" d.calls).Shows d := by
  have hnodes := nodes_built hsound
  refine ⟨hnodes, fun n hn key => ?_, fun a b => ?_, fun a b => ?_, ?_⟩
  · have hmem : Node.index n.index ∈ built "word" d.calls := by
      show Node.index n.index ∈ (built "word" d.calls).nodes
      rw [hnodes]
      exact List.mem_map_of_mem (List.mem_map_of_mem hn)
    refine ask_eq_ok.2 ⟨hmem, ?_⟩
    calc (built "word" d.calls).attribute? (.index n.index) key
        = (built "word" (d.nodes.map NodeData.call ++ d.edges.map EdgeData.call)).attribute? (.index n.index) key := by
          rw [GraphData.calls, built_concat]
          rfl
      _ = n.field key := by rw [attribute?_built_edges, attribute?_built_nodes hsound.distinct hn]
  · rw [← labels_built, show (built "word" d.calls).dependents a = step _ .down a from rfl, filter_step,
      List.map_map]
    rfl
  · rw [← labels_built, show (built "word" d.calls).governors b = step _ .up b from rfl, filter_step,
      List.map_map]
    refine congrArg _ (List.filter_congr fun e _ => decide_eq_decide.2 and_comm)
  · -- where no roots are declared, they are the nodes that nothing governs
    have hdeclared : (built "word" d.calls).declared = d.roots.map Node.index := by
      rw [GraphData.calls, built_concat]
      rfl
    rw [roots, hdeclared, filter_inDegree_built hsound, List.isEmpty_map]
    cases d.roots <;> rfl

end Graph

/-- **A graph shows all that its data say, and nothing else.**  A payload of the right shape passes the check, and
a graph is built from it, just when its nodes are distinct and its edges and roots refer to them.  Whenever a graph
is built from a payload, it shows the data in it: their nodes in their order and with their fields; between any two
nodes the labels of their edges in their order, as seen from either end; and their roots, or without any the nodes
that nothing governs. -/
theorem Graph.ofPayload_shows (payload : Datum) :
    (∀ d : GraphData, d.IsRead payload →
      (GraphData.check payload = .ok d ↔ d.Sound) ∧ ((∃ g, Graph.ofPayload {} payload = .ok g) ↔ d.Sound)) ∧
      ∀ g, Graph.ofPayload {} payload = .ok g →
        ∃ d : GraphData, GraphData.check payload = .ok d ∧ d.IsRead payload ∧ g.Shows d := by
  have hbuilt : ∀ {d : GraphData}, GraphData.check payload = .ok d →
      Graph.ofPayload {} payload = .ok (Graph.built "word" d.calls) := by
    intro d hd
    rw [Graph.ofPayload, hd]
    dsimp only
    rw [ofData_eq_built]
    rfl
  constructor
  · intro d hread
    have hcheck : GraphData.check payload = .ok d ↔ d.Sound :=
      GraphData.check_eq_ok_iff.trans (and_iff_right hread)
    refine ⟨hcheck, fun ⟨g, hg⟩ => GraphData.fault?_eq_none_iff.1 ?_,
      fun hsound => ⟨_, hbuilt (hcheck.2 hsound)⟩⟩
    cases hfault : d.fault? with
    | none => rfl
    | some fault =>
      -- the check has failed, and no graph was built
      rw [Graph.ofPayload, GraphData.check_of_isRead hread, hfault] at hg
      cases hg
  · intro g hg
    cases hd : GraphData.check payload with
    | error issues =>
      rw [Graph.ofPayload, hd] at hg
      cases hg
    | ok d =>
      obtain ⟨hread, hsound⟩ := GraphData.check_eq_ok_iff.1 hd
      obtain rfl : Graph.built "word" d.calls = g := Except.ok.inj ((hbuilt hd).symm.trans hg)
      exact ⟨d, rfl, hread, shows_built hsound⟩

/-- Two words with a loop, with edges in both directions and the same edge twice, and without roots. -/
def tangled : GraphData where
  nodes := [⟨7, "c", none, some "C", none, none⟩, ⟨1, "a", some "A", none, none, some "O"⟩]
  edges := [⟨7, 1, "x"⟩, ⟨7, 7, "y"⟩, ⟨1, 7, "x"⟩, ⟨7, 1, "z"⟩, ⟨7, 1, "x"⟩]
  roots := []

/-- A payload that holds them. -/
def tangledPayload : Datum :=
  .map [
    (.text "nodes", .list [
      .map [(.text "index", .int 7), (.text "word", .text "c"), (.text "lemma", .text "C")],
      .map [(.text "index", .int 1), (.text "word", .text "a"), (.text "value", .text "A"),
        (.text "ner", .text "O")]]),
    (.text "edges", .list [
      .map [(.text "from", .int 7), (.text "to", .int 1), (.text "relation", .text "x")],
      .map [(.text "from", .int 7), (.text "to", .int 7), (.text "relation", .text "y")],
      .map [(.text "from", .int 1), (.text "to", .int 7), (.text "relation", .text "x")],
      .map [(.text "from", .int 7), (.text "to", .int 1), (.text "relation", .text "z")],
      .map [(.text "from", .int 7), (.text "to", .int 1), (.text "relation", .text "x")]])]

/-- A graph is built from it, and shows all five edges. -/
theorem Graph.ofPayload_shows_tangled :
    tangled.IsRead tangledPayload ∧ tangled.Sound ∧
      tangled.labels (.index 7) (.index 1) = [some "x", some "z", some "x"] ∧ tangled.ungoverned = [] ∧
      ∃ g, Graph.ofPayload {} tangledPayload = .ok g ∧ g.Shows tangled := by
  have hread : tangled.IsRead tangledPayload := ⟨_, rfl, rfl, rfl, rfl⟩
  have hsound : tangled.Sound := ⟨by decide, by decide, by decide⟩
  obtain ⟨hshape, hshows⟩ := Graph.ofPayload_shows tangledPayload
  have hcheck := (hshape tangled hread).1.2 hsound
  obtain ⟨g, hg⟩ := (hshape tangled hread).2.2 hsound
  obtain ⟨d, hd, -, hgd⟩ := hshows g hg
  obtain rfl : tangled = d := Except.ok.inj (hcheck.symm.trans hd)
  exact ⟨hread, hsound, by decide, by decide, g, hg, hgd⟩

end DependencyQuery
