import DependencyQuery.Proofs.Notation.Legible

namespace DependencyQuery

/-!
# Reading the notation of a graph back

* `Graph.renumber` — the node as which a node is read back: where its label holds its index it keeps it,
  and else it gets the next index that is free;
* `Graph.KeepsNumbers` — no two nodes are read back as one, and each node that is mentioned again is
  read back as itself;
* `Graph.Mirrors` — a graph that has been read holds what has been written of another one;
* `Mirrors.mention`, `Mirrors.expansion`, `Mirrors.addEdge` — what one label and one edge add;
* `Mirrors.entries`, `Mirrors.outlines` — what entries and outlines add, by induction on how they unfold;
* `exists_reread` — the notation of a graph that is `Rereadable` is read back as its mirror.
-/

/-- An edge between other nodes. -/
def Edge.map (f : Node → Node) (e : Edge) : Edge := ⟨f e.governor, f e.dependent, e.label⟩

namespace Graph

/-! ### New numbers -/

/-- The nodes as which nodes are read back that are expanded one after another, given those for the ones
before them. -/
def renumberedAfter (g : Graph) : (taken : List Node) → List Node → List Node
  | _, [] => []
  | taken, n :: rest =>
    let new := if 1 < g.inDegree n then n else .index (leastFree taken)
    new :: g.renumberedAfter (taken ++ [new]) rest

/-- The node as which a node is read back. -/
def renumber (g : Graph) (n : Node) : Node :=
  ((g.order.zip (g.renumberedAfter [] g.order)).lookup n).getD n

/-- No two nodes are read back as one, and each node that is mentioned again is read back as itself. -/
structure KeepsNumbers (g : Graph) : Prop where
  apart : (g.order.map g.renumber).Nodup
  kept : ∀ n ∈ g.mentioned, g.renumber n = n

/-- The two conditions on numbers, one after another. -/
theorem keepsNumbers_iff {g : Graph} :
    g.KeepsNumbers ↔ (g.order.map g.renumber).Nodup ∧ ∀ n ∈ g.mentioned, g.renumber n = n :=
  ⟨fun h => ⟨h.apart, h.kept⟩, fun h => ⟨h.1, h.2⟩⟩

instance (g : Graph) : Decidable g.KeepsNumbers := decidable_of_iff' _ keepsNumbers_iff

/-- Every node that is expanded is read back as some node. -/
theorem length_renumberedAfter (g : Graph) (taken ns : List Node) :
    (g.renumberedAfter taken ns).length = ns.length := by
  induction ns generalizing taken with
  | nil => rfl
  | cons n ns ih => simp [renumberedAfter, ih]

/-- What nodes are read back as that come later depends on those before them. -/
theorem renumberedAfter_append (g : Graph) (taken before rest : List Node) :
    g.renumberedAfter taken (before ++ rest) =
      g.renumberedAfter taken before ++
        g.renumberedAfter (taken ++ g.renumberedAfter taken before) rest := by
  induction before generalizing taken with
  | nil => simp [renumberedAfter]
  | cons n before ih =>
    simp only [List.cons_append, renumberedAfter, ih, List.append_assoc]
    rfl

/-- Looking each key up gives the values in their order. -/
theorem map_lookup_zip {keys values : List Node} (hkeys : keys.Nodup)
    (hlength : values.length = keys.length) :
    keys.map (fun n => ((keys.zip values).lookup n).getD n) = values := by
  induction keys generalizing values with
  | nil =>
    rw [List.length_eq_zero_iff.1 hlength]
    rfl
  | cons key keys ih =>
    obtain ⟨value, values, rfl⟩ := List.exists_cons_of_length_eq_add_one hlength
    rw [List.nodup_cons] at hkeys
    have hrest : ∀ n ∈ keys, (((key :: keys).zip (value :: values)).lookup n).getD n =
        ((keys.zip values).lookup n).getD n := by
      intro n hn
      have hne : n ≠ key := fun e => hkeys.1 (e ▸ hn)
      rw [List.zip_cons_cons, List.lookup_cons, beq_false_of_ne hne]
    rw [List.map_cons, List.map_congr_left hrest, ih hkeys.2 (Nat.succ.inj hlength)]
    simp

section

variable {g : Graph} (hroots : ∀ n ∈ g.declared, n ∈ g)
include hroots

/-- No node is expanded twice. -/
theorem order_nodup : g.order.Nodup := ((order_perm_nodes hroots).nodup_iff).2 g.nodup

/-- A node whose label holds its index keeps it, and any other one gets the next index that is free. -/
theorem renumber_eq {before after : List Node} {n : Node} (horder : g.order = before ++ n :: after) :
    g.renumber n = if 1 < g.inDegree n then n else .index (leastFree (before.map g.renumber)) := by
  have hmap : g.order.map g.renumber = g.renumberedAfter [] g.order :=
    map_lookup_zip (order_nodup hroots) (length_renumberedAfter g [] g.order)
  -- cut at the node, what its predecessors are read back as is what has been handed out before it
  rw [horder, renumberedAfter_append, List.map_append, List.map_cons] at hmap
  obtain ⟨hbefore, hrest⟩ := List.append_inj hmap (by simp [length_renumberedAfter])
  rw [renumberedAfter, List.cons.injEq] at hrest
  rw [hrest.1, hbefore, List.nil_append]

/-- A node that is expanded belongs to the graph. -/
theorem mem_of_prefix_order {written : List Node} {n : Node}
    (horder : (n :: written).reverse <+: g.order) : n ∈ g := by
  refine (order_perm_nodes hroots).mem_iff.1 (horder.subset ?_)
  simp

end

/-! ### The text of an outline -/

section

variable {g h : Graph} {n : Node} {entries : List (Option String × Outline)} {rest : List Char}

/-- An entry is written with a blank before it, and its label before a colon. -/
theorem renderEntries_cons_append {label : Option String} {item : Outline} :
    renderEntries g ((label, item) :: entries) ++ rest =
      ' ' :: (edgeLabel label ++ ':' :: (item.render g ++ (renderEntries g entries ++ rest))) := by
  simp [renderEntries]

/-- A node with entries is written in brackets. -/
theorem render_expansion_append {entry : Option String × Outline} :
    (Outline.expansion n (entry :: entries)).render g ++ rest =
      '[' :: (g.label n ++ (renderEntries g (entry :: entries) ++ ']' :: rest)) := by
  simp [Outline.render]

/-- What follows a word in brackets breaks off the run that it is in. -/
theorem breaks_renderEntries (h : Breaks rest) : Breaks (renderEntries g entries ++ rest) := by
  cases entries with
  | nil => exact h
  | cons entry entries => exact breaks_blank _

/-- An entry without a bracket adds an edge to the node that it is read as. -/
theorem feed_bare {m item : Node} {label : Option String} {h' : Graph} {text : List Char}
    {items : List Node} {outer : List Frame} (hlabel : WritableLabel label) (hne : text ≠ [])
    (hplain : Plain text) (hcolon : ':' ∉ text) (hrest : Breaks rest)
    (hnode : h.nodeOf text = .ok (item, h')) (hkey : h'.labelKey = "relation") :
    Reading.feed ⟨h, items, .headed m none :: outer⟩ []
        (' ' :: (edgeLabel label ++ ':' :: (text ++ rest))) =
      Reading.feed ⟨h'.addEdge m item label, items, .headed m none :: outer⟩ [] rest := by
  obtain ⟨written, rfl, hwritten, hwrittenPlain⟩ := hlabel
  -- the label and the item make up one run
  have hrun : Plain (written.toList ++ ':' :: text) :=
    plain_append.2 ⟨hwrittenPlain, plain_cons.2 ⟨by decide, hplain⟩⟩
  have hreads : Reads ⟨h, items, .headed m none :: outer⟩ (.run (written.toList ++ ':' :: text))
      ⟨h'.addEdge m item (some (String.ofList written.toList)), items, .headed m none :: outer⟩ :=
    .entry (splitAtLast_eq_some_iff.2 ⟨rfl, hcolon⟩) hne hnode hwritten (addEdge?_of_labelKey hkey _ _ _)
  have htext : written.toList ++ ':' :: (text ++ rest) = (written.toList ++ ':' :: text) ++ rest := by
    simp
  rw [String.ofList_toList] at hreads
  rw [Reading.feed_blank, edgeLabel, htext, Reading.feed_append hrun, List.nil_append,
    Reading.feed_run (by simp) hrest hreads]

end

/-- Texts with blanks between them are read like texts with a blank before each. -/
theorem feed_intercalate (r : Reading) (texts : List (List Char)) :
    r.feed [] ([' '].intercalate texts) = r.feed [] (texts.flatMap fun text => ' ' :: text) := by
  have hcons : ∀ (text : List Char) (texts : List (List Char)),
      [' '].intercalate (text :: texts) = text ++ texts.flatMap fun text => ' ' :: text := by
    intro text texts
    induction texts generalizing text with
    | nil => simp
    | cons next texts ih => simp [List.intercalate_cons_cons, ih]
  cases texts with
  | nil => rfl
  | cons text texts => rw [hcons, List.flatMap_cons, List.cons_append, Reading.feed_blank]

/-! ### Mirrors -/

/-- A graph that has been read holds what has been written of the graph `g`: some of its nodes, the latest
first, and some of its edges. -/
structure Mirrors (g : Graph) (written : List Node) (edges : List Edge) (h : Graph) : Prop where
  wordKey : h.wordKey = "word"
  labelKey : h.labelKey = "relation"
  parallel : h.parallel = true
  nodes : h.nodes = written.reverse.map g.renumber
  edges : h.edges = edges.map (Edge.map g.renumber)
  word : ∀ n ∈ written, h.word (g.renumber n) = g.word n
  tag : ∀ n ∈ written, h.attribute? (g.renumber n) "tag" = g.attribute? n "tag"

/-- Reading the entries of a node below its bracket's head takes one graph to another. -/
def EntriesLead (g : Graph) (head : Node) (entries : List (Option String × Outline)) (h h' : Graph) :
    Prop :=
  ∀ (items : List Node) (outer : List Frame) (rest : List Char), Breaks rest →
    Reading.feed ⟨h, items, .headed (g.renumber head) none :: outer⟩ [] (renderEntries g entries ++ rest) =
      Reading.feed ⟨h', items, .headed (g.renumber head) none :: outer⟩ [] rest

/-- What has to hold of a graph for its notation to be read back as its mirror. -/
structure Rereadable (g : Graph) : Prop where
  writable : g.Writable
  roots : ∀ n ∈ g.declared, n ∈ g
  legible : ∀ n ∈ g, g.Legible n
  keepsNumbers : g.KeepsNumbers

namespace Mirrors

variable {g h : Graph} {written : List Node} {edges : List Edge} {n : Node}

/-- What has been written has been read as nodes. -/
theorem mem (hm : g.Mirrors written edges h) (hn : n ∈ written) : g.renumber n ∈ h := by
  have hmem : g.renumber n ∈ h.nodes := by
    rw [hm.nodes]
    exact List.mem_map_of_mem (List.mem_reverse.2 hn)
  exact hmem

/-- An edge between nodes that have been read. -/
theorem addEdge (hm : g.Mirrors written edges h) {m : Node} (hmem : m ∈ written) (hn : n ∈ written)
    (label : Option String) :
    g.Mirrors written (edges ++ [⟨m, n, label⟩])
      (h.addEdge (g.renumber m) (g.renumber n) label) where
  wordKey := by rw [wordKey_addEdge, hm.wordKey]
  labelKey := by rw [labelKey_addEdge, hm.labelKey]
  parallel := by rw [parallel_addEdge, hm.parallel]
  nodes := by rw [nodes_addEdge_of_mem (hm.mem hmem) (hm.mem hn), hm.nodes]
  edges := by
    rw [edges_addEdge hm.parallel, hm.edges, List.map_append]
    rfl
  word := fun k hk => by rw [word_addEdge, hm.word k hk]
  tag := fun k hk => by rw [attribute?_addEdge, hm.tag k hk]

/-- The label of a node that has been read stands for that node, if it keeps its index. -/
theorem mention (hg : g.Rereadable) (hm : g.Mirrors written edges h) (hmem : n ∈ g) (hn : n ∈ written)
    (hmentioned : n ∈ g.mentioned) : h.nodeOf (g.labelWith n true) = .ok (g.renumber n, h) := by
  have hw := hg.writable.node n hmem
  obtain ⟨k, rfl⟩ := hw.index
  have hspec := hw.ofChars_labelWith (hg.legible _ hmem) rfl true (by simp) fun _ => .inr hmentioned
  refine nodeOf_eq_ok_iff.2 (.inl ⟨k, ?_, hg.keepsNumbers.kept _ hmentioned, hm.mem hn, ?_, rfl⟩)
  · rw [hspec]
    rfl
  · rw [hspec, hm.word _ hn, String.ofList_toList]

/-- The label of the next node is read as a new node. -/
theorem expansion (hg : g.Rereadable) (hm : g.Mirrors written edges h)
    (horder : (n :: written).reverse <+: g.order) :
    ∃ h', h.nodeOf (g.label n) = .ok (g.renumber n, h') ∧ g.Mirrors (n :: written) edges h' := by
  have hmem := mem_of_prefix_order hg.roots horder
  obtain ⟨after, horder⟩ := horder
  rw [List.reverse_cons, List.append_assoc, List.singleton_append] at horder
  have hw := hg.writable.node n hmem
  obtain ⟨k, hk⟩ := hw.index
  subst hk
  have hspec := hw.ofChars_labelWith (hg.legible _ hmem) rfl (1 < g.inDegree (.index k)) (by simp)
    fun hshared => .inl (of_decide_eq_true hshared)
  have hrenumber := renumber_eq hg.roots horder.symm
  -- the node is not there yet, as no two nodes are read back as one
  have hnew : g.renumber (.index k) ∉ h := by
    have hapart := hg.keepsNumbers.apart
    rw [← horder, List.map_append, List.map_cons, List.nodup_middle, List.nodup_cons] at hapart
    intro hmem
    have hmem : g.renumber (.index k) ∈ h.nodes := hmem
    rw [hm.nodes] at hmem
    exact hapart.1 (List.mem_append_left _ hmem)
  obtain ⟨h', hadd, ha⟩ := exists_adds hm.wordKey hnew (WordSpec.ofChars (g.label (.index k)))
  rw [← label] at hspec
  have hne : ∀ m ∈ written, g.renumber m ≠ g.renumber (.index k) := fun m hmw e => hnew (e ▸ hm.mem hmw)
  refine ⟨h', nodeOf_eq_ok_iff.2 (.inr ⟨?_, hnew, hadd⟩), ?_, ?_, ?_, ?_, ?_, ?_, ?_⟩
  · rw [hrenumber, hspec, nextIndex, hm.nodes]
    split
    · next hshared => simp [hshared]
    · next hshared => simp [hshared]
  · rw [ha.wordKey, hm.wordKey]
  · rw [ha.labelKey, hm.labelKey]
  · rw [ha.parallel, hm.parallel]
  · rw [ha.nodes, hm.nodes, List.reverse_cons, List.map_append]
    rfl
  · rw [ha.edges, hm.edges]
  · refine List.forall_mem_cons.2 ⟨?_, fun m hmw => ?_⟩
    · rw [ha.word, hspec, String.ofList_toList]
    · rw [ha.word_of_ne (hne m hmw), hm.word m hmw]
  · refine List.forall_mem_cons.2 ⟨?_, fun m hmw => ?_⟩
    · rw [ha.tag, hspec]
      simp [Function.comp_def]
    · rw [ha.others _ (hne m hmw), hm.tag m hmw]

/-- A bracket is an item, as whose head the next node is read, with what its entries add. -/
theorem bracket (hg : g.Rereadable) (hm : g.Mirrors written edges h)
    (horder : (n :: written).reverse <+: g.order) {entries : List (Option String × Outline)}
    {inner : List Node}
    (hbelow : ∀ h₁, g.Mirrors (n :: written) edges h₁ →
      ∃ h', g.Mirrors inner (edges ++ edgesBelow n entries) h' ∧ g.EntriesLead n entries h₁ h') :
    ∃ h', g.Mirrors inner (edges ++ edgesBelow n entries) h' ∧ ∀ items frames rest r', AwaitsItem frames →
      Delivers ⟨h', items, frames⟩ (g.renumber n) r' →
      Reading.feed ⟨h, items, frames⟩ []
          ('[' :: (g.label n ++ (renderEntries g entries ++ ']' :: rest))) = r'.feed [] rest := by
  obtain ⟨h₁, hnode, hm₁⟩ := hm.expansion hg horder
  obtain ⟨h', hm', hentries⟩ := hbelow h₁ hm₁
  refine ⟨h', hm', fun items frames rest r' hawaits hdelivers => ?_⟩
  have hw := hg.writable.node n (mem_of_prefix_order hg.roots horder)
  have hplain : Plain (g.label n) := hw.plain_labelWith
  have hne : g.label n ≠ [] := hw.labelWith_ne_nil
  have hbreaks : Breaks (renderEntries g entries ++ ']' :: rest) := breaks_renderEntries (by simp)
  -- the bracket opens, its head and its entries are read, and it closes
  rw [Reading.feed_opening (.opening hawaits), Reading.feed_append hplain, List.nil_append,
    Reading.feed_run hne hbreaks (.head hnode), hentries _ _ _ (by simp),
    Reading.feed_closing (.closing hdelivers)]

/-- An entry whose item is expanded adds what the item adds, and the edge to it. -/
theorem expansionEntry (hg : g.Rereadable) (hm : g.Mirrors written edges h) {head : Node}
    {label : Option String} (hedge : ⟨head, n, label⟩ ∈ g.edges)
    (horder : (n :: written).reverse <+: g.order) {entries : List (Option String × Outline)}
    {inner : List Node} (all : entries.map (fun entry => (entry.1, entry.2.node)) = g.dependents n)
    (hunfolds : Unfolds g (n :: written) entries inner)
    (hbelow : ∀ h₁, g.Mirrors (n :: written) edges h₁ →
      ∃ h', g.Mirrors inner (edges ++ edgesBelow n entries) h' ∧ g.EntriesLead n entries h₁ h') :
    ∃ h', g.Mirrors inner (edges ++ edgesBelow n entries) h' ∧ ∀ items outer rest, Breaks rest →
      Reading.feed ⟨h, items, .headed (g.renumber head) none :: outer⟩ []
          (' ' :: (edgeLabel label ++ ':' :: ((Outline.expansion n entries).render g ++ rest))) =
        Reading.feed ⟨h'.addEdge (g.renumber head) (g.renumber n) label, items,
          .headed (g.renumber head) none :: outer⟩ [] rest := by
  have hn : n ∈ g := (g.closed _ hedge).2
  have hw := hg.writable.node n hn
  have hlabel := hg.writable.label _ hedge
  cases entries with
  | nil =>
    cases hunfolds
    obtain ⟨h', hnode, hm'⟩ := hm.expansion hg horder
    have hcolon : ':' ∉ g.label n :=
      hw.colon_not_mem_labelWith (hg.legible n hn) (.inr ⟨inDegree_pos hedge, all.symm⟩)
    exact ⟨h', by simpa [edgesBelow] using hm', fun items outer rest hrest =>
      feed_bare hlabel hw.labelWith_ne_nil hw.plain_labelWith hcolon hrest hnode hm'.labelKey⟩
  | cons entry entries =>
    -- a bracket ends the run, so the label comes on its own and waits for the item
    obtain ⟨h', hm', hbracket⟩ := hm.bracket hg horder hbelow
    refine ⟨h', hm', fun items outer rest hrest => ?_⟩
    obtain ⟨text, rfl, htext, hplain⟩ := hlabel
    have hrun : Plain (text.toList ++ [':']) := plain_append.2 ⟨hplain, plain_cons.2 ⟨by decide, plain_nil⟩⟩
    have hreads : Reads ⟨h, items, .headed (g.renumber head) none :: outer⟩
        (.run (text.toList ++ [':']))
        ⟨h, items, .headed (g.renumber head) (some ⟨text.toList, text.toList ++ [':']⟩) :: outer⟩ :=
      .label (splitAtLast_eq_some_iff.2 ⟨rfl, List.not_mem_nil⟩)
    have hdelivers : Delivers
        ⟨h', items, .headed (g.renumber head) (some ⟨text.toList, text.toList ++ [':']⟩) :: outer⟩
        (g.renumber n)
        ⟨h'.addEdge (g.renumber head) (g.renumber n) (some (String.ofList text.toList)), items,
          .headed (g.renumber head) none :: outer⟩ :=
      .attach htext (addEdge?_of_labelKey hm'.labelKey _ _ _)
    have hawaits : AwaitsItem (.headed (g.renumber head) (some ⟨text.toList, text.toList ++ [':']⟩) ::
      outer) := ⟨by simp, by simp⟩
    rw [String.ofList_toList] at hdelivers
    have hannounced : ∀ s : List Char, text.toList ++ ':' :: s = (text.toList ++ [':']) ++ s := by simp
    rw [Reading.feed_blank, edgeLabel, hannounced, Reading.feed_append hrun, List.nil_append,
      render_expansion_append,
      Reading.feed_run (by simp) (by simp) hreads, hbracket _ _ _ _ hawaits hdelivers]

/-- Entries add the nodes that they expand and the edges that they show. -/
theorem entries {entries : List (Option String × Outline)} {after : List Node} (hg : g.Rereadable)
    (hunfolds : Unfolds g written entries after) {head : Node} (hhead : head ∈ written)
    (hedges : ∀ entry ∈ entries, ⟨head, entry.2.node, entry.1⟩ ∈ g.edges)
    (horder : after.reverse <+: g.order) (hmentioned : ∀ n ∈ mentionsIn entries, n ∈ g.mentioned)
    (hm : g.Mirrors written edges h) :
    ∃ h', g.Mirrors after (edges ++ edgesBelow head entries) h' ∧ g.EntriesLead head entries h h' := by
  -- entries unfold in the order of the text, so what has been read mirrors what has been written so far
  induction hunfolds generalizing head edges h with
  | nil => exact ⟨h, by simpa [edgesBelow] using hm, fun _ _ _ _ => rfl⟩
  | @mention written after n label rest old more ih =>
    rw [List.forall_mem_cons] at hedges
    have hedge : ⟨head, n, label⟩ ∈ g.edges := hedges.1
    have hn : n ∈ g := (g.closed _ hedge).2
    have hw := hg.writable.node n hn
    have hagain : n ∈ g.mentioned := hmentioned n (by simp [mentionsIn, Outline.mentions])
    have hcolon : ':' ∉ g.labelWith n true :=
      hw.colon_not_mem_labelWith (hg.legible n hn) (.inl hagain)
    have hnode := hm.mention hg hn old hagain
    obtain ⟨h', hm', hrest⟩ := ih hhead hedges.2 horder
      (fun m hmem => hmentioned m (by simp [mentionsIn, hmem])) (hm.addEdge hhead old label)
    refine ⟨h', by simpa [edgesBelow, Outline.edges] using hm', fun items outer text htext => ?_⟩
    rw [renderEntries_cons_append, Outline.render,
      feed_bare (hg.writable.label _ hedge) hw.labelWith_ne_nil hw.plain_labelWith hcolon
        (breaks_renderEntries htext) hnode hm.labelKey,
      hrest _ _ _ htext]
  | @expansion written inner after n label entries rest new all below more ihBelow ihMore =>
    rw [List.forall_mem_cons] at hedges
    have hedge : ⟨head, n, label⟩ ∈ g.edges := hedges.1
    have hinner : inner.reverse <+: g.order := more.prefix_reverse.trans horder
    have hentries := mem_edges_of_entry all
    obtain ⟨h₁, hm₁, hentry⟩ := hm.expansionEntry hg hedge (below.prefix_reverse.trans hinner) all below
      fun h₁ hm₁ => ihBelow List.mem_cons_self hentries hinner
        (fun m hmem => hmentioned m (by simp [mentionsIn, Outline.mentions, hmem])) hm₁
    have hhead' : head ∈ inner := below.subset (List.mem_cons_of_mem n hhead)
    obtain ⟨h', hm', hrest⟩ := ihMore hhead' hedges.2 horder
      (fun m hmem => hmentioned m (by simp [mentionsIn, hmem]))
      (hm₁.addEdge hhead' (below.subset List.mem_cons_self) label)
    refine ⟨h', by simpa [edgesBelow, Outline.edges] using hm', fun items outer text htext => ?_⟩
    rw [renderEntries_cons_append, hentry _ _ _ (breaks_renderEntries htext), hrest _ _ _ htext]

/-- An outline outside of all brackets adds what it shows, and is one of the items. -/
theorem outline (hg : g.Rereadable) (hm : g.Mirrors written edges h)
    {entries : List (Option String × Outline)} {inner : List Node} (horder : inner.reverse <+: g.order)
    (all : entries.map (fun entry => (entry.1, entry.2.node)) = g.dependents n)
    (hunfolds : Unfolds g (n :: written) entries inner) (hmentioned : ∀ m ∈ mentionsIn entries, m ∈ g.mentioned) :
    ∃ h', g.Mirrors inner (edges ++ edgesBelow n entries) h' ∧ ∀ items rest, Breaks rest →
      Reading.feed ⟨h, items, []⟩ [] ((Outline.expansion n entries).render g ++ rest) =
        Reading.feed ⟨h', items ++ [g.renumber n], []⟩ [] rest := by
  have hfirst : (n :: written).reverse <+: g.order := hunfolds.prefix_reverse.trans horder
  have hw := hg.writable.node n (mem_of_prefix_order hg.roots hfirst)
  have hawaits : AwaitsItem [] := ⟨by simp, by simp⟩
  cases entries with
  | nil =>
    -- a node without entries is written as a run
    cases hunfolds
    obtain ⟨h', hnode, hm'⟩ := hm.expansion hg hfirst
    refine ⟨h', by simpa [edgesBelow] using hm', fun items rest hrest => ?_⟩
    have hplain : Plain (g.label n) := hw.plain_labelWith
    have hne : g.label n ≠ [] := hw.labelWith_ne_nil
    rw [Outline.render, Reading.feed_append hplain, List.nil_append,
      Reading.feed_run hne hrest (.item hawaits hnode (.list (by simp)))]
  | cons entry entries =>
    -- a node with entries is written as a bracket
    obtain ⟨h', hm', hbracket⟩ := hm.bracket hg hfirst fun h₁ hm₁ =>
      hm₁.entries hg hunfolds List.mem_cons_self (mem_edges_of_entry all) horder hmentioned
    refine ⟨h', hm', fun items rest _ => ?_⟩
    rw [render_expansion_append, hbracket _ _ _ _ hawaits (.list (by simp))]

/-- Outlines outside of all brackets add what they show, and are the items, in their order. -/
theorem outlines {outlines : List Outline} {after : List Node} (hg : g.Rereadable)
    (hunfolds : Unfolds g written (outlines.map (Prod.mk none)) after)
    (hexpand : ∀ outline ∈ outlines, ∃ n ∈ g, ∃ entries, outline = .expansion n entries)
    (horder : after.reverse <+: g.order)
    (hmentioned : ∀ n ∈ outlines.flatMap Outline.mentions, n ∈ g.mentioned) (hm : g.Mirrors written edges h) :
    ∃ h', g.Mirrors after (edges ++ outlines.flatMap Outline.edges) h' ∧ ∀ items,
      Reading.feed ⟨h, items, []⟩ [] (outlines.flatMap fun outline => ' ' :: outline.render g) =
        .ok ⟨h', items ++ outlines.map (fun outline => g.renumber outline.node), []⟩ := by
  induction outlines generalizing written edges h with
  | nil =>
    cases hunfolds
    exact ⟨h, by simpa using hm, fun items => by simp [Reading.feed, tokensAfter, pendingRun]; rfl⟩
  | cons outline outlines ih =>
    rw [List.forall_mem_cons] at hexpand
    obtain ⟨⟨n, -, entries, rfl⟩, hexpand⟩ := hexpand
    rw [List.map_cons] at hunfolds
    cases hunfolds with
    | @expansion _ inner _ _ _ _ _ new all below more =>
      -- each outline goes on from what the ones before it have left
      obtain ⟨h₁, hm₁, hfirst⟩ := hm.outline hg (more.prefix_reverse.trans horder) all below
        fun m hmem => hmentioned m (by simp [Outline.mentions, hmem])
      obtain ⟨h', hm', hrest⟩ := ih more hexpand
        (fun m hmem => hmentioned m (by rw [List.flatMap_cons]; exact List.mem_append_right _ hmem)) hm₁
      refine ⟨h', by simpa [Outline.edges] using hm', fun items => ?_⟩
      have hbreaks : Breaks (outlines.flatMap fun outline => ' ' :: outline.render g) := by
        cases outlines with
        | nil => simp
        | cons outline outlines => exact breaks_blank _
      rw [List.flatMap_cons, List.cons_append, Reading.feed_blank, hfirst _ _ hbreaks, hrest]
      simp

end Mirrors

/-! ### Whole graphs -/

/-- Before anything is read, nothing has been written. -/
theorem mirrors_empty (g : Graph) : g.Mirrors [] [] (empty "word" true) :=
  ⟨rfl, rfl, rfl, rfl, rfl, by simp, by simp⟩

/-- The notation of a graph is read back as its mirror. -/
theorem exists_reread {g : Graph} (hg : g.Rereadable) (hne : ∃ n, n ∈ g) :
    ∃ written h, g.bracketed? = .ok written ∧
      ofNotation {} written =
        .ok (h.setRoots (g.outlines.map fun outline => g.renumber outline.node)) ∧
      g.Mirrors g.order.reverse g.shown h := by
  obtain ⟨h, hm, hread⟩ := (mirrors_empty g).outlines hg (unfolds_outlines hg.roots)
    (outlines_expand hg.roots) (by simp) fun _ h => h
  have hfold : Reading.feed ⟨empty "word" true, [], []⟩ []
      ([' '].intercalate (g.outlines.map (Outline.render g))) =
        .ok ⟨h, g.outlines.map (fun outline => g.renumber outline.node), []⟩ := by
    rw [feed_intercalate, List.flatMap_map, hread, List.nil_append]
  refine ⟨_, h, bracketed?_eq hg.roots, ofNotation_eq_ok_iff.2 ⟨fun htokens => ?_, h, _, ?_, rfl⟩, hm⟩
  · -- the text is not blank, as something is read from it
    rw [String.toList_ofList] at htokens
    have hnone : tokensAfter [] ([' '].intercalate (g.outlines.map (Outline.render g))) = [] := htokens
    rw [Reading.feed, hnone] at hfold
    have hgraph : empty "word" true = h := congrArg Reading.graph (Except.ok.inj hfold)
    obtain ⟨n, hn⟩ := hne
    have horder : n ∈ g.order := (order_perm_nodes hg.roots).mem_iff.2 hn
    have hmem : g.renumber n ∈ h := hm.mem (List.mem_reverse.2 horder)
    rw [← hgraph] at hmem
    exact absurd hmem List.not_mem_nil
  · rw [String.toList_ofList]
    exact hfold

end Graph

end DependencyQuery
