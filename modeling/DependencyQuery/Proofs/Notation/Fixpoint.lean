import DependencyQuery.Proofs.Notation.Redrawing
import DependencyQuery.Proofs.Notation.Rereading

namespace DependencyQuery.Graph

open Text (isDecimalDigit)

open scoped List

/-!
# Graphs that are read back as they are

The notation of a graph holds the graph itself, if its nodes are numbered in the order in which they are
written and no word is one that notation would divide.

* `EndsNumbered`, `Undivided` — a text that ends like one with an index, and a text that can be a word or a
  tag without being divided;
* `Canonical` — a graph with such words and tags, whose nodes are numbered in the order of its notation;
* `firstIndices`, `leastFree_firstIndices` — after the first indices the next one is free;
* `Canonical.renumber_eq_self` — it is the one that the next node has, so that nodes are read back as
  themselves: `Canonical.rereadable`;
* `Canonical.dependents_eq` — edges that come in the order of the notation are grouped as before;
* `reread_eq_self` — so nothing changes when the notation is read and written again.
-/

/-! ### Words that stay in one piece -/

/-- A text that ends in a hyphen and digits. -/
def EndsNumbered (s : List Char) : Prop :=
  ∃ before digits, s = before ++ '-' :: digits ∧ digits ≠ [] ∧ digits.all isDecimalDigit = true

/-- The digits follow the last hyphen. -/
theorem endsNumbered_iff {s : List Char} :
    EndsNumbered s ↔ ∃ p ∈ splitAtLast '-' s, p.2 ≠ [] ∧ p.2.all isDecimalDigit = true := by
  constructor
  · rintro ⟨before, digits, hs, hne, hdigits⟩
    have hhyphen : '-' ∉ digits := fun h => absurd (List.all_eq_true.1 hdigits _ h) (by decide)
    exact ⟨(before, digits), splitAtLast_eq_some_iff.2 ⟨hs, hhyphen⟩, hne, hdigits⟩
  · rintro ⟨⟨before, digits⟩, hsplit, hne, hdigits⟩
    exact ⟨before, digits, (splitAtLast_eq_some_iff.1 hsplit).1, hne, hdigits⟩

/-- The last hyphen decides whether a text ends like one with an index. -/
instance (s : List Char) : Decidable (EndsNumbered s) := decidable_of_iff' _ endsNumbered_iff

/-- A text that is not divided where it stands as a word or as a tag. -/
structure Undivided (s : List Char) : Prop where
  ne : s ≠ []
  plain : Plain s
  slash : '/' ∉ s
  colon : ':' ∉ s
  unnumbered : ¬EndsNumbered s

/-- The conditions on a word or a tag, one after another. -/
theorem undivided_iff {s : List Char} :
    Undivided s ↔ s ≠ [] ∧ s.all continuesRun = true ∧ '/' ∉ s ∧ ':' ∉ s ∧ ¬EndsNumbered s := by
  rw [List.all_eq_true]
  exact ⟨fun h => ⟨h.ne, h.plain, h.slash, h.colon, h.unnumbered⟩,
    fun h => ⟨h.1, h.2.1, h.2.2.1, h.2.2.2.1, h.2.2.2.2⟩⟩

instance (s : List Char) : Decidable (Undivided s) := decidable_of_iff' _ undivided_iff

/-- An undivided text has no index. -/
theorem Undivided.splitIndex_eq {s : List Char} (hs : Undivided s) : (splitIndex s).2 = none := by
  rw [splitIndex]
  cases hsplit : splitAtLast '-' s with
  | none => rfl
  | some p =>
    obtain ⟨before, digits⟩ := p
    have hunnumbered : ¬(digits ≠ [] ∧ digits.all isDecimalDigit = true) := fun h =>
      hs.unnumbered (endsNumbered_iff.2 ⟨_, hsplit, h⟩)
    dsimp only
    rw [if_neg]
    simpa using fun _ => hunnumbered

/-- A label can be written if there is one, and it is neither empty nor broken into tokens. -/
theorem writableLabel_iff {label : Option String} :
    WritableLabel label ↔ ∃ text ∈ label, text.toList ≠ [] ∧ text.toList.all continuesRun = true := by
  simp only [WritableLabel, Plain, List.all_eq_true, Option.mem_def]

instance (label : Option String) : Decidable (WritableLabel label) := decidable_of_iff' _ writableLabel_iff

/-- A graph that keeps words and labels under the usual keys, whose nodes are numbered from one in the order
in which they are written, and whose words, tags and labels are not divided by its notation. -/
structure Canonical (g : Graph) : Prop where
  wordKey : g.wordKey = "word"
  labelKey : g.labelKey = "relation"
  roots : ∀ n ∈ g.declared, n ∈ g
  inhabited : 0 < g.size
  numbered : g.order = (List.range g.size).map fun k : Nat => .index (k + 1 : Nat)
  word : ∀ n ∈ g, Undivided (g.word n).toList
  tag : ∀ n ∈ g, ∀ tag ∈ g.attribute? n "tag", Undivided tag.toList
  label : ∀ e ∈ g.edges, WritableLabel e.label

/-! ### The next index -/

/-- The indices from one up to a number. -/
def firstIndices (k : Nat) : List Node := (List.range k).map fun i : Nat => .index (i + 1 : Nat)

/-- There are as many first indices as the number says. -/
@[simp] theorem length_firstIndices (k : Nat) : (firstIndices k).length = k := by
  rw [firstIndices, List.length_map, List.length_range]

/-- They are counted from one. -/
theorem getElem_firstIndices {k i : Nat} (h : i < (firstIndices k).length) :
    (firstIndices k)[i] = .index (i + 1 : Nat) := by
  simp only [firstIndices, List.getElem_map, List.getElem_range]

/-- Fewer first indices are a front part of more. -/
theorem take_firstIndices {k m : Nat} (h : k ≤ m) : (firstIndices m).take k = firstIndices k := by
  rw [firstIndices, ← List.map_take, List.take_range, Nat.min_eq_left h]
  rfl

/-- The first indices are those from one up to the number. -/
theorem mem_firstIndices {k n : Nat} : Node.index n ∈ firstIndices k ↔ 1 ≤ n ∧ n ≤ k := by
  simp only [firstIndices, List.mem_map, List.mem_range, Node.index.injEq, Int.ofNat_inj]
  constructor
  · rintro ⟨i, hi, rfl⟩
    omega
  · rintro ⟨hpos, hle⟩
    exact ⟨n - 1, by omega, by omega⟩

/-- After the first so many indices, the next one is free. -/
theorem leastFree_firstIndices (k : Nat) : leastFree (firstIndices k) = k + 1 := by
  refine (isLeast_leastFree _).unique ⟨⟨Nat.succ_pos k, ?_⟩, fun n hn => ?_⟩
  · rw [mem_firstIndices]
    omega
  · have hfree := mt mem_firstIndices.2 hn.2
    have hpos := hn.1
    omega

/-! ### Reading the graph back -/

namespace Canonical

variable {g h : Graph} (hg : g.Canonical)

include hg

/-- The nodes are written in the order of their indices. -/
theorem order_eq : g.order = firstIndices g.size := hg.numbered

/-- Every node is written. -/
theorem length_order : g.order.length = g.size := by
  rw [hg.order_eq, length_firstIndices]

/-- Every node is read back as itself. -/
theorem renumber_eq_self (n : Node) : g.renumber n = n := by
  have hnumbered : ∀ k < g.size, g.renumber (.index (k + 1 : Nat)) = .index (k + 1 : Nat) := by
    intro k
    induction k using Nat.strongRecOn with
    | ind k ih =>
      intro hk
      -- the nodes before it are the first `k` ones, and have kept their numbers
      have hlt : k < g.order.length := by rwa [hg.length_order]
      have hbefore : g.order.take k = firstIndices k := by
        rw [hg.order_eq, take_firstIndices (Nat.le_of_lt hk)]
      have hat : g.order[k] = .index (k + 1 : Nat) := by
        simp only [hg.order_eq, getElem_firstIndices]
      have hsplit : g.order = g.order.take k ++ .index (k + 1 : Nat) :: g.order.drop (k + 1) := by
        rw [← hat, ← List.drop_eq_getElem_cons hlt, List.take_append_drop]
      have hkept : (g.order.take k).map g.renumber = g.order.take k := by
        rw [hbefore, firstIndices, List.map_map]
        exact List.map_congr_left fun i hi =>
          ih i (List.mem_range.1 hi) (Nat.lt_trans (List.mem_range.1 hi) hk)
      rw [renumber_eq hg.roots hsplit, hkept, hbefore, leastFree_firstIndices]
      split <;> rfl
  by_cases hn : n ∈ g.order
  · rw [hg.numbered] at hn
    obtain ⟨k, hk, rfl⟩ := List.mem_map.1 hn
    exact hnumbered k (List.mem_range.1 hk)
  · -- only nodes that are written get numbers
    have hlookup : (g.order.zip (g.renumberedAfter [] g.order)).lookup n = none := by
      rw [List.lookup_eq_none_iff]
      intro p hp
      rw [bne_iff_ne]
      rintro rfl
      exact hn (List.of_mem_zip hp).1
    rw [renumber, hlookup]
    rfl

/-- A graph with such words, tags and labels can be written. -/
theorem writable : g.Writable where
  wordKey := hg.wordKey
  labelKey := hg.labelKey
  node n hn := by
    have hmem : n ∈ g.order := (order_perm_nodes hg.roots).mem_iff.2 hn
    rw [hg.numbered] at hmem
    obtain ⟨k, -, rfl⟩ := List.mem_map.1 hmem
    refine ⟨⟨k + 1, rfl⟩, (hg.word _ hn).ne, (hg.word _ hn).plain, fun tag htag => ?_⟩
    have htag := hg.tag _ hn tag htag
    exact ⟨htag.ne, htag.slash, htag.plain⟩
  label := hg.label

/-- Each label that is written for a node of such a graph says what it should. -/
theorem legible {n : Node} (hn : n ∈ g) : g.Legible n := by
  have hword := hg.word n hn
  refine ⟨fun _ p hp => ?_, fun _ => ?_, fun _ => ?_⟩
  · rw [splitAtLast_eq_none_iff.2 hword.slash] at hp
    cases hp
  · rw [lastPart]
    cases htag : g.attribute? n "tag" with
    | none => exact hword.splitIndex_eq
    | some tag => exact (hg.tag n hn tag htag).splitIndex_eq
  · cases htag : g.attribute? n "tag" with
    | none =>
      rw [labelWith_false_of_no_tag htag]
      exact hword.colon
    | some tag =>
      have hundivided := hg.tag n hn tag htag
      rw [labelWith_false_of_tag htag hundivided.ne]
      simp [hword.colon, hundivided.colon]

/-- Such a graph can be read back. -/
theorem rereadable : g.Rereadable where
  writable := hg.writable
  roots := hg.roots
  legible _ hn := hg.legible hn
  keepsNumbers := by
    have hself : g.renumber = id := funext hg.renumber_eq_self
    refine ⟨?_, fun n _ => hg.renumber_eq_self n⟩
    rw [hself, List.map_id]
    exact order_nodup hg.roots

/-- What has been read of a graph whose nodes keep their numbers has these nodes, in the order of the
notation. -/
theorem nodes_eq (hm : g.Mirrors g.order.reverse g.shown h) : h.nodes = g.order := by
  have hself : g.renumber = id := funext hg.renumber_eq_self
  rw [hm.nodes, List.reverse_reverse, hself, List.map_id]

/-- What has been read has the same nodes. -/
theorem mem_iff (hm : g.Mirrors g.order.reverse g.shown h) (n : Node) : n ∈ h ↔ n ∈ g := by
  show n ∈ h.nodes ↔ n ∈ g
  rw [hg.nodes_eq hm]
  exact (order_perm_nodes hg.roots).mem_iff

/-- What has been read has the edges in the order of the notation. -/
theorem edges_eq (hm : g.Mirrors g.order.reverse g.shown h) : h.edges = g.shown := by
  have hself : Edge.map g.renumber = id := funext fun e => by
    simp only [Edge.map, hg.renumber_eq_self, id]
  rw [hm.edges, hself, List.map_id]

/-- It has the same edges out of each node, in the same order. -/
theorem dependents_eq (hm : g.Mirrors g.order.reverse g.shown h) (n : Node) :
    h.dependents n = g.dependents n := by
  have hlinks : (g.outgoing n).map (fun e => (e.label, e.dependent)) = g.dependents n := by
    rw [outgoing, List.map_map]
    exact List.map_id _
  rw [dependents, hg.edges_eq hm, filter_shown hg.roots, hlinks]
  exact groupByNeighbour_idem _

/-- What has been read has the same words. -/
theorem word_eq (hm : g.Mirrors g.order.reverse g.shown h) (n : Node) : h.word n = g.word n := by
  by_cases hn : n ∈ g
  · have hword := hm.word n (List.mem_reverse.2 ((order_perm_nodes hg.roots).mem_iff.2 hn))
    rwa [hg.renumber_eq_self] at hword
  · have hnew := (hg.mem_iff hm n).not.2 hn
    rw [Graph.word, Graph.word, attribute?, attribute?, lookup_of_not_mem hn, lookup_of_not_mem hnew]
    rfl

/-- What has been read has the same tags. -/
theorem tag_eq (hm : g.Mirrors g.order.reverse g.shown h) (n : Node) :
    h.attribute? n "tag" = g.attribute? n "tag" := by
  by_cases hn : n ∈ g
  · have htag := hm.tag n (List.mem_reverse.2 ((order_perm_nodes hg.roots).mem_iff.2 hn))
    rwa [hg.renumber_eq_self] at htag
  · have hnew := (hg.mem_iff hm n).not.2 hn
    rw [attribute?, attribute?, lookup_of_not_mem hn, lookup_of_not_mem hnew]

/-- So it is written like the graph itself. -/
theorem writtenAlike (hm : g.Mirrors g.order.reverse g.shown h) : g.WrittenAlike h where
  nodes := hg.mem_iff hm
  size := by
    rw [← hg.length_order, ← hg.nodes_eq hm, length_nodes]
  dependents := hg.dependents_eq hm
  inDegree n := by
    rw [inDegree, inDegree, hg.edges_eq hm]
    exact ((shown_perm_edges hg.roots).filter _).length_eq
  word := hg.word_eq hm
  tag := hg.tag_eq hm

end Canonical

/-- **A graph whose nodes are numbered in the order of its notation is read back as it is.**  Take a graph
that keeps words and labels under the usual keys and has nodes, the declared roots among them.  Let its nodes
be numbered from one in the order in which the notation expands them; let no word and no tag be empty or have
a blank, a bracket, a slash or a colon in it, or end in a hyphen and digits; and let no label be missing or
empty, or have a blank or a bracket in it.  Then the notation of the graph is read as a graph with the same
nodes, each with the same word, the same tag and the same list of labels and dependents; the heads of the
outlines are its declared roots, in their order; and its notation is the same text. -/
theorem reread_eq_self {g : Graph} (hg : g.Canonical) :
    ∃ written again, g.bracketed? = .ok written ∧ ofNotation {} written = .ok again ∧
      again.nodes = g.order ∧ (∀ n, n ∈ again ↔ n ∈ g) ∧
      (∀ n ∈ g, again.word n = g.word n ∧ again.attribute? n "tag" = g.attribute? n "tag" ∧
        again.dependents n = g.dependents n) ∧
      again.declared = g.outlines.map Outline.node ∧ again.bracketed? = .ok written := by
  have hne : ∃ n, n ∈ g := by
    obtain ⟨entry, hentry⟩ := List.exists_mem_of_length_pos hg.inhabited
    exact ⟨entry.1, List.mem_map_of_mem hentry⟩
  -- what is read mirrors the graph, and its nodes have kept their numbers
  obtain ⟨written, mirror, hwritten, hread, hm⟩ := exists_reread hg.rereadable hne
  have halike := hg.writtenAlike hm
  have hheads : (g.outlines.map fun outline => g.renumber outline.node) = g.outlines.map Outline.node :=
    List.map_congr_left fun outline _ => hg.renumber_eq_self outline.node
  rw [hheads] at hread
  have houtlines : g.outlines ≠ [] := by
    intro hnone
    have horder := hg.length_order
    rw [order, hnone] at horder
    exact absurd horder.symm (Nat.ne_of_gt hg.inhabited)
  refine ⟨written, _, hwritten, hread, (nodes_setRoots ..).trans (hg.nodes_eq hm), halike.nodes, fun n _ =>
    ⟨halike.word n, halike.tag n, halike.dependents n⟩, rfl, ?_⟩
  rw [(halike.setRoots _).bracketed? hg.roots houtlines rfl, hwritten]

/-- Two words that govern each other, one of them by two edges, and a third that governs itself. -/
def mutualClauses : Graph where
  entries := [(.index 2, [("word", some "she"), ("value", some "she")]),
    (.index 1, [("word", some "go-"), ("value", some "go-")]),
    (.index 3, [("word", some "may"), ("value", some "may"), ("tag", some "AUX")])]
  edges := [⟨.index 1, .index 2, some "subj"⟩, ⟨.index 2, .index 1, some "acl:rel"⟩,
    ⟨.index 1, .index 2, some "obj"⟩, ⟨.index 3, .index 3, some "dep"⟩]
  declared := [.index 1]
  nodup := by decide
  closed := by decide

/-- The words that are met again are written with their numbers, and all edges keep their order. -/
theorem reread_eq_self_mutualClauses :
    mutualClauses.Canonical ∧
      mutualClauses.bracketed? = .ok "[go- subj:[she-2 acl:rel:go--1] obj:she-2] [may/AUX dep:may/AUX-3]" ∧
      ∃ written again, mutualClauses.bracketed? = .ok written ∧ ofNotation {} written = .ok again ∧
        again.nodes = mutualClauses.order ∧ (∀ n, n ∈ again ↔ n ∈ mutualClauses) ∧
        (∀ n ∈ mutualClauses, again.word n = mutualClauses.word n ∧
          again.attribute? n "tag" = mutualClauses.attribute? n "tag" ∧
          again.dependents n = mutualClauses.dependents n) ∧
        again.declared = mutualClauses.outlines.map Outline.node ∧ again.bracketed? = .ok written := by
  have hword : ∀ n ∈ mutualClauses.nodes, Undivided (mutualClauses.word n).toList := by decide +kernel
  have htag : ∀ n ∈ mutualClauses.nodes, ∀ tag ∈ mutualClauses.attribute? n "tag",
      Undivided tag.toList := by decide +kernel
  have hlabel : ∀ e ∈ mutualClauses.edges, WritableLabel e.label := by decide +kernel
  have hcanonical : mutualClauses.Canonical := {
    wordKey := rfl
    labelKey := rfl
    roots := by decide
    inhabited := by decide
    numbered := by decide +kernel
    word := hword
    tag := htag
    label := hlabel }
  exact ⟨hcanonical, rfl, reread_eq_self hcanonical⟩

end DependencyQuery.Graph
