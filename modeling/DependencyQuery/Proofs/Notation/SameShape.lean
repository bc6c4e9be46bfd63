import DependencyQuery.Proofs.Notation.Rereading
import Mathlib.Data.Set.Function

namespace DependencyQuery.Graph

open scoped List

/-!
# Graphs of the same shape

* `SameShape` — two graphs differ in nothing but which nodes there are, the order of things and the roots;
* `Mirrors.sameShape` — a graph has the same shape as its mirror;
* `reread_sameShape` — a graph that is read from a text, written and read again keeps its shape, if it is
  legible and its nodes keep apart.
-/

/-- The labels of the edges from one node to another. -/
def labels (g : Graph) (m n : Node) : List (Option String) :=
  (g.edges.filter fun e => e.governor = m ∧ e.dependent = n).map (·.label)

/-- A map from the nodes of a graph to those of another one, under which nothing is lost and nothing is
added: nodes keep their words and tags, and between any two nodes there are the same labels as often. -/
structure IsShapeMap (g h : Graph) (f : Node → Node) : Prop where
  bijective : Set.BijOn f {n | n ∈ g} {n | n ∈ h}
  word : ∀ n ∈ g, h.word (f n) = g.word n
  tag : ∀ n ∈ g, h.attribute? (f n) "tag" = g.attribute? n "tag"
  labels : ∀ m ∈ g, ∀ n ∈ g, h.labels (f m) (f n) ~ g.labels m n

/-- Whether two graphs are the same but for which nodes there are. -/
def SameShape (g h : Graph) : Prop := ∃ f, IsShapeMap g h f

variable {g h : Graph}

/-- Edges between other nodes keep their labels, if the nodes are kept apart. -/
theorem labels_map {f : Node → Node} (hinj : Set.InjOn f {n | n ∈ g})
    {shown : List Edge} (hshown : shown ~ g.edges) (hedges : h.edges = shown.map (Edge.map f)) {m n : Node}
    (hm : m ∈ g) (hn : n ∈ g) : h.labels (f m) (f n) ~ g.labels m n := by
  -- the nodes of an edge are nodes of the graph, among which the map tells any two apart
  have hfilter : (shown.filter fun e => f e.governor = f m ∧ f e.dependent = f n) =
      shown.filter fun e => e.governor = m ∧ e.dependent = n := by
    refine List.filter_congr fun e he => ?_
    obtain ⟨hgovernor, hdependent⟩ := g.closed e (hshown.mem_iff.1 he)
    have hgovernor' : f e.governor = f m ↔ e.governor = m := hinj.eq_iff hgovernor hm
    have hdependent' : f e.dependent = f n ↔ e.dependent = n := hinj.eq_iff hdependent hn
    simp only [hgovernor', hdependent']
  have hlabels : h.labels (f m) (f n) =
      (shown.filter fun e => e.governor = m ∧ e.dependent = n).map (·.label) := by
    rw [← hfilter, labels, hedges, List.filter_map, List.map_map]
    rfl
  rw [hlabels]
  exact (hshown.filter _).map _

/-- A graph has the same shape as its mirror, whichever nodes of that are roots. -/
theorem Mirrors.sameShape (hg : g.Rereadable) (hm : g.Mirrors g.order.reverse g.shown h)
    (roots : List Node) : g.SameShape (h.setRoots roots) := by
  have hwritten : ∀ n ∈ g, n ∈ g.order.reverse := fun n hn =>
    List.mem_reverse.2 ((order_perm_nodes hg.roots).mem_iff.2 hn)
  have hinj : Set.InjOn g.renumber {n | n ∈ g} := fun m hm n hn he =>
    List.inj_on_of_nodup_map hg.keepsNumbers.apart (List.mem_reverse.1 (hwritten m hm))
      (List.mem_reverse.1 (hwritten n hn)) he
  refine ⟨g.renumber, ⟨fun n hn => hm.mem (hwritten n hn), hinj, fun m hmem => ?_⟩,
    fun n hn => hm.word n (hwritten n hn), fun n hn => hm.tag n (hwritten n hn),
    fun m hmem n hn => labels_map hinj (shown_perm_edges hg.roots) hm.edges hmem hn⟩
  have hmem : m ∈ h.nodes := hmem
  rw [hm.nodes, List.reverse_reverse, List.mem_map] at hmem
  obtain ⟨n, hn, rfl⟩ := hmem
  exact ⟨n, (order_perm_nodes hg.roots).mem_iff.1 hn, rfl⟩

/-- A graph that is read from a text can be written, and what is written is read as a graph of the same
shape, if each label that is written for a node says what it should, no two nodes are read back as one,
and each node that is mentioned again is read back as itself. -/
theorem reread_sameShape {text : String} (h : ofNotation {} text = .ok g)
    (legible : ∀ n ∈ g, g.Legible n) (keepsNumbers : g.KeepsNumbers) :
    ∃ written again, g.bracketed? = .ok written ∧ ofNotation {} written = .ok again ∧
      g.SameShape again := by
  obtain ⟨hwritable, hroots, hne⟩ := writable_of_ofNotation h
  have hg : g.Rereadable := ⟨hwritable, hroots, legible, keepsNumbers⟩
  obtain ⟨written, mirror, hwritten, hread, hm⟩ := exists_reread hg hne
  exact ⟨written, _, hwritten, hread, hm.sameShape hg _⟩

/-- Two words that share a third one, with indices out of order. -/
def sharedSubject : Graph where
  entries := [(.index 7, [("word", some "go"), ("value", some "go")]),
    (.index 2, [("word", some "she"), ("value", some "she")]),
    (.index 1, [("word", some "may"), ("value", some "may"), ("tag", some "AUX")])]
  edges := [⟨.index 7, .index 2, some "subj"⟩, ⟨.index 1, .index 2, some "subj"⟩,
    ⟨.index 7, .index 1, some "aux"⟩]
  declared := [.index 7]
  nodup := by decide
  closed := by decide

/-- Only the shared word is written with its index, and the others are numbered anew around it. -/
theorem reread_sameShape_sharedSubject :
    ofNotation {} "[go-7 subj:she-2 aux:[may/AUX subj:she-2]]" = .ok sharedSubject ∧
      (∀ n ∈ sharedSubject, sharedSubject.Legible n) ∧ sharedSubject.KeepsNumbers ∧
      ∃ written again, sharedSubject.bracketed? = .ok written ∧ ofNotation {} written = .ok again ∧
        sharedSubject.SameShape again := by
  have hread : ofNotation {} "[go-7 subj:she-2 aux:[may/AUX subj:she-2]]" = .ok sharedSubject := rfl
  have hlegible : ∀ n ∈ sharedSubject.nodes, sharedSubject.Legible n := by decide +kernel
  have hkeeps : sharedSubject.KeepsNumbers := by decide +kernel
  exact ⟨hread, hlegible, hkeeps, reread_sameShape hread hlegible hkeeps⟩

/-- A word that has the index which another one gets when it is read back. -/
def takenIndex : Graph where
  entries := [(.index 2, [("word", some "x"), ("value", some "x")]),
    (.index 1, [("word", some "y"), ("value", some "y")])]
  edges := [⟨.index 2, .index 1, some "a"⟩, ⟨.index 2, .index 1, some "b"⟩]
  declared := [.index 2]
  nodup := by decide
  closed := by decide

/-- The first word is written without its index and gets that of the second one, which is then refused. -/
theorem reread_error_takenIndex :
    ofNotation {} "[x-2 a:y-1 b:y-1]" = .ok takenIndex ∧
      takenIndex.bracketed? = .ok "[x a:y-1 b:y-1]" ∧
      ofNotation {} "[x a:y-1 b:y-1]" = .error (.misread (.otherWord 1 "x") "[x a:y-1 b:y-1]") :=
  ⟨rfl, rfl, rfl⟩

end DependencyQuery.Graph
