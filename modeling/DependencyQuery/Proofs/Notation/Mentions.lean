import DependencyQuery.Proofs.Graph.Views
import DependencyQuery.Proofs.Notation.Reading

namespace DependencyQuery.Graph

/-!
# The words of a text in bracket notation, and the nodes that they stand for

* `Mention` — a word in a text with its node; `Mention.Follows` — whether it is the right one after other words,
  `Numbered` — for all words of a text;
* `Numbered.nodup_unindexed` — so words without an index all stand for nodes of their own;
* `Phrase`, `Spells` — the grammar of bracket notation: the words of a text, and the edges between their nodes;
* `Tells` — what a graph knows of the words and edges so far;
* `Tells.nodeOf` — a further word is put into it, or stands for a node with another word; `Tells.addEdge` — a
  further edge is added.
-/

/-- A word in a text, and the node that it stands for. -/
structure Mention where
  run : List Char
  node : Node

namespace Mention

/-- The word with the tag and the index that it carries. -/
def spec (m : Mention) : WordSpec := .ofChars m.run

/-- The word alone. -/
def word (m : Mention) : String := String.ofList m.spec.word

/-- What a node has under a key, if it is mentioned first by this word and words are kept under a key of their own. -/
def field (m : Mention) (wordKey key : String) : Option String :=
  if key = wordKey then some m.word
  else
    match key with
    | "value" => some m.word
    | "tag" => m.spec.tag.map String.ofList
    | _ => none

/-- Under the key for words there is the word. -/
theorem field_wordKey (m : Mention) (wordKey : String) : m.field wordKey wordKey = some m.word := if_pos rfl

/-- Whether a word stands for the right node, after other words: an index says which one, and without an index it
is a new node, with the least positive index that is not in use. -/
structure Follows (before : List Mention) (m : Mention) : Prop where
  indexed : ∀ k, m.spec.index = some k → m.node = .index k
  unindexed : m.spec.index = none →
    ∃ k : Nat, m.node = .index k ∧ IsLeast {k : Nat | 0 < k ∧ Node.index k ∉ before.map Mention.node} k

/-- Whether a word has an index that is in use for another word. -/
structure Clashes (before : List Mention) (m : Mention) (k : Nat) (other : String) : Prop where
  index : m.spec.index = some k
  used : ∃ first ∈ before, first.node = .index k ∧ first.word = other
  differs : m.word ≠ other

end Mention

/-- Whether each of some words stands to those before it as `P` says. -/
def InTurn (P : List Mention → Mention → Prop) (ms : List Mention) : Prop :=
  ∀ before m after, ms = before ++ m :: after → P before m

/-- Whether the words of a text stand for the right nodes. -/
def Numbered (ms : List Mention) : Prop := InTurn Mention.Follows ms

/-- Whether words with the same node are the same. -/
def Consistent (ms : List Mention) : Prop := ∀ m ∈ ms, ∀ m' ∈ ms, m.node = m'.node → m.word = m'.word

instance (ms : List Mention) : Decidable (Consistent ms) :=
  inferInstanceAs (Decidable (∀ m ∈ ms, ∀ m' ∈ ms, m.node = m'.node → m.word = m'.word))

/-- What a node has under a key, once its word and its value are put before its tag, is its field. -/
theorem Mention.join_lookup (m : Mention) (wordKey key : String) :
    (((wordKey, some m.word) :: ("value", (m.spec.attributes.lookup "value").getD (some m.word)) ::
      m.spec.attributes).lookup key).join = m.field wordKey key := by
  -- a word brings no value of its own along
  have hvalue : (m.spec.attributes.lookup "value").getD (some m.word) = some m.word := by
    unfold WordSpec.attributes
    cases m.spec.tag <;> rfl
  rw [hvalue, List.lookup_cons]
  by_cases hkey : key = wordKey
  · rw [beq_iff_eq.2 hkey, hkey, field_wordKey]
    rfl
  · rw [beq_false_of_ne hkey]
    unfold field
    rw [if_neg hkey]
    dsimp only
    split
    · rfl
    · unfold WordSpec.attributes
      cases m.spec.tag <;> rfl
    · next hvalue htag =>
      unfold WordSpec.attributes
      cases m.spec.tag <;> simp [List.lookup_cons, beq_false_of_ne hvalue, beq_false_of_ne htag]

variable {P : List Mention → Mention → Prop} {ms more : List Mention} {m : Mention}

/-- Of no words each is in its turn. -/
theorem inTurn_nil : InTurn P [] := fun before m after h => by
  cases before <;> cases h

/-- Words are in their turn if those before the last one are and the last one is after them. -/
theorem inTurn_concat : InTurn P (ms ++ [m]) ↔ InTurn P ms ∧ P ms m := by
  constructor
  · refine fun h => ⟨fun before m' after hms => ?_, h ms m [] rfl⟩
    exact h before m' (after ++ [m]) (by rw [hms, List.append_assoc]; rfl)
  · rintro ⟨hms, hm⟩ before m' after h
    rcases List.eq_nil_or_concat after with rfl | ⟨after, last, rfl⟩
    · obtain ⟨rfl, hlast⟩ := List.append_inj' h rfl
      cases hlast
      exact hm
    · rw [List.concat_eq_append, ← List.cons_append, ← List.append_assoc] at h
      exact hms before m' after (List.append_inj' h rfl).1

/-- The first of words that are in their turn are so as well. -/
theorem InTurn.of_append (h : InTurn P (ms ++ more)) : InTurn P ms :=
  fun before m after hms => h before m (after ++ more) (by rw [hms, List.append_assoc]; rfl)

/-! ### New nodes -/

/-- A word stands for the node with its index, or for the next free one. -/
theorem Mention.follows_of_eq (h : m.node = .index (m.spec.index.getD (leastFree (ms.map Mention.node)))) :
    m.Follows ms where
  indexed := fun k hk => by rw [h, hk, Option.getD_some]
  unindexed := fun hnone => ⟨_, by rw [h, hnone, Option.getD_none], isLeast_leastFree _⟩

/-- Words are numbered if each stands for the node with its index, or for the next free one after those before
it. -/
theorem numbered_of_eq (h : ∀ i (hi : i < ms.length), ms[i].node =
    .index (ms[i].spec.index.getD (leastFree ((ms.take i).map Mention.node)))) : Numbered ms := by
  rintro before m after rfl
  have hm := h before.length (by simp)
  rw [List.getElem_append_right (Nat.le_refl _), List.take_left] at hm
  exact Mention.follows_of_eq (by simpa using hm)

/-- A word without an index stands for a new node. -/
theorem Mention.Follows.not_mem (h : m.Follows ms) (hindex : m.spec.index = none) :
    m.node ∉ ms.map Mention.node := by
  obtain ⟨k, hk, hleast⟩ := h.unindexed hindex
  rw [hk]
  exact hleast.1.2

/-- Words without an index all stand for nodes of their own. -/
theorem Numbered.nodup_unindexed (h : Numbered ms) :
    ((ms.filter fun m => m.spec.index = none).map Mention.node).Nodup := by
  induction ms using List.reverseRecOn with
  | nil => exact List.nodup_nil
  | append_singleton ms m ih =>
    obtain ⟨hms, hm⟩ := inTurn_concat.1 h
    by_cases hindex : m.spec.index = none
    · rw [List.filter_append, List.filter_cons_of_pos (by simpa using hindex), List.filter_nil, List.map_append,
        List.map_singleton, List.nodup_append]
      refine ⟨ih hms, List.nodup_singleton _, ?_⟩
      intro n hn n' hn'
      rw [List.mem_singleton] at hn'
      rw [hn']
      exact ne_of_mem_of_not_mem (List.map_subset _ (List.filter_subset_self _) hn) (hm.not_mem hindex)
    · rw [List.filter_append, List.filter_cons_of_neg (by simpa using hindex), List.filter_nil, List.append_nil]
      exact ih hms

/-! ### The grammar -/

/-- A part of a text: an item, what has been written in a bracket as far as one of its entries, or some items.  With
each item comes the word at its head. -/
inductive Phrase where
  | item (head : Mention)
  | bracket (head : Mention)
  | items (heads : List Mention)

/-- The tokens of a phrase, with the words in it in their order, and the edges that are added for its entries.  An
entry stands for an edge from the head of its bracket to the head of its item; it is added when the item is read,
and so after the edges within it. -/
inductive Spells : Phrase → List Token → List Mention → List Edge → Prop
  | word (m : Mention) : Spells (.item m) [.run m.run] [m] []
  /-- The word at the head of a bracket. -/
  | head (m : Mention) : Spells (.bracket m) [.run m.run] [m] []
  /-- An entry in one run: what follows the last colon is the word. -/
  | joined {head : Mention} {ts : List Token} {ms : List Mention} {es : List Edge}
      (bracket : Spells (.bracket head) ts ms es) (label : List Char) (m : Mention) (labelled : label ≠ [])
      (bare : m.run ≠ []) (last : ':' ∉ m.run) :
      Spells (.bracket head) (ts ++ [.run (label ++ ':' :: m.run)]) (ms ++ [m])
        (es ++ [⟨head.node, m.node, some (String.ofList label)⟩])
  /-- An entry with a label that ends in a colon, before any item. -/
  | apart {head m : Mention} {ts ts' : List Token} {ms ms' : List Mention} {es es' : List Edge}
      (bracket : Spells (.bracket head) ts ms es) (label : List Char) (labelled : label ≠ [])
      (item : Spells (.item m) ts' ms' es') :
      Spells (.bracket head) (ts ++ .run (label ++ [':']) :: ts') (ms ++ ms')
        (es ++ es' ++ [⟨head.node, m.node, some (String.ofList label)⟩])
  | closed {head : Mention} {ts : List Token} {ms : List Mention} {es : List Edge}
      (bracket : Spells (.bracket head) ts ms es) : Spells (.item head) (.opening :: ts ++ [.closing]) ms es
  | start : Spells (.items []) [] [] []
  | next {heads : List Mention} {m : Mention} {ts ts' : List Token} {ms ms' : List Mention} {es es' : List Edge}
      (items : Spells (.items heads) ts ms es) (item : Spells (.item m) ts' ms' es') :
      Spells (.items (heads ++ [m])) (ts ++ ts') (ms ++ ms') (es ++ es')

/-- The words at the heads of the items of a phrase. -/
def Phrase.heads : Phrase → List Mention
  | item head => [head]
  | bracket head => [head]
  | items heads => heads

variable {p : Phrase} {ts : List Token} {es : List Edge}

/-- The heads of items are among their words. -/
theorem Spells.heads_subset (h : Spells p ts ms es) : p.heads ⊆ ms := by
  induction h with
  | word m => exact List.Subset.refl _
  | head m => exact List.Subset.refl _
  | joined _ _ _ _ _ _ ih => exact List.subset_append_of_subset_left _ ih
  | apart _ _ _ _ ih _ => exact List.subset_append_of_subset_left _ ih
  | closed _ ih => exact ih
  | start => exact List.Subset.refl _
  | next _ _ ih ih' =>
    exact List.append_subset.2 ⟨List.subset_append_of_subset_left _ ih, List.subset_append_of_subset_right _ ih'⟩

/-- The head of a bracket is one of the words. -/
theorem Spells.mem_of_bracket (h : Spells (.bracket m) ts ms es) : m ∈ ms := h.heads_subset (List.mem_singleton_self m)

/-- The head of an item is one of the words. -/
theorem Spells.mem_of_item (h : Spells (.item m) ts ms es) : m ∈ ms := h.heads_subset (List.mem_singleton_self m)

/-- There are tokens just if there are items. -/
theorem Spells.ne_nil_iff {heads : List Mention} (h : Spells (.items heads) ts ms es) : ts ≠ [] ↔ heads ≠ [] := by
  cases h with
  | start => exact iff_of_false (fun h => h rfl) fun h => h rfl
  | next _ item =>
    refine iff_of_true (List.append_ne_nil_of_right_ne_nil _ ?_) (List.concat_ne_nil _ _)
    cases item with
    | word => exact List.cons_ne_nil _ _
    | closed => exact List.cons_ne_nil _ _

/-! ### Graphs -/

/-- What a graph that keeps words and labels as settings say knows of words and edges. -/
structure Tells (settings : Settings) (ms : List Mention) (es : List Edge) (g : Graph) : Prop where
  wordKey : g.wordKey = settings.wordKey
  labelKey : g.labelKey = settings.relationKey
  parallel : g.parallel = true
  nodes : g.nodes = (ms.map Mention.node).eraseDups
  words : ∀ m ∈ ms, g.word m.node = m.word
  /-- The word that mentions a node first says what it has under any key. -/
  fields : InTurn (fun before m => m.node ∉ before.map Mention.node →
    ∀ key, g.attribute? m.node key = m.field settings.wordKey key) ms
  edges : g.edges = es

namespace Tells

variable {settings : Settings} {g g' : Graph} {run : List Char} {n : Node}

/-- An empty graph tells of nothing. -/
theorem empty : Tells settings [] [] (Graph.empty settings.wordKey true settings.relationKey) where
  wordKey := rfl
  labelKey := rfl
  parallel := rfl
  nodes := rfl
  words := List.forall_mem_nil _
  fields := inTurn_nil
  edges := rfl

/-- The nodes of the graph are those of the words. -/
theorem mem_iff (h : Tells settings ms es g) : n ∈ g ↔ n ∈ ms.map Mention.node := by
  show n ∈ g.nodes ↔ _
  rw [h.nodes, List.mem_eraseDups]

/-- The next index is the least positive one that no word has used. -/
theorem isLeast_nextIndex (h : Tells settings ms es g) :
    IsLeast {k : Nat | 0 < k ∧ Node.index k ∉ ms.map Mention.node} (nextIndex g) := by
  have hused : {k : Nat | 0 < k ∧ Node.index k ∉ g.nodes} =
      {k : Nat | 0 < k ∧ Node.index k ∉ ms.map Mention.node} := by
    simp only [h.nodes, List.mem_eraseDups]
  rw [nextIndex, ← hused]
  exact isLeast_leastFree g.nodes

/-- A word for a node that is there leaves the graph as it is. -/
theorem again (h : Tells settings ms es g) (hnode : m.node ∈ ms.map Mention.node) (hword : g.word m.node = m.word) :
    Tells settings (ms ++ [m]) es g where
  wordKey := h.wordKey
  labelKey := h.labelKey
  parallel := h.parallel
  nodes := by
    rw [List.map_append, List.map_singleton, eraseDups_append_of_subset (by simpa using hnode)]
    exact h.nodes
  words := List.forall_mem_append.2 ⟨h.words, List.forall_mem_singleton.2 hword⟩
  fields := inTurn_concat.2 ⟨h.fields, fun hnew => absurd hnode hnew⟩
  edges := h.edges

/-- A word for a new node. -/
theorem new (h : Tells settings ms es g) (hnew : m.node ∉ ms.map Mention.node)
    (hadd : g.addNode? m.node m.word m.spec.attributes = some g') : Tells settings (ms ++ [m]) es g' := by
  have hnode : m.node ∉ g := mt h.mem_iff.1 hnew
  have hnames := names_of_addNode? hadd
  -- the new node has the fields of its word, and all others keep theirs
  have hfield : ∀ key, g'.attribute? m.node key = m.field settings.wordKey key := fun key => by
    rw [attribute?_addNode? hnode hadd, if_pos rfl, h.wordKey, m.join_lookup]
  have hothers : ∀ m' ∈ ms, ∀ key, g'.attribute? m'.node key = g.attribute? m'.node key := fun m' hm' key => by
    rw [attribute?_addNode? hnode hadd, if_neg (ne_of_mem_of_not_mem (List.mem_map_of_mem hm') hnew)]
  refine ⟨hnames.wordKey.trans h.wordKey, hnames.labelKey.trans h.labelKey, hnames.parallel.trans h.parallel, ?_,
    List.forall_mem_append.2 ⟨fun m' hm' => ?_, List.forall_mem_singleton.2 ?_⟩,
    inTurn_concat.2 ⟨?_, fun _ => hfield⟩, hnames.edges.trans h.edges⟩
  · rw [hnames.nodes, List.map_append]
    exact nodes_foldl_mention h.nodes [m.node]
  · rw [word, hothers m' hm', hnames.wordKey]
    exact h.words m' hm'
  · rw [word, hfield, hnames.wordKey, h.wordKey, m.field_wordKey, Option.getD_some]
  · intro before m' after hms hfirst key
    rw [hothers m' (by simp [hms])]
    exact h.fields before m' after hms hfirst key

/-- An edge between nodes that are there, where labels are attributes of their edges. -/
theorem addEdge (h : Tells settings ms es g) (hkey : settings.relationKey ≠ identityKey) {m' : Mention} (hm : m ∈ ms)
    (hm' : m' ∈ ms) {label : Option String} (hadd : g.addEdge? m.node m'.node label = some g') :
    Tells settings ms (es ++ [⟨m.node, m'.node, label⟩]) g' := by
  obtain rfl := eq_addEdge_of_addEdge? (h.labelKey ▸ hkey) hadd
  refine ⟨(wordKey_addEdge ..).trans h.wordKey, (labelKey_addEdge ..).trans h.labelKey,
    (parallel_addEdge ..).trans h.parallel, ?_, fun m hm => ?_, ?_, ?_⟩
  · rw [nodes_addEdge_of_mem (h.mem_iff.2 (List.mem_map_of_mem hm)) (h.mem_iff.2 (List.mem_map_of_mem hm')), h.nodes]
  · rw [word_addEdge, h.words m hm]
  · intro before m after hms hfirst key
    rw [attribute?_addEdge]
    exact h.fields before m after hms hfirst key
  · rw [edges_addEdge h.parallel, h.edges]

/-- Whatever node a run is read as, it is the right one for it to stand for. -/
theorem follows (h : Tells settings ms es g) (hnode : Graph.nodeOf g run = .ok (n, g')) :
    Mention.Follows ms ⟨run, n⟩ ∧ Tells settings (ms ++ [⟨run, n⟩]) es g' := by
  rcases nodeOf_eq_ok_iff.1 hnode with ⟨k, hindex, rfl, hmem, hword, rfl⟩ | ⟨rfl, hmem, hadd⟩
  · refine ⟨⟨fun k' hk' => ?_, fun hnone => ?_⟩, h.again (h.mem_iff.1 hmem) hword⟩
    · cases hindex.symm.trans hk'
      rfl
    · cases hindex.symm.trans hnone
  · refine ⟨⟨fun k hk => ?_, fun hnone => ⟨_, ?_, h.isLeast_nextIndex⟩⟩, h.new (mt h.mem_iff.2 hmem) hadd⟩
    · rw [show (WordSpec.ofChars run).index = some k from hk, Option.getD_some]
    · rw [show (WordSpec.ofChars run).index = none from hnone, Option.getD_none]

/-- Where words are kept under their usual key, a word that follows others is put into the graph, or has an index that
is in use for another one. -/
theorem nodeOf (h : Tells settings ms es g) (hkey : settings.wordKey = "word") (hm : m.Follows ms) :
    (∃ g', Graph.nodeOf g m.run = .ok (m.node, g') ∧ Tells settings (ms ++ [m]) es g') ∨
      ∃ k other, m.Clashes ms k other ∧ Graph.nodeOf g m.run = .error (.fault (.otherWord k other)) := by
  -- where the node is not there yet, the word is created as it
  have hcreate : ∀ k : Nat, m.node = .index k → m.node ∉ ms.map Mention.node →
      ∃ g', create g m.spec k = .ok (m.node, g') ∧ Tells settings (ms ++ [m]) es g' := by
    intro k hk hnew
    obtain ⟨g', hadd, -⟩ := exists_adds (h.wordKey.trans hkey) (mt h.mem_iff.1 hnew) m.spec
    exact ⟨g', create_eq_ok_iff.2 ⟨hk, hadd⟩, h.new hnew hadd⟩
  rw [Graph.nodeOf]
  cases hindex : (WordSpec.ofChars m.run).index with
  | none =>
    obtain ⟨k, hk, hleast⟩ := hm.unindexed hindex
    dsimp only
    rw [h.isLeast_nextIndex.unique hleast]
    exact .inl (hcreate k hk (hm.not_mem hindex))
  | some k =>
    have hk := hm.indexed k hindex
    dsimp only
    rw [← hk]
    -- an index in use stands for its node, if the words are the same
    by_cases hmem : m.node ∈ ms.map Mention.node
    · rw [if_pos (h.mem_iff.2 hmem)]
      by_cases hword : g.word m.node = String.ofList (WordSpec.ofChars m.run).word
      · rw [if_pos hword]
        exact .inl ⟨g, rfl, h.again hmem hword⟩
      · rw [if_neg hword]
        obtain ⟨first, hfirst, hsame⟩ := List.mem_map.1 hmem
        refine .inr ⟨k, g.word m.node, ⟨hindex, ⟨first, hfirst, hsame.trans hk, ?_⟩, fun h => hword h.symm⟩, rfl⟩
        rw [← h.words first hfirst, hsame]
    · rw [if_neg (mt h.mem_iff.1 hmem)]
      exact .inl (hcreate k hk hmem)

end Tells

end DependencyQuery.Graph
