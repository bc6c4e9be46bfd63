import DependencyQuery.Proofs.Notation.Reading

namespace DependencyQuery.Graph

open Steps (bind_eq_ok foldlM_invariant)

/-!
# What bracket notation can express

* `Writable` — a graph whose nodes have indices, and words, tags and labels that a text can hold;
* `Writable.adds`, `Writable.addEdge` — further words and edges of that kind leave it so;
* `Reading.Writable` — what has been read is of that kind, and what is open refers to it; every step
  preserves this: `Reading.Writable.step`;
* `writable_of_ofNotation` — so every graph that is read from a text is writable, its declared roots are
  nodes of it, and there is one at least.
-/

/-- A node with an index, a word and perhaps a tag that a text can hold. -/
structure WritableNode (g : Graph) (n : Node) : Prop where
  index : ∃ k : Nat, n = .index k
  word_ne : (g.word n).toList ≠ []
  word_plain : Plain (g.word n).toList
  tag : ∀ tag, g.attribute? n "tag" = some tag → tag.toList ≠ [] ∧ '/' ∉ tag.toList ∧ Plain tag.toList

/-- A label that a text can hold. -/
def WritableLabel (label : Option String) : Prop :=
  ∃ text, label = some text ∧ text.toList ≠ [] ∧ Plain text.toList

/-- A run that is not empty can be written as a label. -/
theorem writableLabel_ofList {label : List Char} (hne : label ≠ []) (hplain : Plain label) :
    WritableLabel (some (String.ofList label)) :=
  ⟨_, rfl, by rwa [String.toList_ofList], by rwa [String.toList_ofList]⟩

/-- A graph that a text can hold. -/
structure Writable (g : Graph) : Prop where
  wordKey : g.wordKey = "word"
  labelKey : g.labelKey = "relation"
  node : ∀ n ∈ g, WritableNode g n
  label : ∀ e ∈ g.edges, WritableLabel e.label

/-- A word and perhaps a tag that a text can hold. -/
structure WordSpec.Writable (spec : WordSpec) : Prop where
  word_ne : spec.word ≠ []
  word_plain : Plain spec.word
  tag : ∀ tag, spec.tag = some tag → tag ≠ [] ∧ '/' ∉ tag ∧ Plain tag

variable {g h : Graph} {n : Node} {spec : WordSpec} {run : List Char}

/-- What a run is read as can be written. -/
theorem writable_ofChars (hne : run ≠ []) (hplain : Plain run) : (WordSpec.ofChars run).Writable := by
  obtain ⟨⟨hword, hsubset⟩, htag⟩ := WordSpec.ofChars_wellFormed hne
  refine ⟨hword, hplain.subset hsubset, fun tag ht => ?_⟩
  obtain ⟨htagNe, hslash, htagSubset⟩ := htag tag ht
  exact ⟨htagNe, hslash, hplain.subset htagSubset⟩

namespace Writable

/-- A further word leaves a graph writable. -/
theorem adds (hg : g.Writable) (ha : Adds g n spec h) (hn : n ∉ g) (hindex : ∃ k : Nat, n = .index k)
    (hspec : spec.Writable) : h.Writable where
  wordKey := ha.wordKey.trans hg.wordKey
  labelKey := ha.labelKey.trans hg.labelKey
  node := by
    intro m hm
    -- a node has been there before, or is the new one
    rcases ha.mem_iff.1 hm with hold | rfl
    · have hne : m ≠ n := fun e => hn (e ▸ hold)
      obtain ⟨hk, hword, hplain, htag⟩ := hg.node m hold
      refine ⟨hk, ?_, ?_, fun tag ht => htag tag ?_⟩
      · rwa [ha.word_of_ne hne]
      · rwa [ha.word_of_ne hne]
      · rwa [ha.others m hne] at ht
    · refine ⟨hindex, ?_, ?_, fun tag ht => ?_⟩
      · rw [ha.word, String.toList_ofList]
        exact hspec.word_ne
      · rw [ha.word, String.toList_ofList]
        exact hspec.word_plain
      · rw [ha.tag, Option.map_eq_some_iff] at ht
        obtain ⟨chars, hchars, rfl⟩ := ht
        rw [String.toList_ofList]
        exact hspec.tag chars hchars
  label := by
    rw [ha.edges]
    exact hg.label

/-- A further edge between nodes of a graph leaves it writable. -/
theorem addEdge (hg : g.Writable) {governor dependent : Node} (hgovernor : governor ∈ g)
    (hdependent : dependent ∈ g) {label : Option String} (hlabel : WritableLabel label) :
    (g.addEdge governor dependent label).Writable where
  wordKey := by rw [wordKey_addEdge, hg.wordKey]
  labelKey := by rw [labelKey_addEdge, hg.labelKey]
  node := by
    intro m hm
    have hm : m ∈ g.nodes := nodes_addEdge_of_mem hgovernor hdependent label ▸ hm
    obtain ⟨hk, hword, hplain, htag⟩ := hg.node m hm
    exact ⟨hk, by rwa [word_addEdge], by rwa [word_addEdge], by rwa [attribute?_addEdge]⟩
  label := by
    intro e he
    rcases mem_edges_addEdge he with he | rfl
    · exact hg.label e he
    · exact hlabel

/-- Which nodes are roots does not matter. -/
theorem setRoots (hg : g.Writable) (roots : List Node) : (g.setRoots roots).Writable where
  wordKey := hg.wordKey
  labelKey := hg.labelKey
  node := by
    intro n hn
    obtain ⟨hk, hword, hplain, htag⟩ := hg.node n hn
    exact ⟨hk, hword, hplain, htag⟩
  label := hg.label

/-- The node for a run is in the graph afterwards, like every node from before. -/
theorem nodeOf (hg : g.Writable) (hne : run ≠ []) (hplain : Plain run)
    (hnode : g.nodeOf run = .ok (n, h)) : h.Writable ∧ n ∈ h ∧ ∀ m ∈ g, m ∈ h := by
  rcases nodeOf_eq_ok_iff.1 hnode with ⟨_, _, rfl, hn, _, rfl⟩ | ⟨hindex, hn, hadd⟩
  · exact ⟨hg, hn, fun _ hm => hm⟩
  · obtain ⟨h', hadd', ha⟩ := exists_adds hg.wordKey hn (WordSpec.ofChars run)
    cases hadd.symm.trans hadd'
    exact ⟨hg.adds ha hn ⟨_, hindex⟩ (writable_ofChars hne hplain), ha.mem_iff.2 (.inr rfl),
      fun m hm => ha.mem_iff.2 (.inl hm)⟩

end Writable

/-! ### Reading -/

/-- An open bracket whose head is a node, and whose label can be written. -/
def Frame.Writable (g : Graph) : Frame → Prop
  | .opened => True
  | .headed head waiting => head ∈ g ∧ ∀ entry ∈ waiting, Plain entry.label

/-- An open bracket stays what it should be when nodes are added. -/
theorem Frame.Writable.mono {frame : Frame} (hf : frame.Writable g) (hgh : ∀ m ∈ g, m ∈ h) :
    frame.Writable h := by
  cases frame with
  | opened => trivial
  | headed head waiting => exact ⟨hgh head hf.1, hf.2⟩

/-- What has been read can be written, and what is open refers to it. -/
structure Reading.Writable (r : Reading) : Prop where
  graph : r.graph.Writable
  items : ∀ n ∈ r.items, n ∈ r.graph
  frames : ∀ frame ∈ r.frames, frame.Writable r.graph

namespace Reading.Writable

variable {r r' : Reading} {items : List Node} {frames : List Frame} {t : Token}

/-- A graph with more in it can take the place of the graph that has been read. -/
theorem mono (hr : Reading.Writable ⟨g, items, frames⟩) (hh : h.Writable) (hgh : ∀ m ∈ g, m ∈ h) :
    Reading.Writable ⟨h, items, frames⟩ :=
  ⟨hh, fun n hn => hgh n (hr.items n hn), fun frame hf => (hr.frames frame hf).mono hgh⟩

/-- Delivering an item keeps all that can be written. -/
theorem delivers (hr : r.Writable) (hn : n ∈ r.graph) (hd : Delivers r n r') : r'.Writable := by
  cases hd with
  | @attach _ _ _ _ _ entry _ labelled added =>
    obtain ⟨hgraph, hitems, hframes⟩ := hr
    cases (addEdge?_of_labelKey hgraph.labelKey _ _ _).symm.trans added
    rw [List.forall_mem_cons] at hframes
    obtain ⟨⟨hhead, hentry⟩, houter⟩ := hframes
    have hlabel : WritableLabel (some (String.ofList entry.label)) :=
      writableLabel_ofList labelled (hentry entry rfl)
    exact mono ⟨hgraph, hitems, List.forall_mem_cons.2 ⟨⟨hhead, by simp⟩, houter⟩⟩
      (hgraph.addEdge hhead hn hlabel) fun m hm => mem_addEdge.2 (.inl (.inl hm))
  | list free =>
    refine ⟨hr.graph, fun m hm => ?_, hr.frames⟩
    rcases List.mem_append.1 hm with hm | hm
    · exact hr.items m hm
    · rw [List.mem_singleton] at hm
      exact hm ▸ hn

/-- Every token leaves what has been read writable. -/
theorem step (hr : r.Writable) (ht : ∀ chars, t = .run chars → chars ≠ [] ∧ Plain chars)
    (h : r.step t = .ok r') : r'.Writable := by
  cases step_eq_ok_iff.1 h with
  | opening awaits => exact ⟨hr.graph, hr.items, List.forall_mem_cons.2 ⟨trivial, hr.frames⟩⟩
  | head node =>
    obtain ⟨hne, hplain⟩ := ht _ rfl
    obtain ⟨hgraph, hn, hmem⟩ := hr.graph.nodeOf hne hplain node
    obtain ⟨-, houter⟩ := List.forall_mem_cons.1 hr.frames
    exact ⟨hgraph, fun m hm => hmem m (hr.items m hm),
      List.forall_mem_cons.2 ⟨⟨hn, by simp⟩, fun frame hf => (houter frame hf).mono hmem⟩⟩
  | @closing _ _ outer head _ delivered =>
    -- the bracket is over, and its head goes where any other item would
    obtain ⟨⟨hhead, -⟩, houter⟩ := List.forall_mem_cons.1 hr.frames
    have hinner : Reading.Writable ⟨_, _, outer⟩ := ⟨hr.graph, hr.items, houter⟩
    exact hinner.delivers hhead delivered
  | label split =>
    obtain ⟨hne, hplain⟩ := ht _ rfl
    obtain ⟨⟨hhead, -⟩, houter⟩ := List.forall_mem_cons.1 hr.frames
    obtain ⟨rfl, -⟩ := splitAtLast_eq_some_iff.1 split
    refine ⟨hr.graph, hr.items, List.forall_mem_cons.2 ⟨⟨hhead, ?_⟩, houter⟩⟩
    rintro entry ⟨⟩
    exact (plain_append.1 hplain).1
  | entry split bare node labelled added =>
    obtain ⟨hne, hplain⟩ := ht _ rfl
    obtain ⟨⟨hhead, -⟩, houter⟩ := List.forall_mem_cons.1 hr.frames
    obtain ⟨rfl, -⟩ := splitAtLast_eq_some_iff.1 split
    obtain ⟨hlabel, hspec⟩ := plain_append.1 hplain
    obtain ⟨hgraph, hn, hmem⟩ := hr.graph.nodeOf bare (plain_cons.1 hspec).2 node
    cases (addEdge?_of_labelKey hgraph.labelKey _ _ _).symm.trans added
    exact (hr.mono hgraph hmem).mono
      (hgraph.addEdge (hmem _ hhead) hn (writableLabel_ofList labelled hlabel))
      fun m hm => mem_addEdge.2 (.inl (.inl hm))
  | item awaits node delivered =>
    obtain ⟨hne, hplain⟩ := ht _ rfl
    obtain ⟨hgraph, hn, hmem⟩ := hr.graph.nodeOf hne hplain node
    exact delivers (hr.mono hgraph hmem) hn delivered

end Reading.Writable

/-- Delivering an item takes no node away. -/
theorem Delivers.mem {r r' : Reading} {m : Node} (hd : Delivers r n r') (hm : m ∈ r.graph) :
    m ∈ r'.graph := by
  cases hd with
  | attach labelled added => exact mem_of_addEdge? added hm
  | list free => exact hm

/-- Some node has been read, or the first bracket has just been opened. -/
def Reading.Begun (r : Reading) : Prop := (∃ n, n ∈ r.graph) ∨ r.frames = [.opened]

/-- The first token begins, and no further one takes this back. -/
theorem Reading.Writable.begun {r r' : Reading} {t : Token} (hr : r.Writable)
    (ht : ∀ chars, t = .run chars → chars ≠ [] ∧ Plain chars) (hb : r.frames = [] ∨ r.Begun)
    (h : r.step t = .ok r') : r'.Begun := by
  -- outside of all brackets nothing need have been read yet, but any head or item is a node
  cases step_eq_ok_iff.1 h with
  | opening awaits =>
    rcases hb with rfl | hsome | hopened
    · exact .inr rfl
    · exact .inl hsome
    · exact absurd hopened (awaits.1 [])
  | head node =>
    obtain ⟨hne, hplain⟩ := ht _ rfl
    exact .inl ⟨_, (hr.graph.nodeOf hne hplain node).2.1⟩
  | closing delivered =>
    rcases hb with hb | ⟨m, hm⟩ | hb
    · cases hb
    · exact .inl ⟨m, delivered.mem hm⟩
    · cases hb
  | label split =>
    rcases hb with hb | hsome | hb
    · cases hb
    · exact .inl hsome
    · cases hb
  | entry split bare node labelled added =>
    obtain ⟨-, hplain⟩ := ht _ rfl
    obtain ⟨rfl, -⟩ := splitAtLast_eq_some_iff.1 split
    obtain ⟨-, hspec⟩ := plain_append.1 hplain
    obtain ⟨-, hn, -⟩ := hr.graph.nodeOf bare (plain_cons.1 hspec).2 node
    exact .inl ⟨_, mem_of_addEdge? added hn⟩
  | item awaits node delivered =>
    obtain ⟨hne, hplain⟩ := ht _ rfl
    exact .inl ⟨_, delivered.mem (hr.graph.nodeOf hne hplain node).2.1⟩

/-- An empty graph can be written. -/
theorem writable_empty : (empty "word" true).Writable :=
  ⟨rfl, rfl, fun _ h => absurd h List.not_mem_nil, fun _ h => absurd h List.not_mem_nil⟩

/-- Whatever is read from a text can be written, its declared roots are nodes of it, and there is one
node at least. -/
theorem writable_of_ofNotation {text : String} (h : ofNotation {} text = .ok g) :
    g.Writable ∧ (∀ n ∈ g.declared, n ∈ g) ∧ ∃ n, n ∈ g := by
  obtain ⟨htokens, read, items, hfold, rfl⟩ := ofNotation_eq_ok_iff.1 h
  have hruns : ∀ t ∈ tokens text.toList, ∀ chars, t = .run chars → chars ≠ [] ∧ Plain chars := by
    rintro _ ht chars rfl
    exact plain_of_run_mem plain_nil ht
  have hstart : Reading.Writable ⟨empty "word" true, [], []⟩ := ⟨writable_empty, by simp, by simp⟩
  obtain ⟨t, ts, hts⟩ := List.exists_cons_of_ne_nil htokens
  rw [hts] at hfold hruns
  rw [List.forall_mem_cons] at hruns
  obtain ⟨first, hfirst, hfold⟩ := bind_eq_ok hfold
  -- before the first token nothing has begun, so the invariant of the rest starts after it
  have hr : Reading.Writable ⟨read, items, []⟩ ∧ Reading.Begun ⟨read, items, []⟩ := by
    refine foldlM_invariant (P := fun r => r.Writable ∧ r.Begun) (fun t ht _ _ hr hstep => ?_)
      ⟨hstart.step hruns.1 hfirst, hstart.begun hruns.1 (.inl rfl) hfirst⟩ hfold
    exact ⟨hr.1.step (hruns.2 t ht) hstep, hr.1.begun (hruns.2 t ht) (.inr hr.2) hstep⟩
  exact ⟨hr.1.graph.setRoots items, hr.1.items, hr.2.resolve_right (by simp)⟩

end DependencyQuery.Graph
