import DependencyQuery.Proofs.Notation.Counter
import DependencyQuery.Proofs.Notation.Words

namespace DependencyQuery.Graph

open Steps (bind_eq_ok ok_bind)

/-!
# What a step of reading does

* `Adds` — what a graph becomes when a word is put into it as a new node; `exists_adds` — it can be done;
* `nodeOf_eq_ok_iff` — a run stands for a node that is there, or is put into the graph as a new one;
* `Delivers`, `Reads` — where an item goes, and what a token does; `deliver_eq_ok_iff`, `step_eq_ok_iff` —
  reading does this and nothing else;
* `Reading.feed` — what the rest of a text leads to; `ofNotation_eq_ok_iff` — what a whole text does.
-/

/-! ### New nodes -/

/-- The graph `h` is the graph `g` with a word as a further node. -/
structure Adds (g : Graph) (n : Node) (spec : WordSpec) (h : Graph) : Prop where
  nodes : h.nodes = g.nodes ++ [n]
  edges : h.edges = g.edges
  wordKey : h.wordKey = g.wordKey
  labelKey : h.labelKey = g.labelKey
  parallel : h.parallel = g.parallel
  word : h.word n = String.ofList spec.word
  tag : h.attribute? n "tag" = spec.tag.map String.ofList
  others : ∀ m ≠ n, ∀ key, h.attribute? m key = g.attribute? m key

variable {g h : Graph} {n : Node} {spec : WordSpec} {run : List Char}

/-- A word that is added as a node adds just that node. -/
theorem Adds.mem_iff (ha : Adds g n spec h) {m : Node} : m ∈ h ↔ m ∈ g ∨ m = n := by
  have hmem : m ∈ h.nodes ↔ m ∈ g.nodes ∨ m = n := by simp [ha.nodes]
  exact hmem

/-- A word that is added as a node leaves the words of the others as they are. -/
theorem Adds.word_of_ne (ha : Adds g n spec h) {m : Node} (hm : m ≠ n) : h.word m = g.word m := by
  rw [Graph.word, ha.wordKey, ha.others m hm, Graph.word]

/-- Where words are kept under their usual key, any word can be put into a graph. -/
theorem exists_adds (hkey : g.wordKey = "word") (hn : n ∉ g) (spec : WordSpec) :
    ∃ h, g.addNode? n (String.ofList spec.word) spec.attributes = some h ∧ Adds g n spec h := by
  -- none of the attributes that a word brings along hides the word
  have hapart : g.keepsApart spec.attributes = true := by
    rw [keepsApart, hkey]
    unfold WordSpec.attributes
    split <;> rfl
  have hadd : g.addNode? n (String.ofList spec.word) spec.attributes =
      some ((g.mention n).describe n ((g.wordKey, some (String.ofList spec.word)) ::
        ("value", (spec.attributes.lookup "value").getD (some (String.ofList spec.word))) ::
          spec.attributes)) := by
    rw [addNode?, if_pos hapart]
  have hown := fun key => (attribute?_addNode? hn hadd n key).trans (if_pos rfl)
  refine ⟨_, hadd, ?_, ?_, ?_, ?_, ?_, ?_, ?_, fun m hm key => ?_⟩
  · rw [nodes_describe, nodes_mention, if_neg hn]
  · simp [describe, mention, hn]
  · simp [describe, mention, hn]
  · simp [describe, mention, hn]
  · simp [describe, mention, hn]
  · have hwordKey : ((g.mention n).describe n ((g.wordKey, some (String.ofList spec.word)) ::
        ("value", (spec.attributes.lookup "value").getD (some (String.ofList spec.word))) ::
          spec.attributes)).wordKey = g.wordKey := by
      simp [describe, mention, hn]
    rw [word, hwordKey, hown]
    simp
  · rw [hown, hkey]
    unfold WordSpec.attributes
    cases spec.tag <;> rfl
  · exact (attribute?_addNode? hn hadd m key).trans (if_neg hm)

/-- A word is created as the node with the given index, unless its attributes hide those of the graph. -/
theorem create_eq_ok_iff {k : Nat} :
    create g spec k = .ok (n, h) ↔
      n = .index k ∧ g.addNode? n (String.ofList spec.word) spec.attributes = some h := by
  unfold create
  constructor
  · intro hnew
    split at hnew
    · next hadd =>
      cases hnew
      exact ⟨rfl, hadd⟩
    · cases hnew
  · rintro ⟨rfl, hadd⟩
    rw [hadd]

/-- A run whose index is taken stands for the node that has it, which goes by the same word; any other
run is a new node, with the index of the run or else the next free one. -/
theorem nodeOf_eq_ok_iff :
    nodeOf g run = .ok (n, h) ↔
      (∃ k, (WordSpec.ofChars run).index = some k ∧ n = .index k ∧ n ∈ g ∧
        g.word n = String.ofList (WordSpec.ofChars run).word ∧ h = g) ∨
      (n = .index ((WordSpec.ofChars run).index.getD (nextIndex g)) ∧ n ∉ g ∧
        g.addNode? n (String.ofList (WordSpec.ofChars run).word) (WordSpec.ofChars run).attributes =
          some h) := by
  unfold nodeOf
  cases hindex : (WordSpec.ofChars run).index with
  | none =>
    rw [create_eq_ok_iff]
    constructor
    · rintro ⟨rfl, hadd⟩
      exact .inr ⟨rfl, nextIndex_not_mem g, hadd⟩
    · rintro (⟨k, hk, -⟩ | ⟨hn, -, hadd⟩)
      · cases hk
      · exact ⟨hn, hadd⟩
  | some k =>
    dsimp only [Option.getD_some]
    split
    · next hmem =>
      -- the index is in use, and stands for its node if the words are the same
      constructor
      · intro hold
        split at hold
        · next hword =>
          cases hold
          exact .inl ⟨k, rfl, rfl, hmem, hword, rfl⟩
        · cases hold
      · rintro (⟨_, ⟨⟩, rfl, -, hword, rfl⟩ | ⟨rfl, hnew, -⟩)
        · rw [if_pos hword]
        · exact absurd hmem hnew
    · next hmem =>
      -- the index is free, and the word becomes its node
      rw [create_eq_ok_iff]
      constructor
      · rintro ⟨rfl, hadd⟩
        exact .inr ⟨rfl, hmem, hadd⟩
      · rintro (⟨_, ⟨⟩, rfl, hold, -⟩ | ⟨hn, -, hadd⟩)
        · exact absurd hold hmem
        · exact ⟨hn, hadd⟩

/-! ### Tokens -/

/-- Where an item goes. -/
inductive Delivers : Reading → Node → Reading → Prop
  /-- Below the head of the innermost bracket, with the label that waits for it. -/
  | attach {g h : Graph} {items : List Node} {head item : Node} {entry : Entry} {outer : List Frame}
      (labelled : entry.label ≠ [])
      (added : g.addEdge? head item (some (String.ofList entry.label)) = some h) :
      Delivers ⟨g, items, .headed head (some entry) :: outer⟩ item ⟨h, items, .headed head none :: outer⟩
  /-- Among the items outside of all brackets, where no label waits. -/
  | list {g : Graph} {items : List Node} {item : Node} {frames : List Frame}
      (free : ∀ head entry outer, frames ≠ .headed head (some entry) :: outer) :
      Delivers ⟨g, items, frames⟩ item ⟨g, items ++ [item], frames⟩

/-- Whether an item may come: no word is to come first, and no label. -/
def AwaitsItem (frames : List Frame) : Prop :=
  (∀ outer, frames ≠ .opened :: outer) ∧ ∀ head outer, frames ≠ .headed head none :: outer

/-- An item may stand outside of all brackets, or after the label of an entry. -/
theorem AwaitsItem.eq_nil_or {frames : List Frame} (h : AwaitsItem frames) :
    frames = [] ∨ ∃ head entry outer, frames = .headed head (some entry) :: outer := by
  rcases frames with - | ⟨- | ⟨head, - | entry⟩, outer⟩
  · exact .inl rfl
  · exact absurd rfl (h.1 outer)
  · exact absurd rfl (h.2 head outer)
  · exact .inr ⟨head, entry, outer, rfl⟩

/-- What a token does to what has been read. -/
inductive Reads : Reading → Token → Reading → Prop
  | opening {g : Graph} {items : List Node} {frames : List Frame} (awaits : AwaitsItem frames) :
      Reads ⟨g, items, frames⟩ .opening ⟨g, items, .opened :: frames⟩
  /-- The word at the head of a bracket. -/
  | head {g h : Graph} {items : List Node} {outer : List Frame} {chars : List Char} {n : Node}
      (node : nodeOf g chars = .ok (n, h)) :
      Reads ⟨g, items, .opened :: outer⟩ (.run chars) ⟨h, items, .headed n none :: outer⟩
  /-- The end of a bracket, which is an item that has been read. -/
  | closing {g : Graph} {items : List Node} {outer : List Frame} {head : Node} {r : Reading}
      (delivered : Delivers ⟨g, items, outer⟩ head r) :
      Reads ⟨g, items, .headed head none :: outer⟩ .closing r
  /-- A label whose item is still to come. -/
  | label {g : Graph} {items : List Node} {outer : List Frame} {head : Node} {chars label : List Char}
      (split : splitAtLast ':' chars = some (label, [])) :
      Reads ⟨g, items, .headed head none :: outer⟩ (.run chars)
        ⟨g, items, .headed head (some ⟨label, chars⟩) :: outer⟩
  /-- A label with its item. -/
  | entry {g h h' : Graph} {items : List Node} {outer : List Frame} {head item : Node}
      {chars label spec : List Char} (split : splitAtLast ':' chars = some (label, spec))
      (bare : spec ≠ []) (node : nodeOf g spec = .ok (item, h)) (labelled : label ≠ [])
      (added : h.addEdge? head item (some (String.ofList label)) = some h') :
      Reads ⟨g, items, .headed head none :: outer⟩ (.run chars)
        ⟨h', items, .headed head none :: outer⟩
  /-- An item without a bracket. -/
  | item {g h : Graph} {items : List Node} {frames : List Frame} {chars : List Char} {n : Node}
      {r : Reading} (awaits : AwaitsItem frames) (node : nodeOf g chars = .ok (n, h))
      (delivered : Delivers ⟨h, items, frames⟩ n r) :
      Reads ⟨g, items, frames⟩ (.run chars) r

variable {r r' : Reading} {t : Token}

/-- An item is attached under a label that is not empty, if the graph takes the edge. -/
theorem attach_eq_ok_iff {head item : Node} {entry : Entry} :
    attach g head entry item = .ok h ↔
      entry.label ≠ [] ∧ g.addEdge? head item (some (String.ofList entry.label)) = some h := by
  unfold attach
  constructor
  · intro hattach
    split at hattach
    · cases hattach
    · next hlabel =>
      split at hattach
      · next hadded =>
        cases hattach
        exact ⟨by simpa using hlabel, hadded⟩
      · cases hattach
  · rintro ⟨hlabel, hadded⟩
    rw [if_neg (by simpa using hlabel), hadded]

/-- An item is delivered to the list outside of all brackets, or attached to the head of the innermost one. -/
theorem deliver_eq_ok_iff {item : Node} : r.deliver item = .ok r' ↔ Delivers r item r' := by
  obtain ⟨g, items, frames⟩ := r
  constructor
  · intro h
    unfold Reading.deliver at h
    split at h
    · next head entry outer hframes =>
      -- an entry of the innermost bracket waits for the item
      cases hframes
      obtain ⟨g', hattach, h⟩ := bind_eq_ok h
      obtain ⟨hlabel, hadded⟩ := attach_eq_ok_iff.1 hattach
      cases h
      exact .attach hlabel hadded
    · next hfree =>
      cases h
      exact .list hfree
  · rintro (⟨hlabel, hadded⟩ | hfree)
    · simp only [Reading.deliver]
      rw [attach_eq_ok_iff.2 ⟨hlabel, hadded⟩]
      rfl
    · unfold Reading.deliver
      split
      · next heq => exact absurd heq (hfree _ _ _)
      · rfl

/-- A token does what `Reads` says, and reading stops where that says nothing. -/
theorem step_eq_ok_iff : r.step t = .ok r' ↔ Reads r t r' := by
  obtain ⟨g, items, frames⟩ := r
  constructor
  · intro h
    unfold Reading.step at h
    split at h
    · next outer chars hframes =>
      cases hframes
      obtain ⟨⟨head, g'⟩, hnode, h⟩ := bind_eq_ok h
      cases h
      exact .head hnode
    · cases h
    · next head outer hframes =>
      cases hframes
      exact .closing (deliver_eq_ok_iff.1 h)
    · cases h
    · next head outer chars hframes =>
      cases hframes
      split at h
      · cases h
      · next label hsplit =>
        cases h
        exact .label hsplit
      · next label spec hbare hsplit =>
        obtain ⟨⟨item, g'⟩, hnode, h⟩ := bind_eq_ok h
        obtain ⟨g'', hattach, h⟩ := bind_eq_ok h
        obtain ⟨hlabel, hadded⟩ := attach_eq_ok_iff.1 hattach
        cases h
        exact .entry hsplit (fun e => hbare (by rw [e])) hnode hlabel hadded
    · cases h
    · next hopened hheaded =>
      cases h
      exact .opening ⟨hopened, hheaded⟩
    · next hopened hheaded =>
      obtain ⟨⟨item, g'⟩, hnode, h⟩ := bind_eq_ok h
      exact .item ⟨hopened, hheaded⟩ hnode (deliver_eq_ok_iff.1 h)
  · intro h
    cases h with
    | opening awaits =>
      rcases awaits.eq_nil_or with rfl | ⟨head, entry, outer, rfl⟩ <;> rfl
    | head node =>
      simp only [Reading.step, node, ok_bind]
      rfl
    | closing delivered => exact deliver_eq_ok_iff.2 delivered
    | label split => simp only [Reading.step, split]
    | @entry _ h h' _ _ head item chars label spec split bare node labelled added =>
      have hattach : attach h head ⟨label, chars⟩ item = .ok h' :=
        attach_eq_ok_iff.2 ⟨labelled, added⟩
      obtain ⟨c, spec, rfl⟩ := List.exists_cons_of_ne_nil bare
      simp only [Reading.step, split, node, ok_bind, hattach]
      rfl
    | item awaits node delivered =>
      -- the two ways of awaiting an item are what the last match of a step tells apart
      rcases awaits.eq_nil_or with rfl | ⟨head, entry, outer, rfl⟩
      all_goals
        simp only [Reading.step, node, ok_bind]
        exact deliver_eq_ok_iff.2 delivered

/-! ### Reading on -/

namespace Reading

variable {pending chars s : List Char}

/-- What the rest of a text leads to, after the characters already collected for a run. -/
def feed (r : Reading) (pending s : List Char) : Except Stop Reading :=
  (tokensAfter pending s).foldlM step r

/-- A text that is not broken into tokens joins the run before it. -/
theorem feed_append (h : Plain chars) : r.feed pending (chars ++ s) = r.feed (pending ++ chars) s := by
  rw [feed, tokensAfter_append h, feed]

/-- What breaks tokens ends the run before it. -/
theorem feed_run (hne : pending ≠ []) (hs : Breaks s) (h : Reads r (.run pending) r') :
    r.feed pending s = r'.feed [] s := by
  have hrun : pendingRun pending = [.run pending] := if_neg (by simpa using hne)
  rw [feed, tokensAfter_of_breaks hs, hrun, List.singleton_append, List.foldlM_cons,
    step_eq_ok_iff.2 h, ok_bind, feed]

/-- A blank after no run is passed over. -/
@[simp] theorem feed_blank (r : Reading) (s : List Char) : r.feed [] (' ' :: s) = r.feed [] s := rfl

/-- An opening bracket is a token of its own. -/
theorem feed_opening (h : Reads r .opening r') : r.feed [] ('[' :: s) = r'.feed [] s := by
  have htokens : tokensAfter [] ('[' :: s) = .opening :: tokensAfter [] s := rfl
  rw [feed, htokens, List.foldlM_cons, step_eq_ok_iff.2 h, ok_bind, feed]

/-- A closing bracket is a token of its own. -/
theorem feed_closing (h : Reads r .closing r') : r.feed [] (']' :: s) = r'.feed [] s := by
  have htokens : tokensAfter [] (']' :: s) = .closing :: tokensAfter [] s := rfl
  rw [feed, htokens, List.foldlM_cons, step_eq_ok_iff.2 h, ok_bind, feed]

end Reading

/-! ### Whole texts -/

/-- A text writes the graph that its tokens lead to, if it has any and no bracket stays open. -/
theorem ofNotation_eq_ok_iff {settings : Settings} {text : String} :
    ofNotation settings text = .ok g ↔
      tokens text.toList ≠ [] ∧ ∃ h items,
        (tokens text.toList).foldlM Reading.step
            ⟨empty settings.wordKey true settings.relationKey, [], []⟩ = .ok ⟨h, items, []⟩ ∧
          g = h.setRoots items := by
  rw [← ofTokens_eq_ok_iff, tokens, Ne, tokensAfter_eq_nil_iff]
  simp only [ofNotation]
  split
  · next hblank => simp [hblank]
  · next hblank =>
    simp only [hblank]
    split <;> simp_all [tokens]

end DependencyQuery.Graph
