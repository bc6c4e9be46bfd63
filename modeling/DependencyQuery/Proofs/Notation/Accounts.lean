import DependencyQuery.Proofs.Notation.Mentions

namespace DependencyQuery.Graph

open Steps (ok_bind)

/-!
# A graph that is read keeps every word of its text

* `Drafts` — the tokens, words and edges of what has been read so far, bracket by bracket;
* `Account` — what has been read, with a graph that tells of all of it; `Account.step` — a token adds what it says,
  `Account.foldlM` — and so do all tokens in turn;
* `Leads` — what comes of reading words, unless one has an index that is in use for another; `Spells.run` — every
  phrase is read in this way;
* `AccountsFor` — what a graph shows of a text, `ofNotation_keeps_words` — for every text that is read.
-/

/-! ### From what is read to what has been written -/

/-- What has been written as far as some brackets that are still open: the items before them, and in each bracket
the entries so far, after which a label may wait for its item.  Outer brackets all wait for one. -/
inductive Drafts : List Frame → List Mention → List Token → List Mention → List Edge → Prop
  | items {heads : List Mention} {ts : List Token} {ms : List Mention} {es : List Edge}
      (items : Spells (.items heads) ts ms es) : Drafts [] heads ts ms es
  | opened {frames : List Frame} {heads : List Mention} {ts : List Token} {ms : List Mention} {es : List Edge}
      (awaits : AwaitsItem frames) (outer : Drafts frames heads ts ms es) :
      Drafts (.opened :: frames) heads (ts ++ [.opening]) ms es
  | headed {frames : List Frame} {heads : List Mention} {head : Mention} {ts ts' : List Token}
      {ms ms' : List Mention} {es es' : List Edge} (awaits : AwaitsItem frames) (outer : Drafts frames heads ts ms es)
      (bracket : Spells (.bracket head) ts' ms' es') :
      Drafts (.headed head.node none :: frames) heads (ts ++ .opening :: ts') (ms ++ ms') (es ++ es')
  | waiting {frames : List Frame} {heads : List Mention} {head : Mention} {label : List Char} {ts ts' : List Token}
      {ms ms' : List Mention} {es es' : List Edge} (awaits : AwaitsItem frames) (outer : Drafts frames heads ts ms es)
      (bracket : Spells (.bracket head) ts' ms' es') :
      Drafts (.headed head.node (some ⟨label, label ++ [':']⟩) :: frames) heads
        (ts ++ .opening :: ts' ++ [.run (label ++ [':'])]) (ms ++ ms') (es ++ es')

/-- An account of what has been read: the items outside of brackets, the tokens, the words and the edges. -/
structure Account (settings : Settings) (heads : List Mention) (ts : List Token) (ms : List Mention)
    (es : List Edge) (r : Reading) : Prop where
  drafts : Drafts r.frames heads ts ms es
  tells : Tells settings ms es r.graph
  numbered : Numbered ms
  items : r.items = heads.map Mention.node

variable {settings : Settings} {g : Graph} {r r' : Reading} {t : Token} {ts ts' : List Token}
  {ms ms' heads : List Mention} {es es' : List Edge} {m : Mention} {items : List Node} {frames : List Frame}
  {k : Nat} {other : String}

variable (hkey : settings.relationKey ≠ identityKey)

include hkey

/-- An item is accounted for where it is delivered. -/
theorem Account.deliver (hdelivers : Delivers ⟨g, items, frames⟩ m.node r) (awaits : AwaitsItem frames)
    (hdrafts : Drafts frames heads ts ms es) (hitem : Spells (.item m) ts' ms' es')
    (htells : Tells settings (ms ++ ms') (es ++ es') g) (hnumbered : Numbered (ms ++ ms'))
    (hitems : items = heads.map Mention.node) :
    ∃ heads' es'', Account settings heads' (ts ++ ts') (ms ++ ms') es'' r := by
  cases hdelivers with
  | list free =>
    -- an item outside of all brackets is one more head
    cases hdrafts with
    | items hbefore =>
      exact ⟨heads ++ [m], es ++ es', .items (hbefore.next hitem), htells, hnumbered, by
        rw [hitems, List.map_append]; rfl⟩
    | opened => exact absurd rfl (awaits.1 _)
    | headed => exact absurd rfl (awaits.2 _ _)
    | waiting => exact absurd rfl (free _ _ _)
  | attach labelled added =>
    -- an item after a label ends the entry that the innermost bracket waits for
    cases hdrafts with
    | @waiting frames _ head label ts ts₁ ms ms₁ es es₁ awaits outer bracket =>
      have hhead : head ∈ ms ++ ms₁ ++ ms' := by simp [bracket.mem_of_bracket]
      have hm : m ∈ ms ++ ms₁ ++ ms' := by simp [hitem.mem_of_item]
      refine ⟨heads, _, ?_, htells.addEdge hkey hhead hm added, hnumbered, hitems⟩
      simpa only [List.append_assoc, List.cons_append, List.nil_append] using
        Drafts.headed awaits outer (bracket.apart label labelled hitem)

/-- A token adds to what has been read what it says. -/
theorem Account.step (h : Account settings heads ts ms es r) (hstep : Reads r t r') :
    ∃ heads' ms' es', Account settings heads' (ts ++ [t]) ms' es' r' := by
  obtain ⟨hdrafts, htells, hnumbered, hitems⟩ := h
  -- the open brackets say what has been written last, and so what the token goes on
  cases hstep with
  | opening awaits => exact ⟨heads, ms, es, .opened awaits hdrafts, htells, hnumbered, hitems⟩
  | @head g g' items outer chars n node =>
    cases hdrafts with
    | @opened _ _ ts _ _ awaits outer =>
      obtain ⟨hfollows, htells⟩ := htells.follows node
      refine ⟨heads, _, _, ?_, htells, inTurn_concat.2 ⟨hnumbered, hfollows⟩, hitems⟩
      simpa only [List.append_assoc, List.singleton_append, List.append_nil] using
        Drafts.headed awaits outer (.head ⟨chars, n⟩)
  | closing delivered =>
    cases hdrafts with
    | @headed frames _ head ts ts₁ ms ms₁ es es₁ awaits outer bracket =>
      obtain ⟨heads', es'', haccount⟩ :=
        Account.deliver hkey delivered awaits outer bracket.closed htells hnumbered hitems
      refine ⟨heads', ms ++ ms₁, es'', ?_⟩
      simpa only [List.append_assoc, List.cons_append] using haccount
  | @label g items outer _ chars label split =>
    obtain ⟨rfl, -⟩ := splitAtLast_eq_some_iff.1 split
    cases hdrafts with
    | headed awaits outer bracket =>
      exact ⟨heads, _, _, .waiting awaits outer bracket, htells, hnumbered, hitems⟩
  | @entry g g' g'' items outer _ item chars label spec split bare node labelled added =>
    obtain ⟨rfl, hlast⟩ := splitAtLast_eq_some_iff.1 split
    cases hdrafts with
    | @headed frames _ head ts ts₁ ms ms₁ es es₁ awaits outer bracket =>
      obtain ⟨hfollows, htells⟩ := htells.follows node
      have hhead : head ∈ ms ++ ms₁ ++ [⟨spec, item⟩] := by simp [bracket.mem_of_bracket]
      have hitem : (⟨spec, item⟩ : Mention) ∈ ms ++ ms₁ ++ [⟨spec, item⟩] := by simp
      refine ⟨heads, _, _, ?_, htells.addEdge hkey hhead hitem added, inTurn_concat.2 ⟨hnumbered, hfollows⟩, hitems⟩
      have hjoined := Drafts.headed awaits outer (bracket.joined label ⟨spec, item⟩ labelled bare hlast)
      simpa only [List.append_assoc, List.cons_append] using hjoined
  | @item g g' items frames chars n r' awaits node delivered =>
    obtain ⟨hfollows, htells⟩ := htells.follows node
    obtain ⟨heads', es'', haccount⟩ := Account.deliver (m := ⟨chars, n⟩) hkey delivered awaits hdrafts
      (.word _) (by rwa [List.append_nil]) (inTurn_concat.2 ⟨hnumbered, hfollows⟩) hitems
    exact ⟨heads', _, es'', haccount⟩

/-- So does a whole run over tokens. -/
theorem Account.foldlM (h : Account settings heads ts ms es r) (hread : ts'.foldlM Reading.step r = .ok r') :
    ∃ heads' ms' es', Account settings heads' (ts ++ ts') ms' es' r' := by
  induction ts' generalizing r heads ts ms es with
  | nil =>
    cases hread
    exact ⟨heads, ms, es, by rwa [List.append_nil]⟩
  | cons t rest ih =>
    rw [List.foldlM_cons] at hread
    obtain ⟨next, hnext, hread⟩ := Steps.bind_eq_ok hread
    obtain ⟨heads', ms', es', h'⟩ := h.step hkey (step_eq_ok_iff.1 hnext)
    obtain ⟨heads'', ms'', es'', h''⟩ := ih h' hread
    exact ⟨heads'', ms'', es'', by rwa [List.append_assoc, List.singleton_append] at h''⟩

omit hkey

/-! ### From what is written to what is read -/

/-- Whether some words hold one with an index that is in use for another. -/
def Clash (ms : List Mention) (k : Nat) (other : String) : Prop :=
  ∃ before m after, ms = before ++ m :: after ∧ m.Clashes before k other

/-- A clash among the first words stays one, whatever follows. -/
theorem Clash.append (h : Clash ms k other) (more : List Mention) : Clash (ms ++ more) k other := by
  obtain ⟨before, m, after, rfl, hclash⟩ := h
  exact ⟨before, m, after ++ more, by rw [List.append_assoc]; rfl, hclash⟩

/-- Reading some words leads on with a graph that tells of them, or stops at one whose index is in use for another. -/
def Leads (ms : List Mention) (es : List Edge) (next : Graph → Except Stop Reading) (x : Except Stop Reading) :
    Prop :=
  (∃ g, Tells {} ms es g ∧ x = next g) ∨ ∃ k other, Clash ms k other ∧ x = .error (.fault (.otherWord k other))

namespace Leads

variable {next next' : Graph → Except Stop Reading} {f : Reading → Except Stop Reading} {x : Except Stop Reading}

/-- What leads on, followed by what leads on from there, leads on by both. -/
theorem bind {more : List Mention} (h : Leads ms es next x)
    (hnext : ∀ g, Tells {} ms es g → Leads (ms ++ more) es' next' (next g >>= f)) :
    Leads (ms ++ more) es' next' (x >>= f) := by
  rcases h with ⟨g, htells, rfl⟩ | ⟨k, other, hclash, rfl⟩
  · exact hnext g htells
  · exact .inr ⟨k, other, hclash.append more, rfl⟩

/-- What leads on may go on from a graph that tells the same in another way. -/
theorem mono (h : Leads ms es next x)
    (hnext : ∀ g, Tells {} ms es g → ∃ g', Tells {} ms es' g' ∧ next g = next' g') : Leads ms es' next' x := by
  rcases h with ⟨g, htells, rfl⟩ | hclash
  · exact .inl (hnext g htells)
  · exact .inr hclash

end Leads

/-- So does reading one word. -/
theorem Tells.leads (h : Tells {} ms es g) (hm : m.Follows ms) (f : Node × Graph → Except Stop Reading) :
    Leads (ms ++ [m]) es (fun g' => f (m.node, g')) (Graph.nodeOf g m.run >>= f) := by
  rcases h.nodeOf rfl hm with ⟨g', hok, htells⟩ | ⟨k, other, hclash, herror⟩
  · exact .inl ⟨g', htells, by rw [hok, ok_bind]⟩
  · exact .inr ⟨k, other, ⟨ms, m, [], rfl, hclash⟩, by rw [herror]; rfl⟩

/-! The steps of reading, where each kind of token may come. -/

/-- Reading one token takes one step. -/
theorem foldlM_singleton (r : Reading) (t : Token) : [t].foldlM Reading.step r = r.step t := by
  rw [List.foldlM_cons]
  cases r.step t <;> rfl

/-- An opening bracket opens a frame, where an item may stand. -/
theorem step_opening (awaits : AwaitsItem frames) :
    Reading.step ⟨g, items, frames⟩ .opening = .ok ⟨g, items, .opened :: frames⟩ :=
  step_eq_ok_iff.2 (.opening awaits)

/-- A run where an item may stand is read as a node, which is delivered. -/
theorem step_item (awaits : AwaitsItem frames) (run : List Char) :
    Reading.step ⟨g, items, frames⟩ (.run run) =
      nodeOf g run >>= fun read => Reading.deliver ⟨read.2, items, frames⟩ read.1 := by
  rcases awaits.eq_nil_or with rfl | ⟨head, entry, outer, rfl⟩ <;> rfl

/-- A run that ends in a colon names the edge to the next item. -/
theorem step_label {head : Node} (label : List Char) :
    Reading.step ⟨g, items, .headed head none :: frames⟩ (.run (label ++ [':'])) =
      .ok ⟨g, items, .headed head (some ⟨label, label ++ [':']⟩) :: frames⟩ :=
  step_eq_ok_iff.2 (.label (splitAtLast_eq_some_iff.2 ⟨rfl, List.not_mem_nil⟩))

/-- A run with a colon inside adds an edge to the node that is read from what follows the colon. -/
theorem step_entry {head : Node} {label run : List Char} (bare : run ≠ []) (last : ':' ∉ run) :
    Reading.step ⟨g, items, .headed head none :: frames⟩ (.run (label ++ ':' :: run)) =
      nodeOf g run >>= fun read =>
        attach read.2 head ⟨label, label ++ ':' :: run⟩ read.1 >>= fun g' =>
          .ok ⟨g', items, .headed head none :: frames⟩ := by
  have hsplit : splitAtLast ':' (label ++ ':' :: run) = some (label, run) :=
    splitAtLast_eq_some_iff.2 ⟨rfl, last⟩
  obtain ⟨c, run, rfl⟩ := List.exists_cons_of_ne_nil bare
  simp only [Reading.step, hsplit]
  rfl

/-- The edge for an entry is added where both of its ends are there. -/
theorem Tells.attach (h : Tells {} ms es g) {head : Mention} {label : List Char} (chars : List Char)
    (hhead : head ∈ ms) (hm : m ∈ ms) (labelled : label ≠ []) :
    ∃ g', Tells {} ms (es ++ [⟨head.node, m.node, some (String.ofList label)⟩]) g' ∧
      attach g head.node ⟨label, chars⟩ m.node = .ok g' := by
  have hadded := addEdge?_of_labelKey h.labelKey head.node m.node (some (String.ofList label))
  exact ⟨_, h.addEdge (by decide) hhead hm hadded, attach_eq_ok_iff.2 ⟨labelled, hadded⟩⟩

/-- Where a phrase is read: an item where one may come, and items outside of all brackets. -/
def Phrase.Fits : Phrase → List Frame → Prop
  | .item _, frames => AwaitsItem frames
  | .bracket _, _ => True
  | .items _, frames => frames = []

/-- The brackets that are open when a phrase is read. -/
def Phrase.opens : Phrase → List Frame → List Frame
  | .item _, frames => frames
  | .bracket _, outer => .opened :: outer
  | .items _, frames => frames

/-- What a phrase leads to once it has been read. -/
def Phrase.ends : Phrase → List Node → List Frame → Graph → Except Stop Reading
  | .item m, items, frames, g => Reading.deliver ⟨g, items, frames⟩ m.node
  | .bracket m, items, outer, g => .ok ⟨g, items, .headed m.node none :: outer⟩
  | .items heads, items, frames, g => .ok ⟨g, items ++ heads.map Mention.node, frames⟩

/-- **Any phrase is read** with all its words and edges, unless a word has an index that is in use for another. -/
theorem Spells.run {p : Phrase} (h : Spells p ts ms' es') {ms : List Mention} {es : List Edge} {g : Graph}
    (items : List Node) {frames : List Frame} (hfits : p.Fits frames) (htells : Tells {} ms es g)
    (hnumbered : Numbered (ms ++ ms')) :
    Leads (ms ++ ms') (es ++ es') (p.ends items frames) (ts.foldlM Reading.step ⟨g, items, p.opens frames⟩) := by
  -- on the phrase, for any words and edges that the graph it starts from tells of
  induction h generalizing ms es g items frames with
  | word m =>
    have hm : m.Follows ms := hnumbered ms m [] rfl
    rw [List.append_nil, foldlM_singleton, Phrase.opens, step_item hfits]
    exact htells.leads hm fun read => Reading.deliver ⟨read.2, items, frames⟩ read.1
  | head m =>
    have hm : m.Follows ms := hnumbered ms m [] rfl
    rw [List.append_nil, foldlM_singleton]
    exact htells.leads hm fun read => .ok ⟨read.2, items, .headed read.1 none :: frames⟩
  | @joined head ts ms₁ es₁ bracket label m labelled bare last ih =>
    rw [← List.append_assoc] at hnumbered
    rw [← List.append_assoc ms, ← List.append_assoc es, List.foldlM_append]
    refine (ih _ hfits htells hnumbered.of_append).bind fun g' htells => ?_
    have hhead : head ∈ ms ++ ms₁ ++ [m] := by simp [bracket.mem_of_bracket]
    have hm : m ∈ ms ++ ms₁ ++ [m] := by simp
    rw [Phrase.ends, ok_bind, foldlM_singleton, step_entry bare last]
    refine (htells.leads (hnumbered _ m [] rfl) _).mono fun g'' htells => ?_
    obtain ⟨g₃, htells, hattach⟩ := htells.attach _ hhead hm labelled
    exact ⟨g₃, htells, by rw [hattach, ok_bind]; rfl⟩
  | @apart head m ts ts' ms₁ ms₂ es₁ es₂ bracket label labelled item ih ih' =>
    rw [← List.append_assoc] at hnumbered
    rw [← List.append_assoc ms, ← List.append_assoc es, ← List.append_assoc es, List.foldlM_append]
    refine (ih _ hfits htells hnumbered.of_append).bind fun g' htells => ?_
    rw [Phrase.ends, ok_bind, List.foldlM_cons, step_label, ok_bind]
    have awaits : AwaitsItem (.headed head.node (some ⟨label, label ++ [':']⟩) :: frames) := ⟨by simp, by simp⟩
    have hhead : head ∈ ms ++ ms₁ ++ ms₂ := by simp [bracket.mem_of_bracket]
    have hm : m ∈ ms ++ ms₁ ++ ms₂ := by simp [item.mem_of_item]
    refine (ih' items awaits htells hnumbered).mono fun g'' htells => ?_
    -- the item is delivered where its label waits
    obtain ⟨g₃, htells, hattach⟩ := htells.attach (label ++ [':']) hhead hm labelled
    exact ⟨g₃, htells, by rw [Phrase.ends, Reading.deliver]; dsimp only; rw [hattach]; rfl⟩
  | @closed head ts ms₁ es₁ bracket ih =>
    rw [List.cons_append, List.foldlM_cons, Phrase.opens, step_opening hfits, ok_bind, List.foldlM_append,
      ← List.append_nil (ms ++ ms₁)]
    refine (ih _ trivial htells hnumbered).bind fun g' htells => ?_
    rw [Phrase.ends, ok_bind, foldlM_singleton, List.append_nil]
    exact .inl ⟨g', htells, rfl⟩
  | start =>
    refine .inl ⟨g, ?_, ?_⟩
    · rwa [List.append_nil, List.append_nil]
    · rw [Phrase.ends, List.map_nil, List.append_nil]
      rfl
  | @next heads m ts ts' ms₁ ms₂ es₁ es₂ before item ih ih' =>
    obtain rfl := hfits
    rw [← List.append_assoc] at hnumbered
    rw [← List.append_assoc ms, ← List.append_assoc es, List.foldlM_append]
    refine (ih _ rfl htells hnumbered.of_append).bind fun g' htells => ?_
    rw [Phrase.ends, ok_bind]
    have awaits : AwaitsItem [] := ⟨by simp, by simp⟩
    refine (ih' (items ++ heads.map Mention.node) awaits htells hnumbered).mono
      fun g'' htells => ⟨g'', htells, ?_⟩
    rw [Phrase.ends, Phrase.ends, List.map_append, ← List.append_assoc]
    rfl

/-! ### Whole texts -/

/-- What a graph shows of a text: its words and edges, and as roots the nodes at the heads of its items. -/
structure AccountsFor (settings : Settings) (heads ms : List Mention) (es : List Edge) (g : Graph) : Prop
    extends Tells settings ms es g where
  declared : g.declared = heads.map Mention.node

/-- A graph that tells of all that has been read accounts for it, whatever the roots are. -/
theorem Tells.accountsFor (h : Tells settings ms es g) (heads : List Mention) :
    AccountsFor settings heads ms es (g.setRoots (heads.map Mention.node)) :=
  ⟨⟨h.wordKey, h.labelKey, h.parallel, h.nodes, h.words, h.fields, h.edges⟩, rfl⟩

/-- What a graph tells of is consistent: a node has one word. -/
theorem Tells.consistent (h : Tells settings ms es g) : Consistent ms := fun m hm m' hm' hnode => by
  rw [← h.words m hm, hnode, h.words m' hm']

/-- Words that clash are not consistent. -/
theorem Clash.not_consistent (h : Clash ms k other) (hnumbered : Numbered ms) : ¬ Consistent ms := by
  obtain ⟨before, m, after, rfl, hclash⟩ := h
  obtain ⟨first, hfirst, hnode, hword⟩ := hclash.used
  have hm : m.node = .index k := (hnumbered before m after rfl).indexed k hclash.index
  intro hconsistent
  refine hclash.differs ?_
  rw [← hword]
  exact hconsistent m (by simp) first (by simp [hfirst]) (hm.trans hnode.symm)

/-- A fault while tokens are read is the fault of the text. -/
theorem ofNotation_of_fault {text : String} {settings : Settings} {fault : NotationFault}
    (hne : tokens text.toList ≠ [])
    (hfault : (tokens text.toList).foldlM Reading.step
      ⟨empty settings.wordKey true settings.relationKey, [], []⟩ = .error (.fault fault)) :
    ofNotation settings text = .error (.misread fault text) := by
  have hblank : ¬ text.toList.all Text.isBlank = true := fun h => hne (tokensAfter_eq_nil_iff.2 ⟨rfl, h⟩)
  rw [ofNotation, if_neg hblank, ofTokens_eq_error hfault]

/-- **Bracket notation keeps every word.**  Whenever a text is read as a graph, it is made of items, and the words in
it stand for the right nodes: one with an index for the node that the index names, and one without for a new node with
the least positive index that is not in use.  The graph has these nodes and no others, each with the attributes of the
word that mentions it first; its edges are those for the entries of the text, and its roots the heads of the items.
This holds for any settings under which labels are attributes of their edges, as they are by default.

Whenever a text is made of items and the words in it stand for the right nodes, it is read as such a graph if words
with the same node are the same, and else refused for one with an index that is in use for another. -/
theorem ofNotation_keeps_words (text : String) :
    (∀ settings g, settings.relationKey ≠ identityKey → ofNotation settings text = .ok g →
      ∃ heads ms es, heads ≠ [] ∧ Spells (.items heads) (tokens text.toList) ms es ∧ Numbered ms ∧
        ((ms.filter fun m => m.spec.index = none).map Mention.node).Nodup ∧ AccountsFor settings heads ms es g) ∧
      ∀ heads ms es, heads ≠ [] → Spells (.items heads) (tokens text.toList) ms es → Numbered ms →
        (Consistent ms → ∃ g, ofNotation {} text = .ok g ∧ AccountsFor {} heads ms es g) ∧
          (¬ Consistent ms → ∃ k other, Clash ms k other ∧
            ofNotation {} text = .error (.misread (.otherWord k other) text)) := by
  constructor
  · intro settings g hkey hg
    obtain ⟨hne, h, items, hread, rfl⟩ := ofNotation_eq_ok_iff.1 hg
    have hstart : Account settings [] [] [] [] ⟨empty settings.wordKey true settings.relationKey, [], []⟩ :=
      ⟨.items .start, .empty, inTurn_nil, rfl⟩
    obtain ⟨heads, ms, es, hdrafts, htells, hnumbered, rfl⟩ := hstart.foldlM hkey hread
    cases hdrafts with
    | items hspells =>
      exact ⟨heads, ms, es, hspells.ne_nil_iff.1 hne, hspells, hnumbered, hnumbered.nodup_unindexed,
        htells.accountsFor heads⟩
  · intro heads ms es hheads hspells hnumbered
    have hne := hspells.ne_nil_iff.2 hheads
    rcases hspells.run [] (rfl : Phrase.Fits (.items heads) []) .empty hnumbered with
      ⟨g, htells, hread⟩ | ⟨k, other, hclash, hread⟩
    · refine ⟨fun _ => ⟨_, ofNotation_eq_ok_iff.2 ⟨hne, g, _, hread, rfl⟩, htells.accountsFor heads⟩, fun hnot => ?_⟩
      exact absurd htells.consistent hnot
    · refine ⟨fun hconsistent => absurd hconsistent (hclash.not_consistent hnumbered), fun _ => ?_⟩
      exact ⟨k, other, hclash, ofNotation_of_fault hne hread⟩

/-- A word with its node. -/
def mentionOf (run : String) (index : Int) : Mention := ⟨run.toList, .index index⟩

/-- A text with numbers out of turn, one entry in two parts, and a node that is mentioned again in the bracket of
another one. -/
def interwoven : String := "[a-2 x:b y: [c z:a-2]] d/NN"

/-- The words in it, with the nodes that they stand for. -/
def interwovenWords : List Mention :=
  [mentionOf "a-2" 2, mentionOf "b" 1, mentionOf "c" 3, mentionOf "a-2" 2, mentionOf "d/NN" 4]

/-- It is read with all its words, and `d` has the first number that is left.  With another word for the number of
`a` it is refused. -/
theorem ofNotation_keeps_words_interwoven :
    (∃ g, ofNotation {} interwoven = .ok g ∧
      AccountsFor {} [mentionOf "a-2" 2, mentionOf "d/NN" 4] interwovenWords
        [⟨.index 2, .index 1, some "x"⟩, ⟨.index 3, .index 2, some "z"⟩, ⟨.index 2, .index 3, some "y"⟩] g) ∧
      ∃ k other, Clash [mentionOf "a-1" 1, mentionOf "b-1" 1] k other ∧
        ofNotation {} "a-1 b-1" = .error (.misread (.otherWord k other) "a-1 b-1") := by
  constructor
  · have hinner : Spells (.item (mentionOf "c" 3)) _ _ _ :=
      .closed (.joined (.head _) ['z'] (mentionOf "a-2" 2) (by decide) (by decide) (by decide))
    have hbefore : Spells (.bracket (mentionOf "a-2" 2)) _ _ _ :=
      .joined (.head _) ['x'] (mentionOf "b" 1) (by decide) (by decide) (by decide)
    have hspells : Spells (.items [mentionOf "a-2" 2, mentionOf "d/NN" 4]) (tokens interwoven.toList) interwovenWords
        [⟨.index 2, .index 1, some "x"⟩, ⟨.index 3, .index 2, some "z"⟩, ⟨.index 2, .index 3, some "y"⟩] :=
      (Spells.start.next (.closed (hbefore.apart ['y'] (by decide) hinner))).next (.word _)
    have hnumbered : Numbered interwovenWords := numbered_of_eq (by decide)
    have hconsistent : Consistent interwovenWords := by decide
    exact ((ofNotation_keeps_words interwoven).2 _ _ _ (by decide) hspells hnumbered).1 hconsistent
  · have hspells : Spells (.items [mentionOf "a-1" 1, mentionOf "b-1" 1]) (tokens "a-1 b-1".toList)
        [mentionOf "a-1" 1, mentionOf "b-1" 1] [] :=
      (Spells.start.next (.word _)).next (.word _)
    have hnumbered : Numbered [mentionOf "a-1" 1, mentionOf "b-1" 1] := numbered_of_eq (by decide)
    exact ((ofNotation_keeps_words "a-1 b-1").2 _ _ _ (by decide) hspells hnumbered).2 (by decide)

end DependencyQuery.Graph
