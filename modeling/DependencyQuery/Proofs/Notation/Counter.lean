import DependencyQuery.Graph.Lemmas
import DependencyQuery.Graph.Notation.Reader
import DependencyQuery.Proofs.Steps
import Mathlib.Data.List.Nodup
import Mathlib.Data.List.Perm.Subperm
import Mathlib.Order.Bounds.Basic

namespace DependencyQuery.Graph

open Steps (bind_eq_ok ok_bind)

/-!
# Reading without a counter

A reader keeps the index to try next for a word without one, and never looks at a smaller one again.  It need not:
all smaller ones are in use, and stay so, as no node is ever taken out of a graph.  What it hands out is the least
index that is free.

* `leastFree` — the least positive index that none of some nodes has, `isLeast_leastFree`; `nextIndex` — in a graph;
* `UsedBelow` — all positive indices below a given one are in use, `freeFrom_eq` — so the first free one from there
  on is the least one at all;
* `nodeOf`, `Reading.step` — what a reader does, with the least free index in place of the counter;
* `Reader.map_step`, `Reader.map_foldlM` — a token, and then any tokens, do to a reader what they do to what it has
  read;
* `ofTokens_eq_ok_iff`, `ofTokens_eq_error` — and so do all tokens of a text.
-/

/-! ### Free indices -/

/-- The least positive index that none of the nodes has. -/
def leastFree (taken : List Node) : Nat :=
  (((List.range (taken.length + 1)).map (· + 1)).find? fun (n : Nat) => Node.index n ∉ taken).getD
    (taken.length + 1)

/-- One of the first positive indices is free, as there are more of them than nodes. -/
theorem exists_free (taken : List Node) :
    ∃ n ∈ (List.range (taken.length + 1)).map (· + 1), Node.index (n : Nat) ∉ taken := by
  by_contra hnone
  push Not at hnone
  -- all of these indices would belong to nodes, and no node has two
  have hsubset : ((List.range (taken.length + 1)).map (· + 1)).map (fun n : Nat => Node.index n) ⊆ taken := by
    intro n hn
    obtain ⟨k, hk, rfl⟩ := List.mem_map.1 hn
    exact hnone k hk
  have hnodup : (((List.range (taken.length + 1)).map (· + 1)).map fun n : Nat => Node.index n).Nodup := by
    refine (List.nodup_range.map fun a b h => Nat.succ.inj h).map fun a b h => ?_
    rw [Node.index.injEq] at h
    exact Int.ofNat.inj h
  have hlength := (List.subperm_of_subset hnodup hsubset).length_le
  simp only [List.length_map, List.length_range] at hlength
  omega

/-- The index that a new node is given is the least positive one that is not in use. -/
theorem isLeast_leastFree (taken : List Node) :
    IsLeast {k : Nat | 0 < k ∧ Node.index k ∉ taken} (leastFree taken) := by
  obtain ⟨n, hn, hfree⟩ := exists_free taken
  unfold leastFree
  cases hfind : ((List.range (taken.length + 1)).map (· + 1)).find?
      fun (n : Nat) => Node.index n ∉ taken with
  | none => exact absurd hfree (by simpa using List.find?_eq_none.1 hfind n hn)
  | some k =>
    obtain ⟨hk, i, hi, hik, hbefore⟩ := List.find?_eq_some_iff_getElem.1 hfind
    simp only [List.getElem_map, List.getElem_range] at hik hbefore
    rw [Option.getD_some, ← hik]
    refine ⟨⟨Nat.succ_pos i, by simpa [hik] using hk⟩, fun j hj => ?_⟩
    -- a smaller one would have been found before
    by_contra hlt
    have hpred : j - 1 + 1 = j := Nat.sub_add_cancel hj.1
    have hused := hbefore (j - 1) (by omega)
    rw [hpred] at hused
    exact hj.2 (by simpa using hused)

/-- The least free index is free. -/
theorem leastFree_not_mem (taken : List Node) : Node.index (leastFree taken) ∉ taken :=
  (isLeast_leastFree taken).1.2

/-- The least positive index that no node of the graph has. -/
def nextIndex (g : Graph) : Nat := leastFree g.nodes

/-- The next index is none of the graph. -/
theorem nextIndex_not_mem (g : Graph) : Node.index (nextIndex g) ∉ g := leastFree_not_mem g.nodes

/-- There are no more indices in use than there are nodes. -/
theorem nextIndex_le (g : Graph) : nextIndex g ≤ g.size + 1 := by
  obtain ⟨n, hn, hfree⟩ := exists_free g.nodes
  obtain ⟨i, hi, rfl⟩ := List.mem_map.1 hn
  have hle : nextIndex g ≤ i + 1 := (isLeast_leastFree g.nodes).2 ⟨Nat.succ_pos i, hfree⟩
  rw [List.mem_range, length_nodes] at hi
  omega

/-! ### The counter -/

/-- All positive indices below `next` are in use. -/
structure UsedBelow (g : Graph) (next : Nat) : Prop where
  pos : 0 < next
  used : ∀ k, 0 < k → k < next → Node.index k ∈ g

variable {g h : Graph} {next : Nat}

/-- Below one there is no index to be in use. -/
theorem usedBelow_one (g : Graph) : UsedBelow g 1 := ⟨Nat.one_pos, fun _ hpos hlt => absurd hpos (by omega)⟩

/-- What is in use stays in use. -/
theorem UsedBelow.mono (hused : UsedBelow g next) (hmem : ∀ n ∈ g, n ∈ h) : UsedBelow h next :=
  ⟨hused.pos, fun k hpos hlt => hmem _ (hused.used k hpos hlt)⟩

/-- An index below which all are in use does not exceed the next free one. -/
theorem UsedBelow.le_nextIndex (hused : UsedBelow g next) : next ≤ nextIndex g := by
  by_contra hlt
  exact nextIndex_not_mem g (hused.used _ (isLeast_leastFree g.nodes).1.1 (by omega))

/-- All indices below the next free one are in use. -/
theorem usedBelow_nextIndex (g : Graph) : UsedBelow g (nextIndex g) := by
  refine ⟨(isLeast_leastFree g.nodes).1.1, fun k hpos hlt => ?_⟩
  by_contra hfree
  exact absurd ((isLeast_leastFree g.nodes).2 ⟨hpos, hfree⟩) (Nat.not_le.2 hlt)

/-- From any index below which all are in use, the first free one is the least one at all. -/
theorem freeFrom_eq (hused : UsedBelow g next) : freeFrom g g.size next = nextIndex g := by
  have hfrom : ∀ rounds next, next ≤ nextIndex g → nextIndex g ≤ rounds + next → UsedBelow g next →
      freeFrom g rounds next = nextIndex g := by
    intro rounds
    induction rounds with
    | zero =>
      intro next hle hge _
      rw [Nat.zero_add] at hge
      exact Nat.le_antisymm hle hge
    | succ rounds ih =>
      intro next hle hge hused
      rw [freeFrom]
      split
      · next hmem =>
        -- the index is in use, so that it is not the next free one
        have hne : next ≠ nextIndex g := fun heq => nextIndex_not_mem g (heq ▸ hmem)
        refine ih (next + 1) (by omega) (by omega) ⟨Nat.succ_pos next, fun k hpos hlt => ?_⟩
        rcases Nat.lt_succ_iff_lt_or_eq.1 hlt with hlt | rfl
        · exact hused.used k hpos hlt
        · exact hmem
      · next hfree =>
        exact Nat.le_antisymm hle ((isLeast_leastFree g.nodes).2 ⟨hused.pos, hfree⟩)
  have hpos := hused.pos
  have hle := nextIndex_le g
  exact hfrom g.size next hused.le_nextIndex (by omega) hused

/-! ### What is read -/

/-- The node that a run stands for, and the graph with it. -/
def nodeOf (g : Graph) (run : List Char) : Except Stop (Node × Graph) :=
  match (WordSpec.ofChars run).index with
  | none => create g (WordSpec.ofChars run) (nextIndex g)
  | some k =>
    if Node.index k ∈ g then
      if g.word (.index k) = String.ofList (WordSpec.ofChars run).word then .ok (.index k, g)
      else .error (.fault (.otherWord k (g.word (.index k))))
    else create g (WordSpec.ofChars run) k

/-- What has been read so far. -/
structure Reading where
  graph : Graph
  /-- The nodes of the items outside of all brackets. -/
  items : List Node
  /-- The open brackets, the innermost first. -/
  frames : List Frame

namespace Reading

/-- Puts an item that has been read in its place. -/
def deliver (r : Reading) (item : Node) : Except Stop Reading :=
  match r.frames with
  | .headed head (some entry) :: outer => do
    let g ← attach r.graph head entry item
    return { r with graph := g, frames := .headed head none :: outer }
  | _ => .ok { r with items := r.items ++ [item] }

/-- Reads one token. -/
def step (r : Reading) (t : Token) : Except Stop Reading :=
  match r.frames, t with
  | .opened :: outer, .run chars => do
    let (head, g) ← nodeOf r.graph chars
    return { r with graph := g, frames := .headed head none :: outer }
  | .opened :: _, _ => .error (.fault .noWord)
  | .headed head none :: outer, .closing => { r with frames := outer }.deliver head
  | .headed _ none :: _, .opening => .error (.fault (.noEntry "["))
  | .headed head none :: outer, .run chars =>
    match splitAtLast ':' chars with
    | none => .error (.fault (.noEntry (String.ofList chars)))
    | some (label, []) =>
      .ok { r with frames := .headed head (some ⟨label, chars⟩) :: outer }
    | some (label, spec) => do
      let (item, g) ← nodeOf r.graph spec
      let g ← attach g head ⟨label, chars⟩ item
      return { r with graph := g }
  | _, .closing => .error (.fault .unbalancedClosing)
  | frames, .opening => .ok { r with frames := .opened :: frames }
  | _, .run chars => do
    let (item, g) ← nodeOf r.graph chars
    { r with graph := g }.deliver item

end Reading

/-! ### Readers and what they have read -/

/-- A new node takes no node away. -/
theorem mem_of_create {spec : WordSpec} {k : Nat} {n m : Node} (h' : create g spec k = .ok (n, h)) (hm : m ∈ g) :
    m ∈ h := by
  unfold create at h'
  split at h'
  · next added hadd =>
    cases h'
    unfold addNode? at hadd
    split at hadd
    · cases hadd
      exact (mem_congr (nodes_describe _ _ _)).2 (mem_mention.2 (.inl hm))
    · cases hadd
  · cases h'

/-- With a counter below which all indices are in use, a run stands for the node that it stands for without one. -/
theorem map_nodeFor (hused : UsedBelow g next) (run : List Char) :
    (nodeFor g next run).map (fun read => (read.1, read.2.1)) = nodeOf g run := by
  unfold nodeFor nodeForWord nodeOf
  cases (WordSpec.ofChars run).index with
  | none =>
    dsimp only
    rw [freeFrom_eq hused]
    cases create g (WordSpec.ofChars run) (nextIndex g) <;> rfl
  | some k =>
    dsimp only
    split
    · split <;> rfl
    · cases create g (WordSpec.ofChars run) k <;> rfl

/-- After a run, all indices below the counter are in use. -/
theorem usedBelow_nodeFor {n : Node} {next' : Nat} {run : List Char} (hused : UsedBelow g next)
    (hread : nodeFor g next run = .ok (n, h, next')) : UsedBelow h next' := by
  unfold nodeFor nodeForWord at hread
  split at hread
  · obtain ⟨⟨m, h'⟩, hcreate, heq⟩ := Steps.map_eq_ok hread
    cases heq
    rw [freeFrom_eq hused]
    exact (usedBelow_nextIndex g).mono fun _ => mem_of_create hcreate
  · split at hread
    · split at hread
      · cases hread
        exact hused
      · cases hread
    · obtain ⟨⟨m, h'⟩, hcreate, heq⟩ := Steps.map_eq_ok hread
      cases heq
      exact hused.mono fun _ => mem_of_create hcreate

/-- Attaching an item takes no node away. -/
theorem mem_of_attach {head item m : Node} {entry : Entry} (hattach : attach g head entry item = .ok h) (hm : m ∈ g) :
    m ∈ h := by
  unfold attach at hattach
  split at hattach
  · cases hattach
  · split at hattach
    · next added hadd =>
      cases hattach
      exact mem_of_addEdge? hadd hm
    · cases hattach

namespace Reader

/-- What a reader has read. -/
def forget (r : Reader) : Reading := ⟨r.graph, r.items, r.frames⟩

/-- All indices below the counter are in use. -/
def Counts (r : Reader) : Prop := UsedBelow r.graph r.next

variable {r r' : Reader}

/-- Delivering an item does not look at the counter. -/
theorem map_deliver (r : Reader) (item : Node) : (r.deliver item).map forget = r.forget.deliver item := by
  obtain ⟨g, next, items, frames⟩ := r
  rcases frames with - | ⟨- | ⟨head, - | entry⟩, outer⟩
  · rfl
  · rfl
  · rfl
  · simp only [deliver, Reading.deliver, forget]
    cases attach g head entry item <;> rfl

/-- Delivering an item leaves all indices below the counter in use. -/
theorem Counts.deliver {item : Node} (hr : r.Counts) (h : r.deliver item = .ok r') : r'.Counts := by
  unfold Reader.deliver at h
  split at h
  · obtain ⟨g, hattach, h⟩ := bind_eq_ok h
    cases h
    exact hr.mono fun _ => mem_of_attach hattach
  · cases h
    exact hr

/-- Where all indices below the counter are in use, reading a run with it and going on gives what reading the
run without it does. -/
theorem map_nodeFor_bind {α β : Type} {next : Nat} (hused : UsedBelow g next) (run : List Char)
    {f : Node × Graph × Nat → Except Stop α} {f' : Node × Graph → Except Stop β} {k : α → β}
    (hf : ∀ n h next', (f (n, h, next')).map k = f' (n, h)) :
    (nodeFor g next run >>= f).map k = nodeOf g run >>= f' := by
  rw [← map_nodeFor hused]
  cases nodeFor g next run with
  | error e => rfl
  | ok read => exact hf read.1 read.2.1 read.2.2

/-- The counter begins at one, below which there is no index. -/
theorem counts_start (g : Graph) : Counts { graph := g } := usedBelow_one g

/-- A token does to a reader what it does to what has been read. -/
theorem map_step (hr : r.Counts) (t : Token) : (r.step t).map forget = r.forget.step t := by
  obtain ⟨g, next, items, frames⟩ := r
  -- the cases are those of the frames; what a token of each kind does there follows
  rcases frames with - | ⟨- | ⟨head, - | entry⟩, outer⟩
  · cases t with
    | opening | closing => rfl
    | run chars => exact map_nodeFor_bind hr chars fun n h next' => map_deliver ⟨h, next', items, _⟩ n
  · cases t with
    | opening | closing => rfl
    | run chars => exact map_nodeFor_bind hr chars fun n h next' => rfl
  · cases t with
    | opening => rfl
    | closing => exact map_deliver ⟨g, next, items, outer⟩ head
    | run chars =>
      simp only [step, Reading.step, forget]
      rcases splitAtLast ':' chars with - | ⟨label, - | ⟨c, spec⟩⟩
      · rfl
      · rfl
      · refine map_nodeFor_bind hr (c :: spec) fun n h next' => ?_
        show ((attach h head ⟨label, chars⟩ n >>= _).map forget : Except Stop Reading) = _
        cases attach h head ⟨label, chars⟩ n <;> rfl
  · cases t with
    | opening | closing => rfl
    | run chars => exact map_nodeFor_bind hr chars fun n h next' => map_deliver ⟨h, next', items, _⟩ n

/-- Each token leaves all indices below the counter in use. -/
theorem Counts.step {t : Token} (hr : r.Counts) (h : r.step t = .ok r') : r'.Counts := by
  obtain ⟨g, next, items, frames⟩ := r
  unfold Reader.step at h
  split at h
  · -- the head of a bracket, numbered by the counter if it has no index of its own
    obtain ⟨⟨n, g', next'⟩, hnode, h⟩ := bind_eq_ok h
    cases h
    exact usedBelow_nodeFor hr hnode
  · cases h
  · next head outer hframes =>
    have hr : Counts ⟨g, next, items, outer⟩ := hr
    exact hr.deliver h
  · cases h
  · split at h
    · cases h
    · cases h
      exact hr
    · -- an entry, whose item is numbered and then attached
      obtain ⟨⟨n, g', next'⟩, hnode, h⟩ := bind_eq_ok h
      obtain ⟨g'', hattach, h⟩ := bind_eq_ok h
      cases h
      exact (usedBelow_nodeFor hr hnode).mono fun _ => mem_of_attach hattach
  · cases h
  · cases h
    exact hr
  · -- an item outside of all brackets
    obtain ⟨⟨n, g', next'⟩, hnode, h⟩ := bind_eq_ok h
    exact Counts.deliver (usedBelow_nodeFor hr hnode) h

/-- Tokens do to a reader what they do to what has been read. -/
theorem map_foldlM (hr : r.Counts) (ts : List Token) :
    (ts.foldlM step r).map forget = ts.foldlM Reading.step r.forget := by
  induction ts generalizing r with
  | nil => rfl
  | cons t ts ih =>
    rw [List.foldlM_cons, List.foldlM_cons, ← map_step hr]
    cases hstep : r.step t with
    | error e => rfl
    | ok next => exact ih (hr.step hstep)

end Reader

/-! ### Whole texts -/

variable {settings : Settings} {ts : List Token}

/-- A reader begins with an empty graph, in which no index is in use. -/
theorem map_foldlM_empty (settings : Settings) (ts : List Token) :
    (ts.foldlM Reader.step { graph := empty settings.wordKey true settings.relationKey }).map Reader.forget =
      ts.foldlM Reading.step ⟨empty settings.wordKey true settings.relationKey, [], []⟩ :=
  Reader.map_foldlM (Reader.counts_start _) ts

/-- The tokens of a text write a graph if they can be read and leave no bracket open. -/
theorem ofTokens_eq_ok_iff :
    ofTokens settings ts = .ok g ↔
      ∃ h items, ts.foldlM Reading.step ⟨empty settings.wordKey true settings.relationKey, [], []⟩ =
          .ok ⟨h, items, []⟩ ∧
        g = h.setRoots items := by
  rw [← map_foldlM_empty]
  constructor
  · intro hread
    obtain ⟨⟨h, next, items, frames⟩, hfold, hfinish⟩ := bind_eq_ok hread
    unfold Reader.finish at hfinish
    split at hfinish
    · next hframes =>
      cases hframes
      cases hfinish
      exact ⟨h, items, by rw [hfold]; rfl, rfl⟩
    · cases hfinish
    · cases hfinish
  · rintro ⟨h, items, hfold, rfl⟩
    -- what forgets its counter has had one
    obtain ⟨⟨_, next, _, _⟩, hread, hforget⟩ := Steps.map_eq_ok hfold
    cases hforget
    rw [ofTokens, hread]
    rfl

/-- Where reading stops at a token, there is no graph. -/
theorem ofTokens_eq_error {stop : Stop}
    (h : ts.foldlM Reading.step ⟨empty settings.wordKey true settings.relationKey, [], []⟩ = .error stop) :
    ofTokens settings ts = .error stop := by
  rw [← map_foldlM_empty] at h
  rw [ofTokens]
  cases hread : ts.foldlM Reader.step { graph := empty settings.wordKey true settings.relationKey } with
  | error stop' =>
    rw [hread] at h
    cases h
    rfl
  | ok r =>
    rw [hread] at h
    cases h

end DependencyQuery.Graph
