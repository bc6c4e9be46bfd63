import DependencyQuery.Graph.Lemmas
import DependencyQuery.Search.Walk
import Mathlib.Data.List.Perm.Subperm

namespace DependencyQuery

/-!
# Walks: what a search of the surroundings of a node covers

A walk is given by its edges, each with its label and the node that it leads to.

* `levels` — the edges that walks of one, two, … edges end with, as far as a bound;
* `spread` — the edges beyond a lower bound, where walks need not be told apart by their length;
* `arrivalsWithin`, `Graph.arrivals` — the last edges of all walks within a range, in breadth-first order;
* `IsWalk` — whether edges follow each other as those of a walk that begins at a node;
* `mem_levels_iff`, `mem_lastFront_iff` — the levels of a search hold the last edges of the walks
  that are as long as the level is deep, and what is left are the nodes where the longest end;
* `exists_closed_spread` — what the search beyond a lower bound covers, no edge leads out of;
* `mem_spread_iff` — so it may leave each node once and still meets the last edge of every walk;
* `spread_more` — the search beyond a lower bound comes to its end by itself: once there is a round
  for every node, further rounds add nothing.
-/

/-! ### Arrivals -/

/-- The nodes that edges lead to, each where it is first met. -/
def targets (arrivals : List Arrival) : List Node := (arrivals.map Prod.snd).eraseDups

section Walk

variable (step : Node → List Arrival)

/-- The last edges of the walks of one to `count` edges that begin at `front`, level by level, and
the nodes at the ends of the longest of them. -/
def levels : (count : Nat) → (front : List Node) → List (List Arrival) × List Node
  | 0, front => ([], front)
  | _ + 1, [] => ([], [])
  | count + 1, front =>
    let arrivals := front.flatMap step
    let (more, last) := levels count (targets arrivals)
    (arrivals :: more, last)

/-- The last edges of the walks that go on from `front`, where each node is left only once; `rounds`
bounds the number of levels, and `seen` are the nodes that have been reached. -/
def spread : (rounds : Nat) → (seen front : List Node) → List Arrival
  | 0, _, _ => []
  | _ + 1, _, [] => []
  | rounds + 1, seen, front =>
    let arrivals := front.flatMap step
    let new := (targets arrivals).filter (· ∉ seen)
    arrivals ++ spread rounds (seen ++ new) new

/-- The last edges of the walks of `least` to `most` edges from a node; without an upper bound,
`size` bounds the number of nodes. -/
def arrivalsWithin (size : Nat) (start : Node) (least : Nat) : (most : Option Nat) → List Arrival
  | some most => ((levels step most [start]).1.drop (least - 1)).flatten
  | none =>
    let (below, front) := levels step least [start]
    (below.drop (least - 1)).flatten ++ spread step (size + 1) front front

end Walk

/-- The last edges of the walks from a node within a range. -/
def Graph.arrivals (g : Graph) (direction : Direction) (start : Node) (range : DepthRange) : List Arrival :=
  arrivalsWithin (g.step direction) g.size start (max range.least 1) range.most

/-! ### Walks -/

/-- Whether edges are those of a walk that begins at `start`. -/
def IsWalk (step : Node → List Arrival) : (start : Node) → (walk : List Arrival) → Prop
  | _, [] => True
  | start, a :: rest => a ∈ step start ∧ IsWalk step a.2 rest

/-- The node at which a walk ends. -/
def walkEnd : (start : Node) → (walk : List Arrival) → Node
  | start, [] => start
  | _, a :: rest => walkEnd a.2 rest

section Walk

variable {step : Node → List Arrival}

/-- A walk goes on from where it has come to. -/
theorem isWalk_append {start : Node} {walk more : List Arrival} :
    IsWalk step start (walk ++ more) ↔
      IsWalk step start walk ∧ IsWalk step (walkEnd start walk) more := by
  induction walk generalizing start with
  | nil => simp [IsWalk, walkEnd]
  | cons a rest ih => rw [List.cons_append, IsWalk, IsWalk, walkEnd, ih, and_assoc]

/-- What is left out before repetitions are is left out after them as well. -/
theorem eraseDups_filter {α : Type} [BEq α] [LawfulBEq α] (p : α → Bool) (xs : List α) :
    (xs.filter p).eraseDups = xs.eraseDups.filter p := by
  -- the first element is taken out of the rest before the rest is looked at, so the induction is on lengths
  cases xs with
  | nil => rfl
  | cons a rest =>
    have ih := eraseDups_filter p (rest.filter fun b => !b == a)
    rw [List.eraseDups_cons]
    by_cases ha : p a = true
    · rw [List.filter_cons_of_pos ha, List.filter_cons_of_pos ha, List.eraseDups_cons, ← ih,
        List.filter_filter, List.filter_filter]
      simp only [Bool.and_comm]
    · have hrest : (rest.filter fun b => !b == a).filter p = rest.filter p := by
        rw [List.filter_filter]
        refine List.filter_congr fun b _ => ?_
        by_cases hb : b = a <;> simp_all
      rw [List.filter_cons_of_neg ha, List.filter_cons_of_neg ha, ← ih, hrest]
termination_by xs.length
decreasing_by
  have := List.length_filter_le (fun b => !b == a) rest
  rw [List.length_cons]
  omega

/-- The nodes that edges lead to are those of the edges. -/
theorem mem_targets {arrivals : List Arrival} {n : Node} :
    n ∈ targets arrivals ↔ ∃ a ∈ arrivals, a.2 = n := by
  rw [targets, List.mem_eraseDups, List.mem_map]

/-- Each node that edges lead to is met once. -/
theorem nodup_targets (arrivals : List Arrival) : (targets arrivals).Nodup :=
  Graph.nodup_eraseDups _

/-! ### Level by level -/

/-- From no nodes no level has an arrival. -/
theorem levels_nil (count : Nat) : levels step count [] = ([], []) := by
  cases count <;> rfl

/-- A further level is made of the edges out of the nodes in front, and of what lies beyond them. -/
theorem flatten_drop_levels_succ (count k : Nat) (front : List Node) :
    ((levels step (count + 1) front).1.drop k).flatten =
      (if k = 0 then front.flatMap step else []) ++
        ((levels step count (targets (front.flatMap step))).1.drop (k - 1)).flatten := by
  cases front with
  | nil =>
    rw [levels_nil, List.flatMap_nil, show targets [] = [] from rfl, levels_nil, ite_self]
    simp
  | cons n rest => cases k <;> rfl

/-- The first level holds the edges out of the nodes in front, and the others begin where these lead. -/
theorem flatten_levels_succ (count : Nat) (front : List Node) :
    (levels step (count + 1) front).1.flatten =
      front.flatMap step ++ (levels step count (targets (front.flatMap step))).1.flatten :=
  flatten_drop_levels_succ count 0 front

/-- The nodes at the end of a further level are those at the end of what lies beyond the nodes in front. -/
theorem last_levels_succ (count : Nat) (front : List Node) :
    (levels step (count + 1) front).2 = (levels step count (targets (front.flatMap step))).2 := by
  cases front with
  | nil => rw [levels_nil, List.flatMap_nil, show targets [] = [] from rfl, levels_nil]
  | cons n rest => rfl

/-- An arrival is in the first level or in one from the targets of that on. -/
theorem mem_levels_succ {count k : Nat} {front : List Node} {a : Arrival} :
    a ∈ ((levels step (count + 1) front).1.drop k).flatten ↔
      (k = 0 ∧ a ∈ front.flatMap step) ∨
        a ∈ ((levels step count (targets (front.flatMap step))).1.drop (k - 1)).flatten := by
  rw [flatten_drop_levels_succ, List.mem_append]
  cases k <;> simp

/-- The levels after the first `k` hold the last edges of the walks of more than `k` edges. -/
theorem mem_levels_iff {count k : Nat} {front : List Node} {a : Arrival} :
    a ∈ ((levels step count front).1.drop k).flatten ↔
      ∃ s ∈ front, ∃ walk, IsWalk step s walk ∧ k < walk.length ∧ walk.length ≤ count ∧
        walk.getLast? = some a := by
  induction count generalizing front k with
  | zero =>
    simp only [levels, List.drop_nil, List.flatten_nil, List.not_mem_nil, false_iff]
    rintro ⟨s, _, walk, _, hk, hc, _⟩
    omega
  | succ count ih =>
    rw [mem_levels_succ, ih]
    constructor
    · rintro (⟨rfl, ha⟩ | ⟨n, hn, walk, hw, hk, hc, hl⟩)
      · obtain ⟨s, hs, hsa⟩ := List.mem_flatMap.1 ha
        exact ⟨s, hs, [a], ⟨hsa, trivial⟩, by simp, by simp, rfl⟩
      · obtain ⟨b, hb, rfl⟩ := mem_targets.1 hn
        obtain ⟨s, hs, hsb⟩ := List.mem_flatMap.1 hb
        have hne : walk ≠ [] := List.ne_nil_of_length_pos (by omega)
        refine ⟨s, hs, b :: walk, ⟨hsb, hw⟩, ?_, ?_, ?_⟩
        · rw [List.length_cons]; omega
        · rw [List.length_cons]; omega
        · rw [List.getLast?_cons_of_ne_nil hne, hl]
    · rintro ⟨s, hs, walk, hw, hk, hc, hl⟩
      -- a walk of one edge ends in this level, and a longer one goes on from its targets
      cases walk with
      | nil => simp at hk
      | cons b rest =>
        have hb : b ∈ front.flatMap step := List.mem_flatMap.2 ⟨s, hs, hw.1⟩
        cases rest with
        | nil =>
          obtain rfl : b = a := by simpa using hl
          exact .inl ⟨by simpa using hk, hb⟩
        | cons c rest =>
          rw [List.getLast?_cons_cons] at hl
          simp only [List.length_cons] at hk hc
          refine .inr ⟨b.2, mem_targets.2 ⟨b, hb, rfl⟩, c :: rest, hw.2, ?_, ?_, hl⟩
          · rw [List.length_cons]; omega
          · rw [List.length_cons]; omega

/-- What the levels leave in front are the nodes where the walks of full length end. -/
theorem mem_lastFront_iff {count : Nat} {front : List Node} {n : Node} :
    n ∈ (levels step count front).2 ↔
      ∃ s ∈ front, ∃ walk, IsWalk step s walk ∧ walk.length = count ∧ walkEnd s walk = n := by
  induction count generalizing front with
  | zero =>
    simp only [levels]
    constructor
    · intro hn
      exact ⟨n, hn, [], trivial, rfl, rfl⟩
    · rintro ⟨s, hs, walk, _, hc, rfl⟩
      rw [List.length_eq_zero_iff.1 hc]
      exact hs
  | succ count ih =>
    rw [last_levels_succ, ih]
    constructor
    · rintro ⟨m, hm, walk, hw, rfl, rfl⟩
      obtain ⟨b, hb, rfl⟩ := mem_targets.1 hm
      obtain ⟨s, hs, hsb⟩ := List.mem_flatMap.1 hb
      exact ⟨s, hs, b :: walk, ⟨hsb, hw⟩, rfl, rfl⟩
    · rintro ⟨s, hs, walk, hw, hc, rfl⟩
      cases walk with
      | nil => simp at hc
      | cons b rest =>
        have hb : b ∈ front.flatMap step := List.mem_flatMap.2 ⟨s, hs, hw.1⟩
        exact ⟨b.2, mem_targets.2 ⟨b, hb, rfl⟩, rest, hw.2, by simpa using hc, rfl⟩

/-! ### Beyond the lower bound -/

/-- From no nodes nothing spreads. -/
theorem spread_nil (rounds : Nat) (seen : List Node) : spread step rounds seen [] = [] := by
  cases rounds <;> rfl

/-- The nodes that a round reaches for the first time. -/
def newNodes (step : Node → List Arrival) (seen front : List Node) : List Node :=
  (targets (front.flatMap step)).filter (· ∉ seen)

/-- A new node is reached from the front and has not been seen. -/
theorem mem_newNodes {seen front : List Node} {n : Node} :
    n ∈ newNodes step seen front ↔ (∃ a ∈ front.flatMap step, a.2 = n) ∧ n ∉ seen := by
  rw [newNodes, List.mem_filter, mem_targets, decide_eq_true_eq]

/-- A round of the search beyond the lower bound. -/
theorem spread_succ (rounds : Nat) (seen front : List Node) :
    spread step (rounds + 1) seen front =
      front.flatMap step ++
        spread step rounds (seen ++ newNodes step seen front) (newNodes step seen front) := by
  cases front with
  | nil => rw [spread_nil, show newNodes step seen [] = [] from rfl, spread_nil]; rfl
  | cons s rest => rfl

/-- Whatever the search beyond the lower bound meets is the last edge of a walk. -/
theorem exists_walk_of_mem_spread {rounds : Nat} {seen front : List Node} {a : Arrival}
    (h : a ∈ spread step rounds seen front) :
    ∃ s ∈ front, ∃ walk, IsWalk step s walk ∧ walk.getLast? = some a := by
  induction rounds generalizing seen front with
  | zero => simp [spread] at h
  | succ rounds ih =>
    rw [spread_succ, List.mem_append] at h
    rcases h with h | h
    · obtain ⟨s, hs, hsa⟩ := List.mem_flatMap.1 h
      exact ⟨s, hs, [a], ⟨hsa, trivial⟩, rfl⟩
    · obtain ⟨m, hm, walk, hw, hl⟩ := ih h
      obtain ⟨⟨b, hb, rfl⟩, _⟩ := mem_newNodes.1 hm
      obtain ⟨s, hs, hsb⟩ := List.mem_flatMap.1 hb
      have hne : walk ≠ [] := by rintro rfl; simp at hl
      exact ⟨s, hs, b :: walk, ⟨hsb, hw⟩, by rw [List.getLast?_cons_of_ne_nil hne, hl]⟩

/-- The number of nodes that have not been seen. -/
def unseen (nodes seen : List Node) : Nat := (nodes.filter (· ∉ seen)).length

/-- The nodes that a round reaches for the first time are so many fewer to come. -/
theorem length_newNodes_add_unseen_le {nodes : List Node} (hnodes : ∀ n, ∀ a ∈ step n, a.2 ∈ nodes)
    (seen front : List Node) :
    (newNodes step seen front).length + unseen nodes (seen ++ newNodes step seen front) ≤ unseen nodes seen := by
  -- the new nodes are split off from those that have not been seen
  have hsplit : nodes.filter (· ∉ seen ++ newNodes step seen front) =
      (nodes.filter (· ∉ seen)).filter fun n => !decide (n ∈ newNodes step seen front) := by
    rw [List.filter_filter]
    refine List.filter_congr fun m _ => ?_
    simp [Bool.and_comm]
  have hnew : newNodes step seen front ⊆
      (nodes.filter (· ∉ seen)).filter fun n => decide (n ∈ newNodes step seen front) := by
    intro n hn
    obtain ⟨⟨a, ha, rfl⟩, hseen⟩ := mem_newNodes.1 hn
    obtain ⟨s, -, hsa⟩ := List.mem_flatMap.1 ha
    simp only [List.mem_filter, decide_eq_true_eq]
    exact ⟨⟨hnodes s a hsa, hseen⟩, hn⟩
  have hle := (List.subperm_of_subset ((nodup_targets _).filter _) hnew).length_le
  rw [unseen, unseen, hsplit,
    List.length_eq_length_filter_add (l := nodes.filter (· ∉ seen)) fun n => decide (n ∈ newNodes step seen front)]
  exact Nat.add_le_add_right hle _

/-- With a round for every node, there is one less for the nodes that the next round begins with. -/
theorem newNodes_eq_nil_or_unseen_lt {nodes : List Node} (hnodes : ∀ n, ∀ a ∈ step n, a.2 ∈ nodes)
    {rounds : Nat} {seen front : List Node} (hrounds : front = [] ∨ unseen nodes seen < rounds + 1) :
    newNodes step seen front = [] ∨ unseen nodes (seen ++ newNodes step seen front) < rounds := by
  have hle := length_newNodes_add_unseen_le hnodes seen front
  rcases hrounds with rfl | hlt
  · exact .inl rfl
  · by_cases hnew : newNodes step seen front = []
    · exact .inl hnew
    · have hpos := List.length_pos_of_ne_nil hnew
      exact .inr (by omega)

/-- The search beyond the lower bound covers a set of nodes that no edge leads out of.  Nodes that
have been seen but are not in front are those whose edges the rounds before have met. -/
theorem exists_closed_spread {nodes : List Node} (hnodes : ∀ n, ∀ a ∈ step n, a.2 ∈ nodes)
    {rounds : Nat} {seen front : List Node} (hrounds : front = [] ∨ unseen nodes seen < rounds) :
    ∃ covered : Node → Prop, (∀ n ∈ seen, covered n) ∧ ∀ n, covered n →
      (n ∈ seen ∧ n ∉ front) ∨
        ∀ a ∈ step n, a ∈ spread step rounds seen front ∧ covered a.2 := by
  induction rounds generalizing seen front with
  | zero =>
    obtain rfl : front = [] := hrounds.resolve_right (by omega)
    exact ⟨(· ∈ seen), fun _ h => h, fun n h => .inl ⟨h, List.not_mem_nil⟩⟩
  | succ rounds ih =>
    obtain ⟨covered, hcovered, hclosed⟩ := ih (newNodes_eq_nil_or_unseen_lt hnodes hrounds)
    refine ⟨covered, fun n hn => hcovered n (List.mem_append_left _ hn), fun n hn => ?_⟩
    rw [spread_succ]
    by_cases hfront : n ∈ front
    · -- the edges out of a node in front are met now, and lead to nodes that have been seen by then
      refine .inr fun a ha => ?_
      have harrival : a ∈ front.flatMap step := List.mem_flatMap.2 ⟨n, hfront, ha⟩
      refine ⟨List.mem_append_left _ harrival, hcovered _ ?_⟩
      by_cases hseen : a.2 ∈ seen
      · exact List.mem_append_left _ hseen
      · exact List.mem_append_right _ (mem_newNodes.2 ⟨⟨a, harrival, rfl⟩, hseen⟩)
    · rcases hclosed n hn with ⟨hseen, hnot⟩ | hedges
      · exact .inl ⟨(List.mem_append.1 hseen).resolve_right hnot, hfront⟩
      · exact .inr fun a ha => ⟨List.mem_append_right _ (hedges a ha).1, (hedges a ha).2⟩

/-- With a round for every node, the search beyond the lower bound meets the last edges of all walks
from the nodes in front. -/
theorem mem_spread_iff {nodes : List Node} (hnodes : ∀ n, ∀ a ∈ step n, a.2 ∈ nodes)
    {rounds : Nat} {front : List Node} (hrounds : unseen nodes front < rounds) {a : Arrival} :
    a ∈ spread step rounds front front ↔
      ∃ s ∈ front, ∃ walk, IsWalk step s walk ∧ walk.getLast? = some a := by
  refine ⟨exists_walk_of_mem_spread, ?_⟩
  rintro ⟨s, hs, walk, hw, hl⟩
  obtain ⟨covered, hcovered, hclosed⟩ := exists_closed_spread hnodes (.inr hrounds)
  -- every front has been followed, so that all edges out of covered nodes have been met
  have hedges : ∀ n, covered n → ∀ b ∈ step n, b ∈ spread step rounds front front ∧ covered b.2 :=
    fun n hn => (hclosed n hn).resolve_left fun h => h.2 h.1
  have hsc := hcovered s hs
  clear hs
  induction walk generalizing s with
  | nil => simp at hl
  | cons b rest ih =>
    have hb := hedges s hsc b hw.1
    cases rest with
    | nil =>
      obtain rfl : b = a := by simpa using hl
      exact hb.1
    | cons c rest => exact ih b.2 hw.2 (by rwa [List.getLast?_cons_cons] at hl) hb.2

/-- Once there is a round for every node, further rounds add nothing. -/
theorem spread_more {nodes : List Node} (hnodes : ∀ n, ∀ a ∈ step n, a.2 ∈ nodes)
    {rounds : Nat} {seen front : List Node} (hrounds : unseen nodes seen < rounds) (more : Nat) :
    spread step (rounds + more) seen front = spread step rounds seen front := by
  induction rounds generalizing seen front with
  | zero => omega
  | succ rounds ih =>
    rw [Nat.add_right_comm, spread_succ, spread_succ]
    rcases newNodes_eq_nil_or_unseen_lt hnodes (.inr hrounds) with hnew | hlt
    · rw [hnew, spread_nil, spread_nil]
    · rw [ih hlt]

end Walk

namespace Graph

/-- An edge leads to a node of the graph. -/
theorem mem_of_mem_step {g : Graph} {direction : Direction} {n : Node} {a : Arrival}
    (h : a ∈ g.step direction n) : a.2 ∈ g.nodes := by
  cases direction with
  | up => exact (g.closed _ (mem_governors.1 h)).1
  | down => exact (g.closed _ (mem_dependents.1 h)).2

/-- No more nodes are unseen than the graph has. -/
theorem unseen_le_size (g : Graph) (seen : List Node) : unseen g.nodes seen ≤ g.size := by
  rw [unseen, size, ← List.length_map (f := Prod.fst)]
  exact List.length_filter_le _ _

end Graph

end DependencyQuery
