import DependencyQuery.Proofs.Walk.Walks

namespace DependencyQuery

/-!
# The queue of a breadth-first search, level by level

A search takes one node after another from its queue.  As nodes are put at its end, those that so many edges lead
to come before all that more edges lead to: the search goes through the levels of walks.

* `acceptedNodes` — the nodes of arrivals with an accepted label, each where it is first accepted;
* `sweepArrivals` — the edges that a search follows once walks are long enough for them to count,
  `sweep_eq_acceptedNodes` — what it finds is accepted of these;
* `Sweep.enqueueAll_eq` — what edges add to the queue: the nodes that are not reached for another time in the same
  state, each once;
* `sweepArrivals_front` — all nodes that so many edges lead to are done before any other, and
  `sweepArrivals_levels`, `sweepArrivals_spread`, `sweepArrivals_open` — so the search follows the levels of walks as
  far as its bound, or, without one, each node beyond the lower bound once;
* `Graph.witnessesWithin_eq` — so the search for witnesses comes to its end within the rounds that it is given, and
  finds the accepted arrivals.
-/

/-- The nodes of arrivals with an accepted label, each where it is first accepted. -/
def acceptedNodes {ε : Type} (accepts : Option String → Except ε Bool) :
    (returned : List Node) → List Arrival → Results ε Node
  | _, [] => .done
  | returned, (label, n) :: rest =>
    if n ∈ returned then acceptedNodes accepts returned rest
    else
      match accepts label with
      | .error e => .failed e
      | .ok true => .next n fun _ => acceptedNodes accepts (n :: returned) rest
      | .ok false => acceptedNodes accepts returned rest

section Sweep

variable (least : Nat) (most : Option Nat)

/-- The search after edges have been followed. -/
def Sweep.enqueueAll (s : Sweep) (depth : Nat) (edges : List Arrival) : Sweep :=
  edges.foldl (fun s a => s.enqueue least most a.2 depth) s

/-- The edges that a search follows, of those that end walks of at least `least` edges. -/
def sweepArrivals (step : Node → List Arrival) : (rounds : Nat) → Sweep → List Arrival
  | 0, _ => []
  | rounds + 1, s =>
    match s.queue with
    | [] => []
    | (n, depth) :: queue =>
      (if least ≤ depth + 1 then step n else []) ++
        sweepArrivals step rounds (Sweep.enqueueAll least most { s with queue } (depth + 1) (step n))

variable {least most} {s : Sweep} {depth : Nat} {edges : List Arrival} {step : Node → List Arrival}

/-! ### What has been found does not change the way -/

/-- What has been found does not change what is put into the queue. -/
theorem Sweep.enqueue_with (s : Sweep) (returned : List Node) (n : Node) (depth : Nat) :
    Sweep.enqueue least most { s with returned } n depth = { s.enqueue least most n depth with returned } := by
  unfold enqueue
  split
  · rfl
  · split <;> rfl

/-- What has been found does not change what edges put into the queue. -/
theorem Sweep.enqueueAll_with (s : Sweep) (returned : List Node) (depth : Nat) (edges : List Arrival) :
    Sweep.enqueueAll least most { s with returned } depth edges =
      { s.enqueueAll least most depth edges with returned } := by
  induction edges generalizing s with
  | nil => rfl
  | cons a rest ih => rw [enqueueAll, List.foldl_cons, enqueue_with]; exact ih _

/-- What has been found does not change which edges are followed. -/
theorem sweepArrivals_with (s : Sweep) (returned : List Node) (rounds : Nat) :
    sweepArrivals least most step rounds { s with returned } = sweepArrivals least most step rounds s := by
  induction rounds generalizing s with
  | zero => rfl
  | succ rounds ih =>
    obtain ⟨queue, seen, found⟩ := s
    cases queue with
    | nil => rfl
    | cons place queue =>
      have hrest := ih (Sweep.enqueueAll least most ⟨queue, seen, found⟩ (place.2 + 1) (step place.1))
      rw [← Sweep.enqueueAll_with] at hrest
      exact congrArg ((if least ≤ place.2 + 1 then step place.1 else []) ++ ·) hrest

/-- Putting a node into the queue finds nothing. -/
theorem Sweep.returned_enqueue (s : Sweep) (n : Node) (depth : Nat) :
    (s.enqueue least most n depth).returned = s.returned := by
  unfold enqueue
  split
  · rfl
  · split <;> rfl

/-- What a search finds along some edges and later is what is accepted of them and of the edges that it follows
later. -/
theorem sweepEdges_eq {ε : Type} {accepts : Option String → Except ε Bool} {after : Sweep → Results ε Node}
    {later : Sweep → List Arrival} (hafter : ∀ s, after s = acceptedNodes accepts s.returned (later s))
    (hlater : ∀ s returned, later { s with returned } = later s) (edges : List Arrival) (s : Sweep) :
    sweepEdges least most accepts depth after edges s =
      acceptedNodes accepts s.returned
        ((if least ≤ depth then edges else []) ++ later (s.enqueueAll least most depth edges)) := by
  induction edges generalizing s with
  | nil => rw [sweepEdges, hafter, ite_self]; rfl
  | cons a rest ih =>
    obtain ⟨label, n⟩ := a
    -- where the first edge finds nothing, the others are followed from there
    have hnext : sweepEdges least most accepts depth after rest (s.enqueue least most n depth) =
        acceptedNodes accepts s.returned ((if least ≤ depth then rest else []) ++
          later (s.enqueueAll least most depth ((label, n) :: rest))) := by
      rw [ih, Sweep.returned_enqueue]
      rfl
    rw [sweepEdges]
    by_cases hdepth : least ≤ depth
    · rw [if_pos hdepth] at hnext ⊢
      rw [List.cons_append, acceptedNodes]
      by_cases hn : n ∈ s.returned
      · rw [if_pos hn, if_neg (fun h => h.2 hn), hnext]
      · rw [if_neg hn, if_pos ⟨hdepth, hn⟩]
        rcases accepts label with e | _ | _
        · rfl
        · exact hnext
        · -- the node has been found, which changes nothing but what is found later
          refine congrArg (Results.next n) (funext fun _ => ?_)
          rw [ih, if_pos hdepth, Sweep.returned_enqueue, Sweep.enqueue_with, Sweep.enqueueAll_with, hlater]
          rfl
    · rw [if_neg hdepth] at hnext ⊢
      rw [if_neg fun h => hdepth h.1, hnext]

/-- What a search finds is what is accepted of the edges that it follows. -/
theorem sweep_eq_acceptedNodes {ε : Type} (accepts : Option String → Except ε Bool) (rounds : Nat) (s : Sweep) :
    sweep least most accepts step rounds s =
      acceptedNodes accepts s.returned (sweepArrivals least most step rounds s) := by
  induction rounds generalizing s with
  | zero => rfl
  | succ rounds ih =>
    obtain ⟨queue, seen, returned⟩ := s
    cases queue with
    | nil => rfl
    | cons place queue =>
      rw [sweep]
      exact sweepEdges_eq ih (fun s returned => sweepArrivals_with s returned rounds) _ _

/-! ### What edges add to the queue -/

/-- The nodes that edges lead to and that walks of so many edges reach in a new state, each once. -/
def Sweep.fresh (least : Nat) (most : Option Nat) (s : Sweep) (depth : Nat) (edges : List Arrival) : List Node :=
  (targets edges).filter fun n => !s.seen.contains (stateOf least most n depth)

/-- At one depth, different nodes are in different states. -/
theorem stateOf_inj {n m : Node} : stateOf least most n depth = stateOf least most m depth ↔ n = m :=
  ⟨fun h => congrArg Prod.fst h, fun h => h ▸ rfl⟩

/-- A first edge adds the node that it leads to, and the others add what is not that node. -/
theorem targets_cons (a : Arrival) (rest : List Arrival) :
    targets (a :: rest) = a.2 :: (targets rest).filter (· ≠ a.2) := by
  rw [targets, List.map_cons, List.eraseDups_cons, eraseDups_filter]
  exact congrArg (a.2 :: ·) (List.filter_congr fun n _ => by by_cases hn : n = a.2 <;> simp [hn])

/-- Where walks may go on, edges put each node into the queue that they reach in a new state. -/
theorem Sweep.enqueueAll_eq (hmost : most.any (· ≤ depth) = false) (s : Sweep) (edges : List Arrival) :
    s.enqueueAll least most depth edges =
      { s with
        queue := s.queue ++ (s.fresh least most depth edges).map (·, depth)
        seen := s.seen ++ (s.fresh least most depth edges).map (stateOf least most · depth) } := by
  induction edges generalizing s with
  | nil => simp [enqueueAll, fresh, targets]
  | cons a rest ih =>
    have hstep : s.enqueueAll least most depth (a :: rest) =
      (s.enqueue least most a.2 depth).enqueueAll least most depth rest := rfl
    rw [hstep, ih, enqueue, if_neg (by simp [hmost])]
    by_cases hseen : stateOf least most a.2 depth ∈ s.seen
    · -- the node has been met in this state before
      have hfresh : s.fresh least most depth (a :: rest) = s.fresh least most depth rest := by
        rw [fresh, targets_cons, List.filter_cons_of_neg (by simpa using hseen), List.filter_filter]
        refine List.filter_congr fun n _ => ?_
        by_cases hn : n = a.2 <;> simp [hn, hseen]
      rw [if_pos hseen, hfresh]
    · -- the node is put at the end of the queue, and is not met in this state again
      have hfresh : s.fresh least most depth (a :: rest) =
          a.2 :: Sweep.fresh least most
            { s with
              queue := s.queue ++ [(a.2, depth)]
              seen := s.seen ++ [stateOf least most a.2 depth] } depth rest := by
        rw [fresh, targets_cons, List.filter_cons_of_pos (by simpa using hseen), List.filter_filter, fresh]
        refine congrArg (a.2 :: ·) (List.filter_congr fun n _ => ?_)
        simp [stateOf_inj]
      rw [if_neg hseen, hfresh]
      simp

/-- Where walks may not be any longer, nothing is put into the queue. -/
theorem Sweep.enqueueAll_of_most (hmost : most.any (· ≤ depth) = true) (s : Sweep) (edges : List Arrival) :
    s.enqueueAll least most depth edges = s := by
  induction edges generalizing s with
  | nil => rfl
  | cons a rest ih =>
    have henqueue : s.enqueue least most a.2 depth = s := if_pos hmost
    rw [enqueueAll, List.foldl_cons, henqueue]
    exact ih s

/-- What is in the queue stays there before what edges add. -/
theorem Sweep.enqueueAll_queue_append (before queue : List (Node × Nat)) (seen : List (Node × Nat))
    (returned : List Node) (depth : Nat) (edges : List Arrival) :
    Sweep.enqueueAll least most ⟨before ++ queue, seen, returned⟩ depth edges =
      { Sweep.enqueueAll least most ⟨queue, seen, returned⟩ depth edges with
        queue := before ++ (Sweep.enqueueAll least most ⟨queue, seen, returned⟩ depth edges).queue } := by
  cases hmost : most.any (· ≤ depth) with
  | true => simp only [enqueueAll_of_most hmost]
  | false => simp only [enqueueAll_eq hmost, fresh, List.append_assoc]

/-! ### One level after another -/

variable (least most step depth) in
/-- All nodes that so many edges lead to are gone on from before any other node. -/
theorem sweepArrivals_front (front : List Node) (pending seen : List (Node × Nat)) (returned : List Node)
    (rounds : Nat) :
    sweepArrivals least most step (front.length + rounds) ⟨front.map (·, depth) ++ pending, seen, returned⟩ =
      (if least ≤ depth + 1 then front.flatMap step else []) ++
        sweepArrivals least most step rounds
          (Sweep.enqueueAll least most ⟨pending, seen, returned⟩ (depth + 1) (front.flatMap step)) := by
  induction front generalizing pending seen returned with
  | nil => simp [Sweep.enqueueAll]
  | cons n rest ih =>
    have hrounds : (n :: rest).length + rounds = rest.length + rounds + 1 := by rw [List.length_cons]; omega
    -- what the front adds to the queue, its first node adds before the others
    have hall : Sweep.enqueueAll least most ⟨pending, seen, returned⟩ (depth + 1) ((n :: rest).flatMap step) =
        (Sweep.enqueueAll least most ⟨pending, seen, returned⟩ (depth + 1) (step n)).enqueueAll least most
          (depth + 1) (rest.flatMap step) := by
      rw [List.flatMap_cons, Sweep.enqueueAll, List.foldl_append]
      rfl
    rw [hrounds, hall, List.map_cons, List.cons_append, sweepArrivals]
    show _ ++ sweepArrivals least most step (rest.length + rounds)
      (Sweep.enqueueAll least most ⟨rest.map (·, depth) ++ pending, seen, returned⟩ (depth + 1) (step n)) = _
    -- the others of the front still stand before all that has been added
    rw [Sweep.enqueueAll_queue_append, ih, List.flatMap_cons, ← List.append_assoc]
    congr 1
    split <;> simp

/-- From an empty queue no edge is followed. -/
theorem sweepArrivals_nil (rounds : Nat) (seen : List (Node × Nat)) (returned : List Node) :
    sweepArrivals least most step rounds ⟨[], seen, returned⟩ = [] := by
  cases rounds <;> rfl

/-- Where walks may go on, the nodes that are reached in a new state make up the next front. -/
theorem sweepArrivals_next (hmost : most.any (· ≤ depth + 1) = false) (front : List Node) (seen : List (Node × Nat))
    (returned : List Node) (rounds : Nat) {next : List Node}
    (hnext : next = (targets (front.flatMap step)).filter fun n => !seen.contains (stateOf least most n (depth + 1))) :
    sweepArrivals least most step (front.length + rounds) ⟨front.map (·, depth), seen, returned⟩ =
      (if least ≤ depth + 1 then front.flatMap step else []) ++
        sweepArrivals least most step rounds
          ⟨next.map (·, depth + 1), seen ++ next.map (stateOf least most · (depth + 1)), returned⟩ := by
  have hfront := sweepArrivals_front least most depth step front [] seen returned rounds
  rw [List.append_nil, Sweep.enqueueAll_eq hmost] at hfront
  rw [hfront, hnext]
  rfl

/-- The edges out of a front count where no level is left out any more. -/
theorem flatten_drop_levels_front (least depth count : Nat) (front : List Node) :
    ((levels step (count + 1) front).1.drop (least - 1 - depth)).flatten =
      (if least ≤ depth + 1 then front.flatMap step else []) ++
        ((levels step count (targets (front.flatMap step))).1.drop (least - 1 - (depth + 1))).flatten := by
  have hcount : least - 1 - depth = 0 ↔ least ≤ depth + 1 := by omega
  rw [flatten_drop_levels_succ, Nat.sub_sub _ depth 1]
  simp only [hcount]

/-- Where states are told apart by their depth, further edges reach no node in a state of shorter walks. -/
theorem eq_filter_of_depth_le {seen : List (Node × Nat)}
    (hstate : ∀ n, stateOf least most n (depth + 1) = (n, depth + 1)) (hseen : ∀ state ∈ seen, state.2 ≤ depth)
    (next : List Node) : next = next.filter fun n => !seen.contains (stateOf least most n (depth + 1)) := by
  refine (List.filter_eq_self.2 fun n _ => ?_).symm
  rw [hstate, Bool.not_eq_true', ← Bool.not_eq_true, List.contains_iff_mem]
  exact fun hmem => Nat.not_succ_le_self depth (hseen _ hmem)

/-- Where states are told apart by their depth, those of one more edge are no deeper than that. -/
theorem depth_le_of_mem_append {seen : List (Node × Nat)}
    (hstate : ∀ n, stateOf least most n (depth + 1) = (n, depth + 1)) (hseen : ∀ state ∈ seen, state.2 ≤ depth)
    (next : List Node) : ∀ state ∈ seen ++ next.map (stateOf least most · (depth + 1)), state.2 ≤ depth + 1 := by
  intro state hmem
  rcases List.mem_append.1 hmem with hold | hfresh
  · exact Nat.le_succ_of_le (hseen state hold)
  · obtain ⟨n, -, rfl⟩ := List.mem_map.1 hfresh
    exact Nat.le_of_eq (congrArg Prod.snd (hstate n))

section Nodes

variable {nodes : List Node}

/-- What is reached along edges are nodes, each once. -/
theorem length_targets_le (hnodes : ∀ n, ∀ a ∈ step n, a.2 ∈ nodes) (front : List Node) :
    (targets (front.flatMap step)).length ≤ nodes.length := by
  refine (List.subperm_of_subset (nodup_targets _) fun n hn => ?_).length_le
  obtain ⟨a, ha, rfl⟩ := mem_targets.1 hn
  obtain ⟨m, -, hm⟩ := List.mem_flatMap.1 ha
  exact hnodes m a hm

/-- As far as its bound, a search follows the levels of walks: no state has been met before in which a further edge
reaches a node. -/
theorem sweepArrivals_levels (hnodes : ∀ n, ∀ a ∈ step n, a.2 ∈ nodes) {bound depth : Nat} (count : Nat)
    (hbound : depth + count + 1 = bound) (front : List Node) (seen : List (Node × Nat)) (returned : List Node)
    (hseen : ∀ state ∈ seen, state.2 ≤ depth) {rounds : Nat} (hrounds : front.length + nodes.length * count ≤ rounds) :
    sweepArrivals least (some bound) step rounds ⟨front.map (·, depth), seen, returned⟩ =
      ((levels step (count + 1) front).1.drop (least - 1 - depth)).flatten := by
  induction count generalizing depth front seen rounds with
  | zero =>
    -- the last level: its edges are followed, and nothing is added to the queue
    obtain ⟨more, rfl⟩ := Nat.exists_eq_add_of_le (Nat.le_of_add_right_le hrounds)
    have hmost : (some bound).any (· ≤ depth + 1) = true := by simp [← hbound]
    have hfront := sweepArrivals_front least (some bound) depth step front [] seen returned more
    rw [List.append_nil, Sweep.enqueueAll_of_most hmost, sweepArrivals_nil] at hfront
    rw [hfront, flatten_drop_levels_front]
    simp [levels]
  | succ count ih =>
    obtain ⟨more, rfl⟩ := Nat.exists_eq_add_of_le (Nat.le_of_add_right_le hrounds)
    have hmost : (some bound).any (· ≤ depth + 1) = false := by
      simp only [Option.any_some, decide_eq_false_iff_not]
      omega
    -- with a bound, states are told apart by their depth
    have hstate (n : Node) : stateOf least (some bound) n (depth + 1) = (n, depth + 1) := rfl
    have hlength := length_targets_le hnodes front
    -- the rounds that are left suffice for the levels that are left
    have hmore : (targets (front.flatMap step)).length + nodes.length * count ≤ more := by
      rw [Nat.mul_succ] at hrounds
      omega
    rw [sweepArrivals_next hmost front seen returned more (eq_filter_of_depth_le hstate hseen _),
      flatten_drop_levels_front, ih (by omega) _ _ (depth_le_of_mem_append hstate hseen _) hmore]

/-- Beyond its lower bound, a search without an upper one goes on from each node once. -/
theorem sweepArrivals_spread (hnodes : ∀ n, ∀ a ∈ step n, a.2 ∈ nodes) {depth : Nat} (hdepth : least ≤ depth)
    (front reached : List Node) (seen : List (Node × Nat)) (returned : List Node)
    (hseen : ∀ n, (n, least) ∈ seen ↔ n ∈ reached) {turns rounds : Nat}
    (hturns : front = [] ∨ unseen nodes reached < turns) (hrounds : front.length + unseen nodes reached ≤ rounds) :
    sweepArrivals least none step rounds ⟨front.map (·, depth), seen, returned⟩ = spread step turns reached front := by
  induction turns generalizing depth front reached seen rounds with
  | zero =>
    obtain rfl : front = [] := hturns.resolve_right (Nat.not_lt_zero _)
    exact sweepArrivals_nil rounds seen returned
  | succ turns ih =>
    obtain ⟨more, rfl⟩ := Nat.exists_eq_add_of_le (Nat.le_of_add_right_le hrounds)
    -- beyond the lower bound the depth does not tell states apart any more
    have hstate (n : Node) : stateOf least none n (depth + 1) = (n, least) :=
      congrArg (n, ·) (Nat.min_eq_right (Nat.le_succ_of_le hdepth))
    have hnext : newNodes step reached front =
        (targets (front.flatMap step)).filter fun n => !seen.contains (stateOf least none n (depth + 1)) :=
      List.filter_congr fun n _ => by simp only [hstate, List.contains_eq_mem, hseen, decide_not]
    have hmore := length_newNodes_add_unseen_le hnodes reached front
    rw [sweepArrivals_next rfl front seen returned more hnext, if_pos (Nat.le_succ_of_le hdepth), spread_succ]
    refine congrArg (front.flatMap step ++ ·) (ih (Nat.le_succ_of_le hdepth) _ _ _ (fun n => ?_)
      (newNodes_eq_nil_or_unseen_lt hnodes hturns) (by omega))
    simp only [hstate, List.mem_append, hseen, List.mem_map, Prod.mk.injEq, and_true, exists_eq_right]

/-- Without an upper bound, a search follows the levels of walks as far as the lower one, and then goes on from each
node once. -/
theorem sweepArrivals_open (hnodes : ∀ n, ∀ a ∈ step n, a.2 ∈ nodes) {depth : Nat} (count : Nat)
    (hleast : depth + count = least) (front : List Node) (seen : List (Node × Nat)) (returned : List Node)
    (hseen : ∀ state ∈ seen, state.2 ≤ depth) (hfront : ∀ n, (n, depth) ∈ seen ↔ n ∈ front) {rounds : Nat}
    (hrounds : front.length + nodes.length * (count + 1) ≤ rounds) :
    sweepArrivals least none step rounds ⟨front.map (·, depth), seen, returned⟩ =
      ((levels step count front).1.drop (least - 1 - depth)).flatten ++
        spread step (nodes.length + 1) (levels step count front).2 (levels step count front).2 := by
  induction count generalizing depth front seen rounds with
  | zero =>
    obtain rfl : depth = least := hleast
    have hunseen : unseen nodes front ≤ nodes.length := List.length_filter_le _ _
    -- at the lower bound the search turns into a spread from the last front
    rw [sweepArrivals_spread hnodes (Nat.le_refl depth) front front seen returned hfront
      (.inr (Nat.lt_succ_of_le hunseen)) (by omega)]
    simp [levels]
  | succ count ih =>
    obtain ⟨more, rfl⟩ := Nat.exists_eq_add_of_le (Nat.le_of_add_right_le hrounds)
    -- up to the lower bound states are told apart by their depth
    have hstate (n : Node) : stateOf least none n (depth + 1) = (n, depth + 1) :=
      congrArg (n, ·) (Nat.min_eq_left (by omega))
    have hlength := length_targets_le hnodes front
    have hmore : (targets (front.flatMap step)).length + nodes.length * (count + 1) ≤ more := by
      rw [Nat.mul_succ] at hrounds
      omega
    rw [sweepArrivals_next rfl front seen returned more (eq_filter_of_depth_le hstate hseen _),
      flatten_drop_levels_front, last_levels_succ, List.append_assoc]
    refine congrArg (_ ++ ·) (ih (by omega) _ _ (depth_le_of_mem_append hstate hseen _) (fun n => ?_) hmore)
    -- of the new depth there are only the states of the new front
    have hold : (n, depth + 1) ∉ seen := fun hmem => Nat.not_succ_le_self depth (hseen _ hmem)
    simp only [hstate, List.mem_append, hold, false_or, List.mem_map, Prod.mk.injEq, and_true, exists_eq_right]

end Nodes

end Sweep

/-! ### Witnesses -/

namespace Graph

variable {g : Graph} {rounds : Nat}

/-- The edges that a search for witnesses follows are the arrivals within the range of the link. -/
theorem sweepArrivals_eq {range : DepthRange} (hrange : range.most.any (· < max range.least 1) = false)
    (hrounds : g.rounds range ≤ rounds) (direction : Direction) (start : Node) :
    sweepArrivals (max range.least 1) range.most (g.step direction) rounds ⟨[(start, 0)], [(start, 0)], []⟩ =
      g.arrivals direction start range := by
  have hnodes : ∀ n, ∀ a ∈ g.step direction n, a.2 ∈ g.nodes := fun n a => mem_of_mem_step
  have hsize : g.nodes.length = g.size := List.length_map _
  have hseen : ∀ state ∈ [(start, 0)], state.2 ≤ 0 := fun state hstate =>
    Nat.le_of_eq (congrArg Prod.snd (List.mem_singleton.1 hstate))
  obtain ⟨least, most⟩ := range
  cases most with
  | some most =>
    have hpos : max least 1 ≤ most := Nat.not_lt.1 (of_decide_eq_false hrange)
    have hcount : 0 + (most - 1) + 1 = most := by omega
    have hmost : g.size * (most + 1) + 1 ≤ rounds := hrounds
    -- each level puts no more nodes into the queue than the graph has
    have henough : [start].length + g.nodes.length * (most - 1) ≤ rounds := by
      have hle : g.size * (most - 1) ≤ g.size * (most + 1) := Nat.mul_le_mul_left _ (by omega)
      rw [hsize, List.length_singleton]
      omega
    refine (sweepArrivals_levels hnodes (most - 1) hcount [start] [(start, 0)] [] hseen henough).trans ?_
    rw [Nat.zero_add] at hcount
    rw [hcount]
    rfl
  | none =>
    have hleast : g.size * (max least 1 + 1) + 1 ≤ rounds := hrounds
    have henough : [start].length + g.nodes.length * (max least 1 + 1) ≤ rounds := by
      rw [hsize, List.length_singleton]
      omega
    refine (sweepArrivals_open hnodes (max least 1) (Nat.zero_add _) [start] [(start, 0)] [] hseen
      (fun n => by simp) henough).trans ?_
    rw [hsize]
    rfl

variable [Text.CharacterNames]

/-- With enough rounds, the search for witnesses accepts what it does of the arrivals within the range of the link. -/
theorem witnessesWithin_eq (predicate : LabelPredicate) (l : Link) (start : Node)
    (hrounds : g.rounds l.range ≤ rounds) :
    g.witnessesWithin rounds predicate l start =
      if l.range.most.any (· < max l.range.least 1) then .done
      else if start ∈ g then acceptedNodes (l.accepts predicate) [] (g.arrivals l.direction start l.range)
      else .failed .unknownNode := by
  rw [witnessesWithin]
  cases hrange : l.range.most.any (· < max l.range.least 1) with
  | true => rfl
  | false => rw [sweep_eq_acceptedNodes, sweepArrivals_eq hrange hrounds]

/-- The search for witnesses accepts what it does of the arrivals within the range of the link. -/
theorem witnesses_eq (g : Graph) (predicate : LabelPredicate) (l : Link) (start : Node) :
    g.witnesses predicate l start =
      if l.range.most.any (· < max l.range.least 1) then .done
      else if start ∈ g then acceptedNodes (l.accepts predicate) [] (g.arrivals l.direction start l.range)
      else .failed .unknownNode :=
  witnessesWithin_eq predicate l start (Nat.le_refl _)

/-- Further rounds change nothing: the queue has run empty before. -/
theorem witnessesWithin_add (g : Graph) (predicate : LabelPredicate) (l : Link) (start : Node) (more : Nat) :
    g.witnessesWithin (g.rounds l.range + more) predicate l start = g.witnesses predicate l start :=
  (witnessesWithin_eq predicate l start (Nat.le_add_right _ more)).trans (witnesses_eq g predicate l start).symm

end Graph

end DependencyQuery
