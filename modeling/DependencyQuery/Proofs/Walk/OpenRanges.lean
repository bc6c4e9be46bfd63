import DependencyQuery.Proofs.Walk.Targets

namespace DependencyQuery

/-!
# Ranges without an upper bound, and ranges with a high one

Beyond its lower bound, a range without an upper one leaves each node only once, however deep it lies.  A
range with an upper bound goes on level by level, and may leave the same node on many levels.

* `acceptedNodes_eraseDups` — an arrival that has been met before makes no difference to what is accepted;
* `drop_levels` — the levels beyond a depth are those from the nodes at that depth;
* `newNodes_levels` — the nodes of a level that the levels before have not left are the new ones of a round;
* `eraseDups_levels_eq_spread` — so the levels hold the arrivals of the rounds, and else only repetitions;
* `eraseDups_levels_more` — with a level for every node, further levels hold only repetitions;
* `Link.upTo` — a link with an upper bound put to the number of its edges;
* `Graph.acceptedNodes_arrivals_open` — both kinds of range accept the same nodes, in the same order;
* `Graph.witnesses_open_eq_bounded` — and so links with these ranges have the same witnesses.
-/

/-! ### Arrivals that have been met before -/

section Accepted

variable {ε : Type} {accepts : Option String → Except ε Bool}

/-- An arrival at a node that has been accepted, or with a label that is rejected, makes no difference. -/
theorem acceptedNodes_filter_ne {a : Arrival} {returned : List Node}
    (h : a.2 ∈ returned ∨ accepts a.1 = .ok false) (arrivals : List Arrival) :
    acceptedNodes accepts returned (arrivals.filter fun b => !b == a) =
      acceptedNodes accepts returned arrivals := by
  induction arrivals generalizing returned with
  | nil => rfl
  | cons b rest ih =>
    obtain ⟨label, n⟩ := b
    by_cases hb : (label, n) = a
    · subst hb
      rw [List.filter_cons_of_neg (by simp), ih h, acceptedNodes]
      rcases h with h | h
      · rw [if_pos h]
      · simp only [h, ite_self]
    · rw [List.filter_cons_of_pos (by simpa using hb), acceptedNodes, acceptedNodes, ih h]
      -- a node that is accepted now joins those that have been accepted
      have hmore : a.2 ∈ n :: returned ∨ accepts a.1 = .ok false := h.imp_left (List.mem_cons_of_mem n)
      simp only [ih hmore]

/-- An arrival that has been met before makes no difference to what is accepted: by then its node has been
accepted, or its label rejected, or the search has failed. -/
theorem acceptedNodes_eraseDups (returned : List Node) (arrivals : List Arrival) :
    acceptedNodes accepts returned arrivals.eraseDups = acceptedNodes accepts returned arrivals := by
  -- repetitions of the first arrival are taken out before the rest is looked at, so the induction is on
  -- lengths
  cases arrivals with
  | nil => rfl
  | cons a rest =>
    obtain ⟨label, n⟩ := a
    have ih := fun returned => acceptedNodes_eraseDups returned (rest.filter fun b => !b == (label, n))
    rw [List.eraseDups_cons, acceptedNodes, acceptedNodes]
    split
    · next hn => rw [ih, acceptedNodes_filter_ne (.inl hn)]
    · cases hl : accepts label with
      | error e => rfl
      | ok accepted =>
        cases accepted with
        | true =>
          have haccepted : (label, n).2 ∈ n :: returned ∨ accepts (label, n).1 = .ok false :=
            .inl List.mem_cons_self
          simp only [ih, acceptedNodes_filter_ne haccepted]
        | false =>
          have hrejected : (label, n).2 ∈ returned ∨ accepts (label, n).1 = .ok false := .inr hl
          simp only [ih, acceptedNodes_filter_ne hrejected]
termination_by arrivals.length
decreasing_by exact Nat.lt_succ_of_le (List.length_filter_le _ rest)

end Accepted

section Repetitions

variable {α β : Type} [BEq α] [LawfulBEq α]

/-- What lists are without repetitions is told, after the same beginning, by what they are without them. -/
theorem eraseDups_append_right {xs ys : List α} (h : xs.eraseDups = ys.eraseDups) (before : List α) :
    (before ++ xs).eraseDups = (before ++ ys).eraseDups := by
  rw [List.eraseDups_append, List.eraseDups_append, List.removeAll, List.removeAll, eraseDups_filter,
    eraseDups_filter, h]

/-- The same holds before the same end. -/
theorem eraseDups_append_left {xs ys : List α} (h : xs.eraseDups = ys.eraseDups) (after : List α) :
    (xs ++ after).eraseDups = (ys ++ after).eraseDups := by
  have hmem : ∀ a, a ∈ xs ↔ a ∈ ys := fun a => by rw [← List.mem_eraseDups, h, List.mem_eraseDups]
  have hmore : after.removeAll xs = after.removeAll ys := by
    refine List.filter_congr fun a _ => ?_
    simp only [List.elem_eq_contains, List.contains_eq_mem, hmem]
  rw [List.eraseDups_append, List.eraseDups_append, h, hmore]

omit [BEq α] [LawfulBEq α] in
/-- Parts that come to nothing may be left out. -/
theorem flatMap_filter_of_forall {p : β → Bool} {f : β → List α} {xs : List β}
    (h : ∀ b ∈ xs, p b = false → f b = []) : (xs.filter p).flatMap f = xs.flatMap f := by
  induction xs with
  | nil => rfl
  | cons b rest ih =>
    rw [List.forall_mem_cons] at h
    cases hb : p b with
    | true => rw [List.filter_cons_of_pos hb, List.flatMap_cons, List.flatMap_cons, ih h.2]
    | false =>
      rw [List.filter_cons_of_neg (by simp [hb]), List.flatMap_cons, h.1 hb, List.nil_append, ih h.2]

/-- Parts that hold only what has been met before may be left out. -/
theorem eraseDups_append_flatMap_filter {p : β → Bool} {f : β → List α} {met : List α} {xs : List β}
    (h : ∀ b ∈ xs, p b = false → f b ⊆ met) :
    (met ++ (xs.filter p).flatMap f).eraseDups = (met ++ xs.flatMap f).eraseDups := by
  have hnew : ((xs.filter p).flatMap f).removeAll met = (xs.flatMap f).removeAll met := by
    rw [List.removeAll, List.removeAll, List.filter_flatMap, List.filter_flatMap]
    refine flatMap_filter_of_forall fun b hb hp => List.filter_eq_nil_iff.2 fun a ha => ?_
    simpa using h b hb hp ha
  rw [List.eraseDups_append, List.eraseDups_append, hnew]

end Repetitions

section Walk

variable {step : Node → List Arrival}

/-! ### Levels -/

/-- The levels beyond a depth are those from the nodes at that depth. -/
theorem drop_levels (depth count : Nat) (front : List Node) :
    (levels step (depth + count) front).1.drop depth =
      (levels step count (levels step depth front).2).1 := by
  induction depth generalizing front with
  | zero => rw [Nat.zero_add]; rfl
  | succ depth ih =>
    cases front with
    | nil => rw [levels_nil, levels_nil, levels_nil, List.drop_nil]
    | cons n rest =>
      rw [last_levels_succ, Nat.add_right_comm, ← ih]
      rfl

/-- The nodes that are left in front after some levels are those after the further ones among them. -/
theorem last_levels (depth count : Nat) (front : List Node) :
    (levels step (depth + count) front).2 = (levels step count (levels step depth front).2).2 := by
  induction depth generalizing front with
  | zero => rw [Nat.zero_add]; rfl
  | succ depth ih => rw [Nat.add_right_comm, last_levels_succ, ih, last_levels_succ]

/-! ### Levels against rounds

Of the nodes in front of a level, those in `old` have been left on a level before, and `new` are the others:
a round goes on from these only.
-/

section Rounds

variable {old front new : List Node}

/-- All nodes of a front are among the old and the new ones. -/
theorem mem_append_new (hnew : front.filter (· ∉ old) = new) {n : Node} (hn : n ∈ old ∨ n ∈ front) :
    n ∈ old ++ new := by
  by_cases hold : n ∈ old
  · exact List.mem_append_left _ hold
  · rw [← hnew]
    exact List.mem_append_right _ (List.mem_filter.2 ⟨hn.resolve_left hold, by simpa using hold⟩)

/-- If the edges out of nodes that have been left lead nowhere else, the edges of a level lead to the same new
nodes as those of a round. -/
theorem newNodes_levels (hnew : front.filter (· ∉ old) = new)
    (hold : ∀ n ∈ old, ∀ a ∈ step n, a.2 ∈ old ∨ a.2 ∈ front) :
    (targets (front.flatMap step)).filter (· ∉ old ++ new) = newNodes step (old ++ new) new := by
  -- what is sought are the ends of the edges that lead to new nodes
  have htargets : ∀ arrivals : List Arrival, (targets arrivals).filter (· ∉ old ++ new) =
      targets (arrivals.filter fun a => a.2 ∉ old ++ new) := by
    intro arrivals
    rw [targets, ← eraseDups_filter, List.filter_map]
    rfl
  rw [newNodes, htargets, htargets, List.filter_flatMap, List.filter_flatMap]
  subst hnew
  -- no such edge begins at a node that has been left
  refine congrArg targets (flatMap_filter_of_forall fun n _ hn => ?_).symm
  have hn : n ∈ old := by simpa using hn
  refine List.filter_eq_nil_iff.2 fun a ha => ?_
  have hseen := mem_append_new rfl (hold n hn a ha)
  simp only [hseen, not_true_eq_false, decide_false, Bool.false_eq_true, not_false_eq_true]

/-- Levels and rounds that go on from the same arrivals meet the same ones for the first time, in the same
order. -/
theorem eraseDups_append_levels (count : Nat) {met : List Arrival} (hnew : front.filter (· ∉ old) = new)
    (hold : ∀ n ∈ old, ∀ a ∈ step n, a ∈ met ∧ (a.2 ∈ old ∨ a.2 ∈ front)) :
    (met ++ (levels step count front).1.flatten).eraseDups =
      (met ++ spread step count (old ++ new) new).eraseDups := by
  induction count generalizing met old front new with
  | zero => rfl
  | succ count ih =>
    have hnewer := newNodes_levels hnew fun n hn a ha => (hold n hn a ha).2
    -- the edges out of nodes that have been left were met before
    have hmet : ∀ n ∈ front, decide (n ∉ old) = false → step n ⊆ met := fun n _ hn a ha =>
      (hold n (by simpa using hn) a ha).1
    have hlevel : (met ++ new.flatMap step).eraseDups = (met ++ front.flatMap step).eraseDups := by
      rw [← hnew]
      exact eraseDups_append_flatMap_filter hmet
    -- from the next level on, the new nodes have been left as well
    have hnext : ∀ n ∈ old ++ new, ∀ a ∈ step n,
        a ∈ met ++ front.flatMap step ∧ (a.2 ∈ old ++ new ∨ a.2 ∈ targets (front.flatMap step)) := by
      intro n hn a ha
      rcases List.mem_append.1 hn with hn | hn
      · obtain ⟨hamet, haold⟩ := hold n hn a ha
        exact ⟨List.mem_append_left _ hamet, .inl (mem_append_new hnew haold)⟩
      · have hfront : n ∈ front := (List.mem_filter.1 (hnew ▸ hn)).1
        have ha : a ∈ front.flatMap step := List.mem_flatMap.2 ⟨n, hfront, ha⟩
        exact ⟨List.mem_append_right _ ha, .inr (mem_targets.2 ⟨a, ha, rfl⟩)⟩
    calc (met ++ (levels step (count + 1) front).1.flatten).eraseDups
        = (met ++ front.flatMap step ++
            (levels step count (targets (front.flatMap step))).1.flatten).eraseDups := by
          rw [flatten_levels_succ, List.append_assoc]
      _ = (met ++ front.flatMap step ++
            spread step count (old ++ new ++ newNodes step (old ++ new) new)
              (newNodes step (old ++ new) new)).eraseDups := ih hnewer hnext
      _ = (met ++ new.flatMap step ++
            spread step count (old ++ new ++ newNodes step (old ++ new) new)
              (newNodes step (old ++ new) new)).eraseDups := (eraseDups_append_left hlevel _).symm
      _ = (met ++ spread step (count + 1) (old ++ new) new).eraseDups := by
          rw [spread_succ, List.append_assoc]

end Rounds

/-- Levels hold the arrivals of as many rounds, and else only repetitions of them. -/
theorem eraseDups_levels_eq_spread (count : Nat) (front : List Node) :
    (levels step count front).1.flatten.eraseDups = (spread step count front front).eraseDups := by
  have hall : front.filter (· ∉ ([] : List Node)) = front := List.filter_eq_self.2 (by simp)
  have hold : ∀ n ∈ ([] : List Node), ∀ a ∈ step n, a ∈ ([] : List Arrival) ∧ (a.2 ∈ [] ∨ a.2 ∈ front) :=
    fun n hn => absurd hn List.not_mem_nil
  exact eraseDups_append_levels count hall hold

/-- With a level for every node, further levels hold only repetitions. -/
theorem eraseDups_levels_more {nodes : List Node} (hnodes : ∀ n, ∀ a ∈ step n, a.2 ∈ nodes)
    {front : List Node} (hfront : front ⊆ nodes) {count : Nat} (hcount : nodes.length ≤ count) (more : Nat) :
    (levels step (count + more) front).1.flatten.eraseDups =
      (levels step count front).1.flatten.eraseDups := by
  rcases List.eq_nil_or_concat front with rfl | ⟨before, n, hn⟩
  · rw [levels_nil, levels_nil]
  · -- a node in front has been seen, so that there are fewer to come than levels
    have hmem : n ∈ front := by rw [hn]; simp
    have hlt : unseen nodes front < nodes.length :=
      List.length_filter_lt_length_iff_exists.2 ⟨n, hfront hmem, by simpa using hmem⟩
    have hrounds : unseen nodes front < count := Nat.lt_of_lt_of_le hlt hcount
    rw [eraseDups_levels_eq_spread, eraseDups_levels_eq_spread, spread_more hnodes hrounds]

end Walk

/-! ### Links -/

section

variable [Text.CharacterNames]

/-- The link with an upper bound for the number of edges, and the lower one that it has. -/
def Link.upTo (l : Link) (most : Nat) : Link := { l with reach := .far (some ⟨l.range.least, some most⟩) }

/-- A bound for the depths changes the upper bound alone. -/
@[simp] theorem Link.range_upTo (l : Link) (most : Nat) :
    (l.upTo most).range = ⟨l.range.least, some most⟩ := rfl

/-- A range is made of its bounds. -/
theorem Link.range_eq {l : Link} {most : Option Nat} (h : l.range.most = most) : l.range = ⟨l.range.least, most⟩ := by
  rw [← h]

/-- A bound for the depths does not change the direction. -/
@[simp] theorem Link.direction_upTo (l : Link) (most : Nat) : (l.upTo most).direction = l.direction := rfl

/-- A bound for the depths does not change which labels are accepted. -/
@[simp] theorem Link.accepts_upTo (l : Link) (most : Nat) (predicate : LabelPredicate) :
    (l.upTo most).accepts predicate = l.accepts predicate := rfl

/-- A bound for the depths does not change which labels are admitted. -/
@[simp] theorem Link.admits_upTo (l : Link) (most : Nat) (accepts : LabelFilter → Option String → Bool) :
    (l.upTo most).admits accepts = l.admits accepts := rfl

end

namespace Graph

variable {g : Graph} {start : Node}

/-- The levels within a range are those from the nodes right before it. -/
theorem arrivals_bounded (direction : Direction) (start : Node) {least most : Nat}
    (h : max least 1 ≤ most) :
    g.arrivals direction start ⟨least, some most⟩ =
      (levels (g.step direction) (most - (max least 1 - 1))
        (levels (g.step direction) (max least 1 - 1) [start]).2).1.flatten := by
  have hdepth : max least 1 - 1 + (most - (max least 1 - 1)) = most := by omega
  rw [arrivals, arrivalsWithin, ← drop_levels, hdepth]

/-- Without an upper bound the arrivals are, apart from repetitions, those on two levels more than there are
nodes. -/
theorem eraseDups_arrivals_open (direction : Direction) (start : Node) (least : Nat) :
    (g.arrivals direction start ⟨least, none⟩).eraseDups =
      (levels (g.step direction) (g.size + 2)
        (levels (g.step direction) (max least 1 - 1) [start]).2).1.flatten.eraseDups := by
  obtain ⟨depth, hdepth⟩ : ∃ depth, max least 1 = depth + 1 := ⟨max least 1 - 1, by omega⟩
  have hfirst : (levels (g.step direction) (depth + 1) [start]).1.drop depth =
      (levels (g.step direction) 1 (levels (g.step direction) depth [start]).2).1 :=
    drop_levels depth 1 [start]
  have hlast : (levels (g.step direction) (depth + 1) [start]).2 =
      (levels (g.step direction) 1 (levels (g.step direction) depth [start]).2).2 :=
    last_levels depth 1 [start]
  rw [arrivals, arrivalsWithin, hdepth, Nat.add_sub_cancel]
  dsimp only
  rw [hfirst, hlast, flatten_levels_succ, flatten_levels_succ, last_levels_succ, List.append_assoc]
  -- the first level is the same, and the rounds after it stand for the levels after it
  exact eraseDups_append_right (eraseDups_levels_eq_spread _ _).symm _

/-- A graph with a node is not empty. -/
theorem size_pos_of_mem (h : start ∈ g) : 0 < g.size := by
  rw [← length_nodes]
  exact List.length_pos_of_mem h

/-- A walk stays within the graph. -/
theorem walkEnd_mem {direction : Direction} {walk : List Arrival} (h : start ∈ g)
    (hwalk : IsWalk (g.step direction) start walk) : walkEnd start walk ∈ g := by
  induction walk generalizing start with
  | nil => exact h
  | cons a rest ih => exact ih (mem_of_mem_step hwalk.1) hwalk.2

/-- A range without an upper bound, and one whose upper bound leaves room for a level for every node, accept
the same nodes in the same order; and if a label cannot be decided, both fail there. -/
theorem acceptedNodes_arrivals_open {ε : Type} (accepts : Option String → Except ε Bool)
    (direction : Direction) (h : start ∈ g) {least most : Nat} (hmost : max least 1 + g.size - 1 ≤ most) :
    acceptedNodes accepts [] (g.arrivals direction start ⟨least, none⟩) =
      acceptedNodes accepts [] (g.arrivals direction start ⟨least, some most⟩) := by
  have hsize := size_pos_of_mem h
  have hnodes : ∀ n, ∀ a ∈ g.step direction n, a.2 ∈ g.nodes := fun n a => mem_of_mem_step
  have hfront : (levels (g.step direction) (max least 1 - 1) [start]).2 ⊆ g.nodes := by
    intro n hn
    obtain ⟨s, hs, walk, hwalk, -, rfl⟩ := mem_lastFront_iff.1 hn
    rw [List.mem_singleton] at hs
    subst hs
    exact walkEnd_mem h hwalk
  obtain ⟨more, hmore⟩ : ∃ more, most - (max least 1 - 1) = g.size + more :=
    ⟨most - (max least 1 - 1) - g.size, by omega⟩
  -- both come down to a level for every node, from the nodes right before the range
  have hlevels := eraseDups_levels_more hnodes hfront (Nat.le_of_eq g.length_nodes)
  rw [← acceptedNodes_eraseDups, eraseDups_arrivals_open, hlevels 2, ← hlevels more, ← hmore,
    acceptedNodes_eraseDups, ← arrivals_bounded direction start (by omega)]

/-- **Open ranges search like wide bounded ones.**  A link with no upper bound on the number of edges has, from
any node of the graph, the same witnesses in the same order as the link that differs from it in an upper bound
only, if that is at least the lower bound, counted from one, and one less than the number of nodes together.
This holds whatever a predicate decides about labels, and where it cannot decide. -/
theorem witnesses_open_eq_bounded [Text.CharacterNames] {g : Graph} {start : Node} (h : start ∈ g)
    (predicate : LabelPredicate) {l : Link} (hopen : l.range.most = none) {most : Nat}
    (hmost : max l.range.least 1 + g.size - 1 ≤ most) :
    g.witnesses predicate l start = g.witnesses predicate (l.upTo most) start := by
  have hsize := size_pos_of_mem h
  have hsame := acceptedNodes_arrivals_open (l.accepts predicate) l.direction h hmost
  rw [← Link.range_eq hopen] at hsame
  -- the bounded range is not empty, so that both are searched
  have hwide : ¬ (some most).any (· < max l.range.least 1) = true := by
    rw [Option.any_some, decide_eq_true_eq]
    omega
  calc g.witnesses predicate l start
      = acceptedNodes (l.accepts predicate) [] (g.arrivals l.direction start l.range) := by
        rw [witnesses_eq, hopen, if_neg (by simp), if_pos h]
    _ = acceptedNodes (l.accepts predicate) []
          (g.arrivals l.direction start ⟨l.range.least, some most⟩) := hsame
    _ = g.witnesses predicate (l.upTo most) start := by
        rw [witnesses_eq, Link.range_upTo, if_neg hwide, if_pos h, Link.accepts_upTo, Link.direction_upTo]

/-- Three nodes in a ring, of whose edges only the last is a `b`. -/
def ring : Graph :=
  (((empty "word" true).addEdge (.index 1) (.index 2) (some "a")).addEdge (.index 2) (.index 3)
    (some "a")).addEdge (.index 3) (.index 1) (some "b")

/-- The first node of the ring is its own witness by a `b` after three edges, which is as far as the upper
bound has to reach. -/
theorem witnesses_open_eq_bounded_ring :
    Node.index 1 ∈ ring ∧ (Reach.far none).range.most = none ∧
      max (Reach.far none).range.least 1 + ring.size - 1 ≤ 3 ∧
      ring.witnesses (.total fun _ label => label = some "b") ⟨.down, .far none, some (.name "b"), false⟩
          (.index 1) =
        ring.witnesses (.total fun _ label => label = some "b")
          (Link.upTo ⟨.down, .far none, some (.name "b"), false⟩ 3) (.index 1) := by
  have h : Node.index 1 ∈ ring := by decide
  exact ⟨h, rfl, by decide, witnesses_open_eq_bounded h _ rfl (by decide)⟩

-- With an upper bound of two edges the search stops before it comes to the `b`.
example : ring.witnesses (.total fun _ label => label = some "b")
    ⟨.down, .far (some ⟨1, some 2⟩), some (.name "b"), false⟩ (.index 1) = .done := by
  cbv

end Graph

end DependencyQuery
