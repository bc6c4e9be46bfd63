import DependencyQuery.Proofs.Walk.Queue

namespace DependencyQuery

/-!
# Witnesses are the ends of walks

* `LabelPredicate.total` — a predicate that decides about every label, `Link.admits` — what a link
  accepts under it;
* `Graph.mem_arrivals_iff` — the arrivals within a range are the last edges of the walks within it;
* `Graph.witnessList` — the witnesses of a link as a list, `Graph.witnesses_total` — the search for
  them finds just these;
* `Graph.witnesses_iff_walk` — a node is a witness just when a walk within the range ends there with
  an edge that the link accepts.
-/

/-- Where every label can be decided, what is found are the ends of the accepted arrivals. -/
theorem acceptedNodes_total {ε : Type} (admits : Option String → Bool) (returned : List Node)
    (arrivals : List Arrival) :
    acceptedNodes (fun label => (.ok (admits label) : Except ε Bool)) returned arrivals =
      .ofList (targets (arrivals.filter fun a => admits a.1 && decide (a.2 ∉ returned))) := by
  induction arrivals generalizing returned with
  | nil => rfl
  | cons a rest ih =>
    obtain ⟨label, n⟩ := a
    rw [acceptedNodes]
    by_cases hn : n ∈ returned
    · rw [if_pos hn, ih, List.filter_cons_of_neg (by simp [hn])]
    · rw [if_neg hn]
      cases hl : admits label with
      | false => simp only [ih, List.filter_cons_of_neg, hl, Bool.false_and, Bool.false_eq_true,
          not_false_eq_true]
      | true =>
        -- the rest is searched with `n` among the nodes that have been returned
        have hrest : (rest.filter fun a => admits a.1 && decide (a.2 ∉ n :: returned)) =
            (rest.filter fun a => admits a.1 && decide (a.2 ∉ returned)).filter
              fun a => !a.2 == n := by
          rw [List.filter_filter]
          refine List.filter_congr fun a _ => ?_
          by_cases h : a.2 = n <;> simp [h]
        have hfirst : (((label, n) :: rest).filter fun a => admits a.1 && decide (a.2 ∉ returned)) =
            (label, n) :: rest.filter fun a => admits a.1 && decide (a.2 ∉ returned) :=
          List.filter_cons_of_pos (by simp [hl, hn])
        simp only [ih, hrest, hfirst, targets, List.map_cons, List.eraseDups_cons, List.filter_map,
          Results.ofList, Function.comp_def]

section

variable [Text.CharacterNames]

/-- The predicate that decides about every label as `accepts` does. -/
def LabelPredicate.total (accepts : LabelFilter → Option String → Bool) : LabelPredicate :=
  fun filter label => .ok (accepts filter label)

/-- Whether a link accepts a label; without a filter it accepts every one. -/
def Link.admits (l : Link) (accepts : LabelFilter → Option String → Bool) (label : Option String) :
    Bool :=
  l.label.all fun filter => accepts filter label

/-- Where every label can be decided, a link accepts what it admits. -/
theorem Link.accepts_total (l : Link) (accepts : LabelFilter → Option String → Bool)
    (label : Option String) :
    l.accepts (.total accepts) label = .ok (l.admits accepts label) := by
  unfold Link.accepts Link.admits
  cases l.label <;> rfl

end

namespace Graph

/-- The arrivals within a range are the last edges of the walks within it. -/
theorem mem_arrivals_iff {g : Graph} {direction : Direction} {start : Node} {range : DepthRange}
    {a : Arrival} :
    a ∈ g.arrivals direction start range ↔
      ∃ walk, IsWalk (g.step direction) start walk ∧ range.contains walk.length = true ∧
        walk.getLast? = some a := by
  obtain ⟨least, most⟩ := range
  have hpos : 1 ≤ max least 1 := Nat.le_max_right _ _
  simp only [arrivals, DepthRange.contains, Bool.and_eq_true, decide_eq_true_eq]
  cases most with
  | some most =>
    simp only [arrivalsWithin, mem_levels_iff, List.mem_singleton, exists_eq_left,
      DepthRange.atMost, decide_eq_true_eq]
    constructor
    · rintro ⟨walk, hw, hk, hc, hl⟩
      exact ⟨walk, hw, ⟨by omega, hc⟩, hl⟩
    · rintro ⟨walk, hw, ⟨hk, hc⟩, hl⟩
      exact ⟨walk, hw, by omega, hc, hl⟩
  | none =>
    have hnodes : ∀ n, ∀ b ∈ g.step direction n, b.2 ∈ g.nodes := fun n b => mem_of_mem_step
    have hrounds : ∀ front, unseen g.nodes front < g.size + 1 := fun front =>
      Nat.lt_succ_of_le (g.unseen_le_size front)
    simp only [arrivalsWithin, List.mem_append, mem_levels_iff, mem_spread_iff hnodes (hrounds _),
      mem_lastFront_iff, List.mem_singleton, exists_eq_left, DepthRange.atMost, and_true]
    constructor
    · rintro (⟨walk, hw, hk, hc, hl⟩ | ⟨s, ⟨walk, hw, hc, rfl⟩, more, hm, hl⟩)
      · exact ⟨walk, hw, by omega, hl⟩
      · refine ⟨walk ++ more, isWalk_append.2 ⟨hw, hm⟩, ?_, ?_⟩
        · rw [List.length_append]; omega
        · rw [List.getLast?_append, hl]; rfl
    · rintro ⟨walk, hw, hk, hl⟩
      by_cases hc : walk.length ≤ max least 1
      · exact .inl ⟨walk, hw, by omega, hc, hl⟩
      · -- a longer walk goes on from where it has come to after as many edges as the bound says
        rw [← List.take_append_drop (max least 1) walk, isWalk_append] at hw
        refine .inr ⟨_, ⟨_, hw.1, by rw [List.length_take]; omega, rfl⟩, _, hw.2, ?_⟩
        rw [List.getLast?_drop, if_neg hc, hl]

/-- However many more nodes a search without an upper bound allows for, it meets the same arrivals:
its front has run out of nodes before. -/
theorem arrivalsWithin_more {g : Graph} {direction : Direction} {start : Node} {least : Nat}
    {most : Option Nat} (more : Nat) :
    arrivalsWithin (g.step direction) (g.size + more) start least most =
      arrivalsWithin (g.step direction) g.size start least most := by
  cases most with
  | some most => rfl
  | none =>
    have hnodes : ∀ n, ∀ b ∈ g.step direction n, b.2 ∈ g.nodes := fun n b => mem_of_mem_step
    have hrounds : ∀ front, unseen g.nodes front < g.size + 1 := fun front =>
      Nat.lt_succ_of_le (g.unseen_le_size front)
    simp only [arrivalsWithin]
    rw [Nat.add_right_comm, spread_more hnodes (hrounds _)]

section

variable [Text.CharacterNames]

/-- The witnesses of a link from a node, in the order in which they are found. -/
def witnessList (g : Graph) (accepts : LabelFilter → Option String → Bool) (l : Link)
    (start : Node) : List Node :=
  targets ((g.arrivals l.direction start l.range).filter fun a => l.admits accepts a.1)

/-- A witness is the end of a walk within the range whose last label is admitted. -/
theorem mem_witnessList {g : Graph} {accepts : LabelFilter → Option String → Bool} {l : Link}
    {start n : Node} :
    n ∈ g.witnessList accepts l start ↔
      ∃ walk label, IsWalk (g.step l.direction) start walk ∧
        l.range.contains walk.length = true ∧ walk.getLast? = some (label, n) ∧
        l.admits accepts label = true := by
  simp only [witnessList, mem_targets, List.mem_filter, mem_arrivals_iff]
  constructor
  · rintro ⟨⟨label, m⟩, ⟨⟨walk, hw, hc, hl⟩, ha⟩, rfl⟩
    exact ⟨walk, label, hw, hc, hl, ha⟩
  · rintro ⟨walk, label, hw, hc, hl, ha⟩
    exact ⟨(label, n), ⟨⟨walk, hw, hc, hl⟩, ha⟩, rfl⟩

/-- Every witness is found once. -/
theorem nodup_witnessList (g : Graph) (accepts : LabelFilter → Option String → Bool) (l : Link)
    (start : Node) : (g.witnessList accepts l start).Nodup := nodup_targets _

/-- A witness is a node of the graph. -/
theorem mem_nodes_of_mem_witnessList {g : Graph} {accepts : LabelFilter → Option String → Bool}
    {l : Link} {start n : Node} (h : n ∈ g.witnessList accepts l start) : n ∈ g := by
  obtain ⟨walk, label, hw, _, hl, _⟩ := mem_witnessList.1 h
  obtain ⟨before, rfl⟩ := List.getLast?_eq_some_iff.1 hl
  exact mem_of_mem_step (isWalk_append.1 hw).2.1

/-- Where every label can be decided, the search for witnesses finds them all and comes to its end. -/
theorem witnesses_total {g : Graph} (accepts : LabelFilter → Option String → Bool) (l : Link)
    {start : Node} (h : start ∈ g) :
    g.witnesses (.total accepts) l start = .ofList (g.witnessList accepts l start) := by
  rw [witnesses_eq]
  split
  · next hrange =>
    -- no depth lies within such a range
    have hnil : g.witnessList accepts l start = [] := by
      refine List.eq_nil_iff_forall_not_mem.2 fun n hn => ?_
      obtain ⟨walk, _, _, hc, _⟩ := mem_witnessList.1 hn
      obtain ⟨most, hmost, hlt⟩ := (Option.any_eq_true _ _).1 hrange
      simp only [DepthRange.contains, hmost, DepthRange.atMost, Bool.and_eq_true,
        decide_eq_true_eq] at hc hlt
      omega
    rw [hnil]; rfl
  · have haccepts : l.accepts (.total accepts) = fun label => .ok (l.admits accepts label) :=
      funext (l.accepts_total accepts)
    rw [haccepts, acceptedNodes_total]
    simp [witnessList]

/-- **Witnesses are the ends of walks.**  The search for the witnesses of a link comes to its end by
itself, so that further rounds change nothing, and finds a node just when a walk whose number of edges lies
within the link's range leads there, along governors or dependents as the link says, and the link accepts the
label of its last edge.  The labels of the edges before do not matter. -/
theorem witnesses_iff_walk {g : Graph} (accepts : LabelFilter → Option String → Bool) (l : Link)
    {start : Node} (h : start ∈ g) :
    (∀ more, g.witnessesWithin (g.rounds l.range + more) (.total accepts) l start =
        g.witnesses (.total accepts) l start) ∧
      (∀ more, arrivalsWithin (g.step l.direction) (g.size + more) start (max l.range.least 1)
        l.range.most = g.arrivals l.direction start l.range) ∧
      ∃ found, g.witnesses (.total accepts) l start = .ofList found ∧
        ∀ n, n ∈ found ↔ ∃ walk label, IsWalk (g.step l.direction) start walk ∧
          l.range.contains walk.length = true ∧ walk.getLast? = some (label, n) ∧
          l.admits accepts label = true :=
  ⟨g.witnessesWithin_add (.total accepts) l start, arrivalsWithin_more, g.witnessList accepts l start,
    witnesses_total accepts l h, fun _ => mem_witnessList⟩

end

/-- Two nodes that govern each other. -/
def mutualPair : Graph :=
  ((empty "word" true).addEdge (.index 1) (.index 2) (some "a")).addEdge (.index 2) (.index 1) (some "b")

/-- Either of them is its own witness, two edges away, if the label of the second edge is accepted. -/
theorem witnesses_iff_walk_mutualPair :
    Node.index 1 ∈ mutualPair ∧
      ∃ found, mutualPair.witnesses (.total fun _ label => label = some "b")
          ⟨.down, .far none, some (.name "b"), false⟩ (.index 1) = .ofList found ∧
        Node.index 1 ∈ found := by
  have hmem : Node.index 1 ∈ mutualPair := by decide
  obtain ⟨_, _, found, hfound, hiff⟩ :=
    witnesses_iff_walk (fun _ label => label = some "b")
      ⟨.down, .far none, some (.name "b"), false⟩ hmem
  refine ⟨hmem, found, hfound, (hiff _).2 ?_⟩
  refine ⟨[(some "a", .index 2), (some "b", .index 1)], some "b", ?_, by decide, rfl, by decide⟩
  exact ⟨by decide, by decide, trivial⟩

end Graph

end DependencyQuery
