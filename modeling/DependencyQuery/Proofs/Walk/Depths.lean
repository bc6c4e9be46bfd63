import DependencyQuery.Proofs.Walk.OpenRanges
import Mathlib.Order.Bounds.Defs
import Mathlib.Order.Lattice.Nat

namespace DependencyQuery

/-!
# Witnesses come in the order of their depths

A node may be met on many levels: too early for the range, by an edge that the link rejects, and at last by one
that it accepts.  It is found where it is accepted first.

* `Meets` — whether a walk of so many edges, of which the last is accepted, leads from the nodes in front to a
  node; `meets_one`, `meets_succ` — over one edge, and over a first edge and the others;
* `pairwise_levels` — on the levels of a search, a node that comes before another is met no later;
* `Graph.depths` — the depths within a link's range at which the link meets a node;
* `Graph.pairwise_witnessList` — so among the witnesses of a link, whether its range is bounded or open;
* `Graph.witnesses_in_order_of_depth` — the search for witnesses finds each once, and in the order of the least
  of their depths.
-/

namespace DepthRange

/-- The depths within two bounds are those between them. -/
theorem contains_bounded {least most depth : Nat} :
    contains ⟨least, some most⟩ depth = true ↔ max least 1 ≤ depth ∧ depth ≤ most := by
  simp [contains, atMost]

/-- The depths within a lower bound alone are those from it on. -/
theorem contains_open {least depth : Nat} : contains ⟨least, none⟩ depth = true ↔ max least 1 ≤ depth := by
  simp [contains, atMost]

end DepthRange

/-- Whether a walk of so many edges, of which the last is accepted, leads from one of the nodes in front to a
node. -/
def Meets (step : Node → List Arrival) (accepted : Arrival → Bool) (front : List Node) (depth : Nat)
    (n : Node) : Prop :=
  ∃ s ∈ front, ∃ walk, IsWalk step s walk ∧ walk.length = depth ∧
    ∃ a, walk.getLast? = some a ∧ accepted a = true ∧ a.2 = n

section Levels

variable {step : Node → List Arrival} {accepted : Arrival → Bool} {front : List Node} {depth : Nat} {n : Node}

/-- Without an edge, no node is met. -/
theorem Meets.depth_pos (h : Meets step accepted front depth n) : 0 < depth := by
  obtain ⟨_, _, walk, _, rfl, a, hlast, _⟩ := h
  exact List.length_pos_of_mem (List.mem_of_getLast? hlast)

/-- Over one edge, the nodes at the ends of the accepted edges are met. -/
theorem meets_one :
    Meets step accepted front 1 n ↔ n ∈ targets ((front.flatMap step).filter accepted) := by
  simp only [mem_targets, List.mem_filter, List.mem_flatMap]
  constructor
  · rintro ⟨s, hs, walk, hwalk, hlength, a, hlast, ha, hn⟩
    obtain ⟨b, rfl⟩ := List.length_eq_one_iff.1 hlength
    obtain rfl : b = a := by simpa using hlast
    exact ⟨b, ⟨⟨s, hs, hwalk.1⟩, ha⟩, hn⟩
  · rintro ⟨a, ⟨⟨s, hs, hsa⟩, ha⟩, hn⟩
    exact ⟨s, hs, [a], ⟨hsa, trivial⟩, rfl, a, rfl, ha, hn⟩

/-- Whatever is met over more edges is met from where the first of them lead. -/
theorem meets_succ (h : 0 < depth) :
    Meets step accepted front (depth + 1) n ↔
      Meets step accepted (targets (front.flatMap step)) depth n := by
  constructor
  · rintro ⟨s, hs, walk, hwalk, hlength, a, hlast, ha, hn⟩
    -- the first edge of the walk leads to the next front
    cases walk with
    | nil => cases hlength
    | cons b rest =>
      have hb : b ∈ front.flatMap step := List.mem_flatMap.2 ⟨s, hs, hwalk.1⟩
      have hrest : rest.length = depth := by simpa using hlength
      have hne : rest ≠ [] := List.ne_nil_of_length_pos (by omega)
      rw [List.getLast?_cons_of_ne_nil hne] at hlast
      exact ⟨b.2, mem_targets.2 ⟨b, hb, rfl⟩, rest, hwalk.2, hrest, a, hlast, ha, hn⟩
  · rintro ⟨m, hm, walk, hwalk, hlength, a, hlast, ha, hn⟩
    obtain ⟨b, hb, rfl⟩ := mem_targets.1 hm
    obtain ⟨s, hs, hsb⟩ := List.mem_flatMap.1 hb
    have hne : walk ≠ [] := List.ne_nil_of_length_pos (by omega)
    refine ⟨s, hs, b :: walk, ⟨hsb, hwalk⟩, by rw [List.length_cons, hlength], a, ?_, ha, hn⟩
    rw [List.getLast?_cons_of_ne_nil hne, hlast]

/-- Whatever is met beyond a depth is met from the nodes at that depth. -/
theorem meets_add (before : Nat) (h : 0 < depth) :
    Meets step accepted front (before + depth) n ↔
      Meets step accepted (levels step before front).2 depth n := by
  induction before generalizing front with
  | zero => rw [Nat.zero_add]; rfl
  | succ before ih => rw [Nat.add_right_comm, meets_succ (by omega), ih, last_levels_succ]

/-- On the levels of a search, a node that is accepted before another one is met no later: for every walk to the
other there is one to it that is as long at most. -/
theorem pairwise_levels (count : Nat) (front : List Node) :
    (targets ((levels step count front).1.flatten.filter accepted)).Pairwise fun m n =>
      ∀ e, Meets step accepted front e n → ∃ d ≤ e, Meets step accepted front d m := by
  induction count generalizing front with
  | zero => exact List.Pairwise.nil
  | succ count ih =>
    -- nothing is met before the nodes on the first level are
    have hfirst : ∀ m ∈ targets ((front.flatMap step).filter accepted), ∀ n e,
        Meets step accepted front e n → ∃ d ≤ e, Meets step accepted front d m :=
      fun m hm n e he => ⟨1, he.depth_pos, meets_one.2 hm⟩
    rw [flatten_levels_succ, List.filter_append, targets_append, List.pairwise_append]
    refine ⟨?_, ?_, fun m hm n _ => hfirst m hm n⟩
    · exact List.pairwise_of_forall_mem_list fun m hm n _ => hfirst m hm n
    · -- a node of a later level that the first one does not have is met over two edges or more
      refine List.Pairwise.imp_of_mem ?_ ((ih _).filter _)
      intro m n _ hn hmn e he
      have hlater : n ∉ targets ((front.flatMap step).filter accepted) := by
        simpa using (List.mem_filter.1 hn).2
      obtain ⟨e, rfl⟩ : ∃ k, e = k + 1 := ⟨e - 1, by have := he.depth_pos; omega⟩
      have hpos : 0 < e := by
        refine Nat.pos_of_ne_zero ?_
        rintro rfl
        exact hlater (meets_one.1 he)
      obtain ⟨d, hde, hd⟩ := hmn e ((meets_succ hpos).1 he)
      exact ⟨d + 1, by omega, (meets_succ hd.depth_pos).2 hd⟩

end Levels

namespace Graph

section

variable [Text.CharacterNames] {g : Graph} {accepts : LabelFilter → Option String → Bool} {l : Link} {start n : Node}

/-- The depths within the range of a link at which a walk from `start` ends at a node, with a last edge that
the link accepts. -/
def depths (g : Graph) (accepts : LabelFilter → Option String → Bool) (l : Link) (start n : Node) : Set Nat :=
  {depth | l.range.contains depth = true ∧ ∃ walk label, IsWalk (g.step l.direction) start walk ∧
    walk.length = depth ∧ walk.getLast? = some (label, n) ∧ l.admits accepts label = true}

/-- The depths of a node are those within the range at which an accepted arrival meets it. -/
theorem mem_depths {depth : Nat} :
    depth ∈ g.depths accepts l start n ↔ l.range.contains depth = true ∧
      Meets (g.step l.direction) (fun a => l.admits accepts a.1) [start] depth n := by
  simp only [depths, Set.mem_ofPred_eq, Meets, List.mem_singleton, exists_eq_left]
  constructor
  · rintro ⟨hrange, walk, label, hwalk, hlength, hlast, hadmits⟩
    exact ⟨hrange, walk, hwalk, hlength, (label, n), hlast, hadmits, rfl⟩
  · rintro ⟨hrange, walk, hwalk, hlength, ⟨label, m⟩, hlast, hadmits, rfl⟩
    exact ⟨hrange, walk, label, hwalk, hlength, hlast, hadmits⟩

/-- A witness is a node that is met within the range. -/
theorem mem_witnessList_iff_depths : n ∈ g.witnessList accepts l start ↔ (g.depths accepts l start n).Nonempty := by
  rw [mem_witnessList]
  constructor
  · rintro ⟨walk, label, hwalk, hrange, hlast, hadmits⟩
    exact ⟨walk.length, hrange, walk, label, hwalk, rfl, hlast, hadmits⟩
  · rintro ⟨_, hrange, walk, label, hwalk, rfl, hlast, hadmits⟩
    exact ⟨walk, label, hwalk, hrange, hlast, hadmits⟩

/-- In a bounded range, a witness that comes before another one is met no later. -/
theorem pairwise_witnessList_bounded {most : Nat} (hmost : l.range.most = some most) :
    (g.witnessList accepts l start).Pairwise fun m n =>
      ∀ e ∈ g.depths accepts l start n, ∃ d ∈ g.depths accepts l start m, d ≤ e := by
  have hrange := Link.range_eq hmost
  have hcontains : ∀ depth, l.range.contains depth = true ↔ max l.range.least 1 ≤ depth ∧ depth ≤ most := by
    intro depth
    rw [hrange, DepthRange.contains_bounded]
  by_cases hwide : max l.range.least 1 ≤ most
  · obtain ⟨before, hbefore⟩ : ∃ before, max l.range.least 1 = before + 1 :=
      ⟨max l.range.least 1 - 1, by omega⟩
    -- the range begins right after the nodes at this depth
    have hlevels : g.arrivals l.direction start l.range =
        (levels (g.step l.direction) (most - before)
          (levels (g.step l.direction) before [start]).2).1.flatten := by
      have h := arrivals_bounded (g := g) l.direction start hwide
      rwa [← hrange, hbefore, Nat.add_sub_cancel] at h
    rw [witnessList, hlevels]
    refine (pairwise_levels _ _).imp fun {m n} hmn e he => ?_
    obtain ⟨hcontained, hmeets⟩ := mem_depths.1 he
    obtain ⟨hleast, hle⟩ := (hcontains e).1 hcontained
    obtain ⟨e, rfl⟩ : ∃ k, e = before + k := ⟨e - before, by omega⟩
    obtain ⟨d, hde, hd⟩ := hmn e ((meets_add before (by omega)).1 hmeets)
    have hpos := hd.depth_pos
    exact ⟨before + d, mem_depths.2 ⟨(hcontains _).2 ⟨by omega, by omega⟩, (meets_add before hpos).2 hd⟩,
      by omega⟩
  · -- no depth lies within such a range
    have hnil : g.witnessList accepts l start = [] := by
      refine List.eq_nil_iff_forall_not_mem.2 fun n hn => ?_
      obtain ⟨depth, hdepth⟩ := mem_witnessList_iff_depths.1 hn
      obtain ⟨hleast, hle⟩ := (hcontains depth).1 hdepth.1
      exact hwide (hleast.trans hle)
    rw [hnil]
    exact List.Pairwise.nil

/-- Without an upper bound, the witnesses are those of a bounded range that leaves room for every node. -/
theorem witnessList_upTo (h : start ∈ g) (hopen : l.range.most = none) {most : Nat}
    (hmost : max l.range.least 1 + g.size - 1 ≤ most) :
    g.witnessList accepts (l.upTo most) start = g.witnessList accepts l start := by
  have haccepted := acceptedNodes_arrivals_open
    (fun label => (.ok (l.admits accepts label) : Except Empty Bool)) l.direction h hmost
  rw [← Link.range_eq hopen, acceptedNodes_total, acceptedNodes_total] at haccepted
  simpa [witnessList] using (Results.ofList_injective haccepted).symm

/-- An upper bound leaves the depths up to it. -/
theorem mem_depths_upTo (hopen : l.range.most = none) {most depth : Nat} :
    depth ∈ g.depths accepts (l.upTo most) start n ↔
      depth ∈ g.depths accepts l start n ∧ depth ≤ most := by
  rw [mem_depths, mem_depths, Link.range_upTo, Link.range_eq hopen, DepthRange.contains_bounded,
    DepthRange.contains_open]
  exact and_right_comm

/-- Among the witnesses of a link, one that comes before another one is met no later. -/
theorem pairwise_witnessList (h : start ∈ g) :
    (g.witnessList accepts l start).Pairwise fun m n =>
      ∀ e ∈ g.depths accepts l start n, ∃ d ∈ g.depths accepts l start m, d ≤ e := by
  cases hopen : l.range.most with
  | some most => exact pairwise_witnessList_bounded hopen
  | none =>
    have hlist : g.witnessList accepts (l.upTo (max l.range.least 1 + g.size - 1)) start =
        g.witnessList accepts l start := witnessList_upTo h hopen (Nat.le_refl _)
    rw [← hlist]
    refine (pairwise_witnessList_bounded rfl).imp_of_mem fun {m n} hm _ hmn e he => ?_
    by_cases hle : e ≤ max l.range.least 1 + g.size - 1
    · obtain ⟨d, hd, hde⟩ := hmn e ((mem_depths_upTo hopen).2 ⟨he, hle⟩)
      exact ⟨d, ((mem_depths_upTo hopen).1 hd).1, hde⟩
    · -- whatever is found is met within the bound
      obtain ⟨d, hd⟩ := mem_witnessList_iff_depths.1 hm
      obtain ⟨hd, hbound⟩ := (mem_depths_upTo hopen).1 hd
      exact ⟨d, hd, by omega⟩

/-- **Witnesses come in the order of their depths.**  From a node of the graph, the search for the witnesses of
a link finds each of them once, and in such an order that the least depth never falls.  The least depth of a
witness is the least number of edges within the link's range, over which a walk leads there whose last edge the
link accepts. -/
theorem witnesses_in_order_of_depth {g : Graph} {start : Node} (h : start ∈ g)
    (accepts : LabelFilter → Option String → Bool) (l : Link) :
    ∃ found : List Node, g.witnesses (.total accepts) l start = .ofList found ∧ found.Nodup ∧
      ∃ depth : Node → Nat, (∀ n ∈ found, IsLeast (g.depths accepts l start n) (depth n)) ∧
        found.Pairwise fun m n => depth m ≤ depth n := by
  have hleast : ∀ n ∈ g.witnessList accepts l start,
      IsLeast (g.depths accepts l start n) (sInf (g.depths accepts l start n)) :=
    fun n hn => ⟨Nat.sInf_mem (mem_witnessList_iff_depths.1 hn), fun _ => Nat.sInf_le⟩
  refine ⟨g.witnessList accepts l start, witnesses_total accepts l h, nodup_witnessList g accepts l start,
    fun n => sInf (g.depths accepts l start n), hleast, ?_⟩
  refine (pairwise_witnessList h).imp_of_mem fun {m n} _ hn hmn => ?_
  obtain ⟨d, hd, hle⟩ := hmn _ (hleast n hn).1
  exact (Nat.sInf_le hd).trans hle

end

/-- A node with an edge `b` to a second and an edge `a` to a third, both of which have further edges `a`: the
second back to the first, the third to the second. -/
def detour : Graph :=
  ((((empty "word" true).addEdge (.index 1) (.index 2) (some "b")).addEdge (.index 1) (.index 3)
    (some "a")).addEdge (.index 2) (.index 1) (some "a")).addEdge (.index 3) (.index 2) (some "a")

/-- Below the first node, by edges `a`, the third is one edge away; the first itself and the second, which a
`b` leads to straight away, are two. -/
theorem witnesses_in_order_of_depth_detour :
    Node.index 1 ∈ detour ∧
      ∃ found : List Node,
        detour.witnesses (.total fun _ label => label = some "a")
            ⟨.down, .far none, some (.name "a"), false⟩ (.index 1) = .ofList found ∧
          found.Nodup ∧
          ∃ depth : Node → Nat,
            (∀ n ∈ found, IsLeast (detour.depths (fun _ label => label = some "a")
              ⟨.down, .far none, some (.name "a"), false⟩ (.index 1) n) (depth n)) ∧
            found.Pairwise fun m n => depth m ≤ depth n := by
  have h : Node.index 1 ∈ detour := by decide
  exact ⟨h, witnesses_in_order_of_depth h _ _⟩

example : (detour.witnesses (.total fun _ label => label = some "a")
    ⟨.down, .far none, some (.name "a"), false⟩ (.index 1)).toExcept =
      .ok [.index 3, .index 1, .index 2] := by
  cbv

end Graph

end DependencyQuery
