import DependencyQuery.Proofs.Walk.Witnesses
import Mathlib.Data.List.Forall2

namespace DependencyQuery

/-!
# Where walks lead, whatever their labels

A link without a filter looks at no label and at each node once.  What it finds depends on where the edges
lead, and in which order they first lead there, but not on how many edges do.

* `targets_append`, `targets_flatMap` — the nodes that several edges lead to are told by those that each of
  them leads to;
* `targets_groupByNeighbour` — grouping by neighbour keeps the order in which nodes are first met;
* `targets_levels`, `targets_spread` — so does a search of the surroundings, level by level and beyond;
* `targets_arrivalsWithin` — where all walks lead is told by where the edges lead;
* `Graph.witnesses_congr` — and so are the witnesses of a link without a filter.
-/

/-- Further edges lead to further nodes, after those that have been met. -/
theorem targets_append (xs ys : List Arrival) :
    targets (xs ++ ys) = targets xs ++ (targets ys).filter (· ∉ targets xs) := by
  have hnew : (ys.map Prod.snd).removeAll (xs.map Prod.snd) =
      (ys.map Prod.snd).filter (· ∉ targets xs) := by
    refine List.filter_congr fun n _ => ?_
    simp only [targets, List.mem_eraseDups, List.elem_eq_mem, decide_not]
  rw [targets, List.map_append, List.eraseDups_append, hnew, eraseDups_filter]
  rfl

/-- One arrival has one target. -/
theorem targets_singleton (a : Arrival) : targets [a] = [a.2] := rfl

/-- The arrivals at a node have it as their target. -/
theorem targets_filter (n : Node) (links : List Arrival) :
    targets (links.filter fun link => link.2 = n) = (targets links).filter (· = n) := by
  rw [targets, targets, ← eraseDups_filter, List.filter_map]
  rfl

/-- Targets depend on the targets of each node in the front. -/
theorem targets_flatMap {front : List Node} {f f' : Node → List Arrival}
    (h : ∀ n ∈ front, targets (f n) = targets (f' n)) :
    targets (front.flatMap f) = targets (front.flatMap f') := by
  induction front with
  | nil => rfl
  | cons n rest ih =>
    rw [List.forall_mem_cons] at h
    rw [List.flatMap_cons, List.flatMap_cons, targets_append, targets_append, h.1, ih h.2]

/-- Grouping by neighbour keeps the order in which nodes are first met. -/
theorem targets_groupByNeighbour (links : List Arrival) :
    targets (Graph.groupByNeighbour links) = targets links := by
  -- one group after the other: the first one leads to its own node only, and the others to other nodes
  have hgroups : ∀ nodes : List Node, nodes.Nodup → nodes ⊆ targets links →
      targets (nodes.flatMap fun n => links.filter fun link => link.2 = n) = nodes := by
    intro nodes hnodup hsubset
    induction nodes with
    | nil => rfl
    | cons n rest ih =>
      rw [List.nodup_cons] at hnodup
      rw [List.cons_subset] at hsubset
      have hgroup : (targets links).filter (· = n) = [n] := by
        rw [List.filter_eq, (nodup_targets links).count, if_pos hsubset.1]
        rfl
      have hothers : rest.filter (· ∉ [n]) = rest :=
        List.filter_eq_self.2 fun m hm => by simpa using ne_of_mem_of_not_mem hm hnodup.1
      rw [List.flatMap_cons, targets_append, targets_filter, hgroup, ih hnodup.2 hsubset.2, hothers]
      rfl
  exact hgroups _ (nodup_targets links) (List.Subset.refl _)

/-! ### Searches of the surroundings -/

section Walk

variable {step step' : Node → List Arrival}

/-- Level by level, edges that lead to the same nodes do. -/
theorem targets_levels (h : ∀ n, targets (step n) = targets (step' n)) (count : Nat)
    (front : List Node) :
    List.Forall₂ (fun xs ys => targets xs = targets ys) (levels step count front).1
        (levels step' count front).1 ∧
      (levels step count front).2 = (levels step' count front).2 := by
  induction count generalizing front with
  | zero => exact ⟨.nil, rfl⟩
  | succ count ih =>
    cases front with
    | nil => exact ⟨.nil, rfl⟩
    | cons n rest =>
      have hfirst : targets ((n :: rest).flatMap step) = targets ((n :: rest).flatMap step') :=
        targets_flatMap fun m _ => h m
      obtain ⟨hmore, hlast⟩ := ih (targets ((n :: rest).flatMap step))
      simp only [levels]
      rw [← hfirst]
      exact ⟨.cons hfirst hmore, hlast⟩

/-- Targets of all levels depend on those of each. -/
theorem targets_flatten {xss yss : List (List Arrival)}
    (h : List.Forall₂ (fun xs ys => targets xs = targets ys) xss yss) :
    targets xss.flatten = targets yss.flatten := by
  induction h with
  | nil => rfl
  | cons hfirst _ ih =>
    rw [List.flatten_cons, List.flatten_cons, targets_append, targets_append, hfirst, ih]

/-- What a spread leads to depends on what each step does. -/
theorem targets_spread (h : ∀ n, targets (step n) = targets (step' n)) (rounds : Nat)
    (seen front : List Node) :
    targets (spread step rounds seen front) = targets (spread step' rounds seen front) := by
  induction rounds generalizing seen front with
  | zero => rfl
  | succ rounds ih =>
    cases front with
    | nil => rfl
    | cons n rest =>
      have hfirst : targets ((n :: rest).flatMap step) = targets ((n :: rest).flatMap step') :=
        targets_flatMap fun m _ => h m
      simp only [spread]
      rw [targets_append, targets_append, hfirst, ih]

/-- What walks within a range lead to depends on what each step does. -/
theorem targets_arrivalsWithin (h : ∀ n, targets (step n) = targets (step' n)) (size : Nat)
    (start : Node) (least : Nat) (most : Option Nat) :
    targets (arrivalsWithin step size start least most) =
      targets (arrivalsWithin step' size start least most) := by
  cases most with
  | some most => exact targets_flatten (List.forall₂_drop (least - 1) (targets_levels h most [start]).1)
  | none =>
    obtain ⟨hbelow, hfront⟩ := targets_levels h least [start]
    rw [arrivalsWithin, arrivalsWithin]
    dsimp only
    rw [targets_append, targets_append, targets_flatten (List.forall₂_drop (least - 1) hbelow), hfront,
      targets_spread h]

end Walk

namespace Graph

variable {g h : Graph}

/-- A link finds the same in two graphs with the same nodes, if their edges lead to the same nodes and, for
a link with a filter, are the same. -/
theorem witnesses_congr [Text.CharacterNames] {l : Link} (hnodes : h.nodes = g.nodes)
    (htargets : ∀ direction n, targets (h.step direction n) = targets (g.step direction n))
    (hsteps : l.label = none ∨ h.step = g.step) (predicate : LabelPredicate) (start : Node) :
    h.witnesses predicate l start = g.witnesses predicate l start := by
  have hsize : h.size = g.size := by rw [← length_nodes, ← length_nodes, hnodes]
  have hfound : acceptedNodes (l.accepts predicate) [] (h.arrivals l.direction start l.range) =
      acceptedNodes (l.accepts predicate) [] (g.arrivals l.direction start l.range) := by
    rcases hsteps with hnone | hsteps
    · have haccepts : l.accepts predicate = fun _ => .ok true := by
        funext label
        rw [Link.accepts, hnone]
      rw [haccepts, acceptedNodes_total fun _ => true, acceptedNodes_total fun _ => true]
      simp only [List.not_mem_nil, not_false_eq_true, decide_true, Bool.and_self, List.filter_true]
      rw [arrivals, arrivals, hsize, targets_arrivalsWithin (htargets l.direction)]
    · rw [arrivals, arrivals, hsize, hsteps]
  simp only [witnesses_eq, mem_congr hnodes, hfound]

end Graph

end DependencyQuery
