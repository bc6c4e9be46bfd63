import DependencyQuery.Proofs.Search.Sessions

namespace DependencyQuery

/-!
# Stops at new roots

A search tries the nodes of the graph one after the other, so that the results at one root are found in a
row and no root comes back.  A cursor that moves on to another root thus stops once at each root.

* `exists_eq_ofList_of_flatMapList`, `forall_mem_of_map` — a search that comes to its end has come to the
  end of all its parts;
* `Graph.position` — the place of a node in the order of the graph;
* `RootedInOrder` — results whose roots come in this order, `rootedInOrder_of_search` — which those of a
  search do;
* `matchedRoots` — the nodes that are roots of results, `nextRoot` — the first of them after the current
  one;
* `Cursor.AtFirst`, `Cursor.StopsAt` — where a cursor stops when it moves on to another root;
* `nextRoot_eq_none`, `nextRoot_eq_some` — the next root is that of the first result with a later one;
* `Cursor.StandsAt.stopsAt` — one such move, `Cursor.exists_standsAt_replicate` — nothing but such moves;
* `Cursor.findRoot_of_search` — so they lead through the roots of all results, each once and in order.
-/

/-! ### Searches that come to their end -/

namespace Results

variable {ε α β : Type}

/-- Two searches one after the other come to an end only if both of them do. -/
theorem exists_eq_ofList_of_append {r : Results ε α} {more : Unit → Results ε α} {xs : List α}
    (h : r.append more = ofList xs) : (∃ ys, r = ofList ys) ∧ ∃ zs, more () = ofList zs := by
  induction r generalizing xs with
  | done => exact ⟨⟨[], rfl⟩, xs, h⟩
  | failed e => cases xs <;> cases h
  | next a rest ih =>
    cases xs with
    | nil => cases h
    | cons b xs =>
      obtain ⟨-, hrest⟩ := Results.next.inj h
      obtain ⟨⟨ys, hys⟩, hmore⟩ := ih () (congrFun hrest ())
      have hofList : rest = fun _ => ofList ys := funext fun _ => hys
      exact ⟨⟨a :: ys, congrArg (next a) hofList⟩, hmore⟩

/-- A search for each element of a list comes to an end only if each of them does. -/
theorem exists_eq_ofList_of_flatMapList {f : α → Results ε β} {xs : List α} {ys : List β}
    (h : flatMapList f xs = ofList ys) :
    ∃ list : α → List β, (∀ a ∈ xs, f a = ofList (list a)) ∧ ys = xs.flatMap list := by
  have hparts : ∀ a ∈ xs, ∃ zs, f a = ofList zs := by
    induction xs generalizing ys with
    | nil => nofun
    | cons a rest ih =>
      obtain ⟨hfirst, zs, hrest⟩ := exists_eq_ofList_of_append h
      exact List.forall_mem_cons.2 ⟨hfirst, ih hrest⟩
  refine ⟨fun a => ((f a).toExcept.toOption).getD [], fun a ha => ?_, ?_⟩
  · obtain ⟨zs, hzs⟩ := hparts a ha
    simp only [hzs, toExcept_ofList]
    rfl
  · refine ofList_injective (h.symm.trans (flatMapList_ofList_of_forall fun a ha => ?_))
    obtain ⟨zs, hzs⟩ := hparts a ha
    rw [hzs, toExcept_ofList]
    rfl

/-- Each result under a function is the function's value somewhere. -/
theorem forall_mem_of_map {f : α → β} {r : Results ε α} {ys : List β} (h : r.map f = ofList ys) :
    ∀ b ∈ ys, ∃ a, b = f a := by
  induction r generalizing ys with
  | done => cases ys with
    | nil => nofun
    | cons b ys => cases h
  | failed e => cases ys <;> cases h
  | next a rest ih =>
    cases ys with
    | nil => cases h
    | cons b ys =>
      obtain ⟨hfirst, hrest⟩ := Results.next.inj h
      exact List.forall_mem_cons.2 ⟨⟨a, hfirst.symm⟩, ih () (congrFun hrest ())⟩

end Results

/-! ### The order of the roots -/

namespace Graph

variable {g : Graph}

/-- How many nodes of the graph come before a node. -/
def position (g : Graph) (n : Node) : Nat := g.nodes.idxOf n

/-- A node stands at its position. -/
theorem position_getElem {i : Nat} (h : i < g.nodes.length) : g.position g.nodes[i] = i :=
  g.nodup.idxOf_getElem i h

/-- Nodes at the same position are the same. -/
theorem position_inj {m n : Node} (hm : m ∈ g) : g.position m = g.position n ↔ m = n :=
  List.idxOf_inj hm

end Graph

variable {g : Graph} {found : List Finding}

/-- Results at nodes of the graph, in the order of their roots. -/
structure RootedInOrder (g : Graph) (found : List Finding) : Prop where
  rooted : ∀ f ∈ found, f.root ∈ g
  inOrder : found.Pairwise fun e f => g.position e.root ≤ g.position f.root

/-- The results of a search come in the order of their roots. -/
theorem rootedInOrder_of_search [Text.CharacterNames] {p : Pattern} {predicate : LabelPredicate} {base : Environment}
    (h : search p g predicate base = .ofList found) : RootedInOrder g found := by
  obtain ⟨list, hlist, rfl⟩ := Results.exists_eq_ofList_of_flatMapList h
  -- what is found at a root has it as its root, so the order of the roots is that of the nodes
  have hroot : ∀ root ∈ g.nodes, ∀ f ∈ list root, f.root = root := by
    intro root hn f hf
    obtain ⟨env, rfl⟩ := Results.forall_mem_of_map (hlist root hn) f hf
    rfl
  constructor
  · intro f hf
    obtain ⟨root, hn, hf⟩ := List.mem_flatMap.1 hf
    rw [hroot root hn f hf]
    exact hn
  · refine List.pairwise_flatMap.2 ⟨fun root hn => ?_, List.pairwise_iff_getElem.2 ?_⟩
    · -- two results of one root are in order, as their positions are equal
      refine List.pairwise_iff_forall_sublist.2 fun {e f} hef => ?_
      rw [hroot root hn e (hef.subset (by simp)), hroot root hn f (hef.subset (by simp))]
    · -- of two roots the earlier one stands earlier in the graph
      intro i j hi hj hij e he f hf
      rw [hroot _ (List.getElem_mem hi) e he, hroot _ (List.getElem_mem hj) f hf,
        Graph.position_getElem, Graph.position_getElem]
      exact hij.le

/-- Of two results, the root of the first does not come later. -/
theorem RootedInOrder.position_le (hfound : RootedInOrder g found) {i j : Nat} (hi : i < found.length)
    (hj : j < found.length) (hij : i ≤ j) : g.position found[i].root ≤ g.position found[j].root := by
  rcases Nat.lt_or_eq_of_le hij with hij | rfl
  · exact List.pairwise_iff_getElem.1 hfound.inOrder i j hi hj hij
  · exact Nat.le_refl _

/-- The nodes of the graph at which there are results. -/
def matchedRoots (g : Graph) (found : List Finding) : List Node :=
  g.nodes.filter fun n => found.any fun f => f.root = n

/-- The first node with results after the root of the current one, or of all if there is none. -/
def nextRoot (g : Graph) (found : List Finding) (current : Option Finding) : Option Node :=
  (matchedRoots g found).find? fun n => current.all fun f => g.position f.root < g.position n

/-- A matched root is the root of a result. -/
theorem mem_matchedRoots (hfound : RootedInOrder g found) {n : Node} :
    n ∈ matchedRoots g found ↔ ∃ f ∈ found, f.root = n := by
  rw [matchedRoots, List.mem_filter]
  constructor
  · rintro ⟨-, hany⟩
    simpa using hany
  · rintro ⟨f, hf, rfl⟩
    exact ⟨hfound.rooted f hf, List.any_eq_true.2 ⟨f, hf, by simp⟩⟩

/-- The matched roots come in the order of the nodes. -/
theorem sorted_matchedRoots (g : Graph) (found : List Finding) :
    (matchedRoots g found).Pairwise fun m n => g.position m < g.position n := by
  refine List.Pairwise.filter _ (List.pairwise_iff_getElem.2 fun i j hi hj hij => ?_)
  rw [Graph.position_getElem, Graph.position_getElem]
  exact hij

/-- The first of the roots with a property is the one that comes before all others with it. -/
theorem find?_matchedRoots {is : Node → Bool} {n : Node} (hn : n ∈ matchedRoots g found)
    (his : is n = true)
    (hleast : ∀ m ∈ matchedRoots g found, is m = true → g.position n ≤ g.position m) :
    (matchedRoots g found).find? is = some n := by
  obtain ⟨i, hi, rfl⟩ := List.getElem_of_mem hn
  refine List.find?_eq_some_iff_getElem.2 ⟨his, i, hi, rfl, fun j hj => ?_⟩
  by_contra hbefore
  have hle := hleast _ (List.getElem_mem (hj.trans hi)) (by simpa using hbefore)
  have hlt := List.pairwise_iff_getElem.1 (sorted_matchedRoots g found) j i (hj.trans hi) hi hj
  exact absurd hle (Nat.not_le_of_lt hlt)

/-- After a root comes the next one. -/
theorem nextRoot_of_root_eq {f : Finding} {k : Nat} (hk : k < (matchedRoots g found).length)
    (hf : f.root = (matchedRoots g found)[k]) :
    nextRoot g found (some f) = (matchedRoots g found)[k + 1]? := by
  have hsorted := List.pairwise_iff_getElem.1 (sorted_matchedRoots g found)
  -- a root that comes later stands further on
  have hfurther : ∀ j (hj : j < (matchedRoots g found).length),
      g.position (matchedRoots g found)[k] < g.position (matchedRoots g found)[j] → k < j := by
    intro j hj hlt
    by_contra hle
    rcases Nat.lt_or_eq_of_le (Nat.le_of_not_lt hle) with hjk | rfl
    · exact absurd (hsorted j k hj hk hjk) (Nat.lt_asymm hlt)
    · exact absurd hlt (Nat.lt_irrefl _)
  rw [nextRoot]
  simp only [Option.all_some, hf]
  by_cases hnext : k + 1 < (matchedRoots g found).length
  · rw [List.getElem?_eq_getElem hnext]
    refine find?_matchedRoots (List.getElem_mem hnext)
      (decide_eq_true (hsorted k (k + 1) hk hnext (Nat.lt_succ_self k))) fun m hm hlater => ?_
    obtain ⟨j, hj, rfl⟩ := List.getElem_of_mem hm
    rcases Nat.lt_or_eq_of_le (hfurther j hj (of_decide_eq_true hlater)) with hlt | rfl
    · exact (hsorted (k + 1) j hnext hj hlt).le
    · exact Nat.le_refl _
  · rw [List.getElem?_eq_none (Nat.le_of_not_lt hnext), List.find?_eq_none]
    intro m hm hlater
    obtain ⟨j, hj, rfl⟩ := List.getElem_of_mem hm
    have hkj := hfurther j hj (of_decide_eq_true hlater)
    omega

/-- Before the first result, the first matched root comes next. -/
theorem nextRoot_none (g : Graph) (found : List Finding) :
    nextRoot g found none = (matchedRoots g found)[0]? := by
  rw [nextRoot]
  cases matchedRoots g found <;> rfl

namespace Cursor

variable {c : Cursor}

/-- Whether a cursor stands at the first result with a root. -/
def AtFirst (found : List Finding) (c : Cursor) (root : Node) : Prop :=
  ∃ before, found.findIdx? (fun f => f.root = root) = some before ∧
    StandsAt found c (.passed (before + 1))

/-- Whether moving on to another root leads to the first result with the one that is given, or nowhere. -/
def StopsAt (found : List Finding) (c : Cursor) : Option Node → Prop
  | some root => c.findRoot.1 = .ok true ∧ AtFirst found c.findRoot.2 root
  | none => c.findRoot.1 = .ok false

/-- The results with later roots than the current one are those ahead with other roots. -/
theorem later_iff (hfound : RootedInOrder g found) {count i : Nat} (hcount : count ≤ found.length)
    (hi : i < found.length) :
    (((Standing.passed count).current found).all fun f => g.position f.root < g.position found[i].root) ↔
      count ≤ i ∧ ((Standing.passed count).current found).all fun f => found[i].root ≠ f.root := by
  cases count with
  | zero => simp [Standing.current]
  | succ last =>
    -- roots are nodes, so that their positions tell them apart
    have hinj := Graph.position_inj (n := found[last].root) (hfound.rooted _ (List.getElem_mem hi))
    rw [Standing.current, List.getElem?_eq_getElem hcount]
    simp only [Option.all_some, decide_eq_true_eq]
    constructor
    · intro hlater
      refine ⟨Nat.lt_of_not_le fun hle => ?_, fun heq => ?_⟩
      · exact absurd (hfound.position_le hi hcount hle) (Nat.not_le_of_lt hlater)
      · rw [heq] at hlater
        exact absurd hlater (Nat.lt_irrefl _)
    · rintro ⟨hlt, hne⟩
      exact Nat.lt_of_le_of_ne (hfound.position_le hcount hi (Nat.le_of_lt hlt))
        fun heq => hne (hinj.1 heq.symm)

/-- Where all results ahead have the current root, there is no next root. -/
theorem nextRoot_eq_none (hfound : RootedInOrder g found) {count : Nat} (hcount : count ≤ found.length)
    (hahead : ∀ f ∈ found.drop count,
      ((Standing.passed count).current found).all (fun previous => f.root ≠ previous.root) = false) :
    nextRoot g found ((Standing.passed count).current found) = none := by
  rw [nextRoot, List.find?_eq_none]
  intro n hn hlater
  obtain ⟨f, hf, rfl⟩ := (mem_matchedRoots hfound).1 hn
  obtain ⟨i, hi, rfl⟩ := List.getElem_of_mem hf
  obtain ⟨hle, hother⟩ := (later_iff hfound hcount hi).1 hlater
  have hmem : found[i] ∈ found.drop count :=
    List.mem_drop_iff_getElem.2 ⟨i - count, by omega, by simp only [Nat.add_sub_cancel' hle]⟩
  rw [hahead _ hmem] at hother
  cases hother

/-- The next root is that of the first result that has a later root than the current one. -/
theorem nextRoot_eq_some (hfound : RootedInOrder g found) {current : Option Finding} {i : Nat}
    (hi : i < found.length)
    (hlater : current.all fun f => g.position f.root < g.position found[i].root)
    (hleast : ∀ j (hj : j < found.length),
      (current.all fun f => g.position f.root < g.position found[j].root) → i ≤ j) :
    nextRoot g found current = some found[i].root := by
  refine find?_matchedRoots ((mem_matchedRoots hfound).2 ⟨_, List.getElem_mem hi, rfl⟩) hlater ?_
  intro m hm hmlater
  obtain ⟨f, hf, rfl⟩ := (mem_matchedRoots hfound).1 hm
  obtain ⟨j, hj, rfl⟩ := List.getElem_of_mem hf
  exact hfound.position_le hi hj (hleast j hj hmlater)

/-- Moving on to another root leads to the first result with the next root. -/
theorem StandsAt.stopsAt (hfound : RootedInOrder g found) {count : Nat}
    (h : StandsAt found c (.passed count)) : StopsAt found c (nextRoot g found c.current) := by
  have hcount : count ≤ found.length := h.count_le
  obtain ⟨hanswer, hnext⟩ := h.findRoot
  rw [h.current]
  rw [Standing.next] at hanswer hnext
  cases hskipped : (found.drop count).findIdx? fun f =>
      ((Standing.passed count).current found).all fun previous => f.root ≠ previous.root with
  | none =>
    rw [hskipped] at hanswer
    rw [nextRoot_eq_none hfound hcount (List.findIdx?_eq_none_iff.1 hskipped)]
    exact hanswer
  | some skipped =>
    rw [hskipped] at hanswer hnext
    obtain ⟨hlt, hother, hfirst⟩ := List.findIdx?_eq_some_iff_getElem.1 hskipped
    rw [List.length_drop] at hlt
    rw [List.getElem_drop] at hother
    have hi : count + skipped < found.length := by omega
    have hlater := (later_iff hfound hcount hi).2 ⟨Nat.le_add_right _ _, hother⟩
    -- no result before this one has a later root than the current one
    have hleast : ∀ j (hj : j < found.length),
        (((Standing.passed count).current found).all fun f =>
          g.position f.root < g.position found[j].root) → count + skipped ≤ j := by
      intro j hj hjlater
      obtain ⟨hle, hnew⟩ := (later_iff hfound hcount hj).1 hjlater
      by_contra hbefore
      have hold := hfirst (j - count) (by omega)
      simp only [List.getElem_drop, Nat.add_sub_cancel' hle] at hold
      exact hold hnew
    rw [nextRoot_eq_some hfound hi hlater hleast]
    refine ⟨hanswer, count + skipped, List.findIdx?_eq_some_iff_getElem.2 ⟨hi, by simp, ?_⟩, hnext⟩
    intro j hj hsame
    have hsame : found[j].root = found[count + skipped].root := by simpa using hsame
    rw [← hsame] at hlater
    exact absurd (hleast j (by omega) hlater) (Nat.not_le_of_lt hj)

/-- At the first result with a root, that root is the current one. -/
theorem AtFirst.exists_current {root : Node} (h : AtFirst found c root) :
    ∃ f, c.current = some f ∧ f.root = root := by
  obtain ⟨before, hbefore, hstands⟩ := h
  obtain ⟨hlt, hroot, -⟩ := List.findIdx?_eq_some_iff_getElem.1 hbefore
  have hcurrent : c.current = found[before]? := hstands.current
  exact ⟨found[before], hcurrent.trans (List.getElem?_eq_getElem hlt), by simpa using hroot⟩

/-- From the beginning, as many moves to another root lead past as many of the roots. -/
theorem exists_standsAt_replicate (hfound : RootedInOrder g found) {k : Nat}
    (hk : k ≤ (matchedRoots g found).length) :
    ∃ count, StandsAt found ((start (.ofList found)).after (List.replicate k .findRoot)) (.passed count) ∧
      nextRoot g found ((start (.ofList found)).after (List.replicate k .findRoot)).current =
        (matchedRoots g found)[k]? := by
  induction k with
  | zero => exact ⟨0, standsAt_start found, nextRoot_none g found⟩
  | succ k ih =>
    obtain ⟨count, hstands, hnext⟩ := ih (Nat.le_of_lt hk)
    have hstop := hstands.stopsAt hfound
    rw [hnext, List.getElem?_eq_getElem hk] at hstop
    obtain ⟨f, hcurrent, hroot⟩ := hstop.2.exists_current
    obtain ⟨before, -, hmoved⟩ := hstop.2
    rw [List.replicate_succ', after_concat]
    refine ⟨before + 1, hmoved, ?_⟩
    show nextRoot g found (Cursor.findRoot _).2.current = _
    rw [hcurrent, nextRoot_of_root_eq hk hroot]

/-- **Moving on to another root stops once at each root.**  Take a search that comes to its end, and a
cursor in it after calls of its methods in any order.

* Once the cursor is reset, moves to another root lead through the nodes of the graph at which there are
  results, each once and in the order of the graph, each time to the first result there; the next one says
  that there are no more.
* Without the reset, a cursor that has run past the last result says so and changes nothing.  Any other one
  moves to the first result at the first node, among those that come after the root of its current result,
  at which there are any, or among all nodes if it has no current result yet; and it says no just when there
  is no such node. -/
theorem findRoot_of_search [Text.CharacterNames] {p : Pattern} {predicate : LabelPredicate} {base : Environment}
    (hsearch : search p g predicate base = .ofList found) (calls : List Call) :
    ∃ c, c = (start (search p g predicate base)).after calls ∧
      (∀ k ≤ (matchedRoots g found).length,
        StopsAt found (c.reset.after (List.replicate k .findRoot)) (matchedRoots g found)[k]?) ∧
      (Standing.after found (.passed 0) calls = .past → c.findRoot = (.ok false, c)) ∧
      (Standing.after found (.passed 0) calls ≠ .past → StopsAt found c (nextRoot g found c.current)) := by
  have hfound := rootedInOrder_of_search hsearch
  have hstands := (standsAt_start found).after calls
  rw [hsearch]
  refine ⟨_, rfl, fun k hk => ?_, fun hpast => ?_, fun hwithin => ?_⟩
  · -- after a reset the cursor goes through the matched roots, however it stood before
    obtain ⟨count, hstop, hnext⟩ := exists_standsAt_replicate hfound hk
    have hreset : ((start (.ofList found)).after calls).reset = start (.ofList found) :=
      congrArg start hstands.results
    rw [hreset, ← hnext]
    exact hstop.stopsAt hfound
  · rw [hpast] at hstands
    exact hstands.findRoot_of_past
  · -- within the results the next root is counted from the one that is current
    cases hstanding : Standing.after found (.passed 0) calls with
    | past => exact absurd hstanding hwithin
    | passed count =>
      rw [hstanding] at hstands
      exact hstands.stopsAt hfound

/-- Two words below the first one, the second of which is below the other one too. -/
def fork : Graph where
  entries := [(.index 1, [("word", some "saw")]), (.index 2, [("word", some "men")]),
    (.index 3, [("word", some "old")])]
  edges := [⟨.index 1, .index 2, some "obj"⟩, ⟨.index 1, .index 3, none⟩,
    ⟨.index 2, .index 3, some "amod"⟩]
  nodup := by decide
  closed := by decide

/-- Any word with an `x` below it. -/
def forkQuery : Pattern where
  first := .node {} [.link ⟨.down, .direct, none, false⟩ (.node { name := some "x" } [])]

/-- The results at the first word, and the one at the second. -/
def forkResults : List Finding :=
  [⟨.index 1, [("x", .index 2)]⟩, ⟨.index 1, [("x", .index 3)]⟩, ⟨.index 2, [("x", .index 3)]⟩]

/-- At the first of two results with a root, the other one is passed. -/
theorem findRoot_of_search_fork :
    search forkQuery fork (.total fun _ _ => true) [] = .ofList forkResults ∧
      matchedRoots fork forkResults = [.index 1, .index 2] ∧
      StopsAt forkResults ((start (search forkQuery fork (.total fun _ _ => true) [])).after [.find])
        (some (.index 2)) := by
  have hsearch : search forkQuery fork (.total fun _ _ => true) [] = .ofList forkResults := rfl
  obtain ⟨c, rfl, -, -, hstop⟩ := findRoot_of_search hsearch [.find]
  exact ⟨hsearch, by decide, hstop (by decide)⟩

end Cursor

end DependencyQuery
