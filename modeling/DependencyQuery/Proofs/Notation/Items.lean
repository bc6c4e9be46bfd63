import DependencyQuery.Proofs.Notation.Outlines
import Mathlib.Logic.Relation

namespace DependencyQuery

open Relation (ReflTransGen)
open scoped List

/-!
# Each node and each edge is written once

* `Outline.places` — the places of a text at which nodes stand, each with what is listed there;
* `Graph.Unfolds.listed_eq` — at its first place a node lists all that depends on it, and nothing anywhere else;
* `Graph.Governs` — that an edge leads from one node to another;
* `Graph.Unfolds.mem_after_imp`, `Unfolds.governs_closed` — entries expand nodes that lie below them, and all of those;
* `Graph.Tops` — the items at the top of a text: of some nodes, those that do not lie below an item before them;
* `Graph.bracketed?_writes_once` — a graph has a text, in which each node is expanded once, each edge is an entry once,
  and whose items are those of its roots and then its nodes.
-/

mutual

/-- The places of an outline at which nodes stand, in the order of the text.  Each comes with the labels and nodes of
the entries there, if the node is expanded. -/
def Outline.places : Outline → List (Node × Option (List (Option String × Node)))
  | .mention n => [(n, none)]
  | .expansion n entries => (n, some (entries.map fun entry => (entry.1, entry.2.node))) :: placesIn entries

/-- The places of entries at which nodes stand. -/
def placesIn : List (Option String × Outline) → List (Node × Option (List (Option String × Node)))
  | [] => []
  | (_, item) :: rest => item.places ++ placesIn rest

end

/-- Outlines without labels have the places that each of them has. -/
theorem placesIn_outlines (outlines : List Outline) :
    placesIn (outlines.map (Prod.mk none)) = outlines.flatMap Outline.places := by
  induction outlines with
  | nil => rfl
  | cons outline outlines ih => rw [List.map_cons, List.flatMap_cons, placesIn, ih]

namespace Graph

variable {g : Graph} {written after earlier ns : List Node} {entries : List (Option String × Outline)} {n m : Node}

/-! ### Where a node is expanded -/

/-- Written is what has been before, and what stands at a place. -/
theorem Unfolds.mem_after_iff (h : Unfolds g written entries after) (n : Node) :
    n ∈ after ↔ n ∈ written ∨ n ∈ (placesIn entries).map Prod.fst := by
  induction h with
  | nil => simp [placesIn]
  | @mention _ _ m _ _ old more ih =>
    have hm : n = m → n ∈ _ := fun h => h ▸ old
    simp only [ih, placesIn, Outline.places, List.singleton_append, List.map_cons, List.mem_cons]
    tauto
  | expansion new all below more ihBelow ihMore =>
    simp only [ihMore, ihBelow, placesIn, Outline.places, List.cons_append, List.map_cons, List.map_append,
      List.mem_cons, List.mem_append]
    tauto

/-- A member of two lists, one after the other, is one of the first or one of the second. -/
theorem split_append {α : Type} {a : α} {first second before rest : List α}
    (h : first ++ second = before ++ a :: rest) :
    (∃ between, before = first ++ between ∧ second = between ++ a :: rest) ∨
      ∃ between, first = before ++ a :: between := by
  rcases List.append_eq_append_iff.1 h with ⟨between, hbefore, hsecond⟩ | ⟨between, hfirst, hrest⟩
  · exact .inl ⟨between, hbefore, hsecond⟩
  · cases between with
    | nil => exact .inl ⟨[], by simpa using hfirst.symm, by simpa using hrest.symm⟩
    | cons b between =>
      cases hrest
      exact .inr ⟨between, hfirst⟩

/-- A node is expanded, with all that depends on it, where it has not been written before, and only mentioned
elsewhere. -/
theorem Unfolds.listed_eq (h : Unfolds g written entries after) {before rest} {n : Node} {listed}
    (hplaces : placesIn entries = before ++ (n, listed) :: rest) :
    listed = if n ∈ written ∨ n ∈ before.map Prod.fst then none else some (g.dependents n) := by
  induction h generalizing before rest with
  | nil => simp [placesIn] at hplaces
  | @mention _ _ m _ _ old more ih =>
    have hm : n = m → n ∈ _ := fun h => h ▸ old
    rw [placesIn, Outline.places, List.singleton_append, List.cons_eq_append_iff] at hplaces
    rcases hplaces with ⟨rfl, hplaces⟩ | ⟨before, rfl, hplaces⟩
    · cases hplaces
      rw [if_pos (.inl old)]
    · -- the place comes after a mention, which writes nothing
      rw [ih hplaces]
      refine if_congr ?_ rfl rfl
      rw [List.map_cons, List.mem_cons]
      tauto
  | @expansion written _ _ m _ _ _ new all below more ihBelow ihMore =>
    rw [placesIn, Outline.places, List.cons_append, List.cons_eq_append_iff] at hplaces
    rcases hplaces with ⟨rfl, hplaces⟩ | ⟨before, rfl, hplaces⟩
    · cases hplaces
      rw [if_neg (by simpa using new), all]
    · -- the place lies below this node or after it, when the node has been written
      rcases split_append hplaces with ⟨between, rfl, hrest⟩ | ⟨between, hbelow⟩
      · rw [ihMore hrest]
        refine if_congr ?_ rfl rfl
        rw [below.mem_after_iff, List.map_cons, List.map_append, List.mem_cons, List.mem_cons, List.mem_append]
        tauto
      · rw [ihBelow hbelow]
        refine if_congr ?_ rfl rfl
        rw [List.map_cons, List.mem_cons, List.mem_cons]
        tauto

/-! ### What lies below an item -/

/-- Whether an edge leads from a node to another one. -/
def Governs (g : Graph) (n m : Node) : Prop := ∃ label, ⟨n, m, label⟩ ∈ g.edges

/-- A node governs those among its dependents. -/
theorem governs_iff : g.Governs n m ↔ m ∈ (g.dependents n).map Prod.snd := by
  simp [Governs, ← mem_dependents]

/-- All that entries are about is written with them. -/
theorem Unfolds.node_mem (h : Unfolds g written entries after) : ∀ entry ∈ entries, entry.2.node ∈ after := by
  induction h with
  | nil => exact List.forall_mem_nil _
  | mention old more ih => exact List.forall_mem_cons.2 ⟨more.subset old, ih⟩
  | expansion new all below more ihBelow ihMore =>
    exact List.forall_mem_cons.2 ⟨more.subset (below.subset List.mem_cons_self), ihMore⟩

/-- What has not been written before lies below one of the entries. -/
theorem Unfolds.mem_after_imp (h : Unfolds g written entries after) (hm : m ∈ after) :
    m ∈ written ∨ ∃ entry ∈ entries, ReflTransGen g.Governs entry.2.node m := by
  induction h with
  | nil => exact .inl hm
  | mention old more ih =>
    exact (ih hm).imp_right fun ⟨entry, hentry, hbelow⟩ => ⟨entry, List.mem_cons_of_mem _ hentry, hbelow⟩
  | @expansion _ _ _ n _ _ _ new all below more ihBelow ihMore =>
    rcases ihMore hm with hm | ⟨entry, hentry, hbelow⟩
    · rcases ihBelow hm with hm | ⟨entry, hentry, hbelow⟩
      · rcases List.mem_cons.1 hm with rfl | hm
        · exact .inr ⟨_, List.mem_cons_self, .refl⟩
        · exact .inl hm
      · -- an edge leads from the node to each of its own entries
        have hedge : g.Governs n entry.2.node := ⟨_, mem_edges_of_entry all entry hentry⟩
        exact .inr ⟨_, List.mem_cons_self, .head hedge hbelow⟩
    · exact .inr ⟨entry, List.mem_cons_of_mem _ hentry, hbelow⟩

/-- Whatever an edge leads to is written with the node that the edge comes from. -/
theorem Unfolds.governs_closed (h : Unfolds g written entries after) (hn : n ∈ after) (hnew : n ∉ written)
    (hedge : g.Governs n m) : m ∈ after := by
  induction h with
  | nil => exact absurd hn hnew
  | mention old more ih => exact ih hn hnew
  | @expansion _ inner _ k _ _ _ new all below more ihBelow ihMore =>
    by_cases hinner : n ∈ inner
    · refine more.subset ?_
      by_cases hk : n = k
      · subst hk
        rw [governs_iff, ← all, List.map_map, List.mem_map] at hedge
        obtain ⟨entry, hentry, rfl⟩ := hedge
        exact below.node_mem entry hentry
      · exact ihBelow hinner (by simp [hk, hnew])
    · exact ihMore hn hinner

/-! ### The items at the top -/

/-- The items at the top, given those before them: of some nodes, the ones that neither are nor lie below an earlier
item. -/
inductive Tops (g : Graph) : (earlier nodes items : List Node) → Prop
  | nil {earlier : List Node} : Tops g earlier [] []
  | covered {earlier ns items : List Node} {m n : Node} (item : m ∈ earlier)
      (below : ReflTransGen g.Governs m n) (more : Tops g earlier ns items) : Tops g earlier (n :: ns) items
  | fresh {earlier ns items : List Node} {n : Node} (apart : ∀ m ∈ earlier, ¬ReflTransGen g.Governs m n)
      (more : Tops g (earlier ++ [n]) ns items) : Tops g earlier (n :: ns) (n :: items)

/-- What is written after an item is what has been before and what lies below the item, if no edge leads out of what has
been written before. -/
theorem Unfolds.mem_after_iff_below {label : Option String} {item : Outline}
    (h : Unfolds g written [(label, item)] after) (hclosed : ∀ n ∈ written, ∀ m, g.Governs n m → m ∈ written) :
    m ∈ after ↔ m ∈ written ∨ ReflTransGen g.Governs item.node m := by
  constructor
  · intro hm
    simpa using h.mem_after_imp hm
  · rintro (hm | hbelow)
    · exact h.subset hm
    · induction hbelow with
      | refl => exact h.node_mem _ List.mem_cons_self
      | @tail n m _ hedge hn =>
        by_cases hwritten : n ∈ written
        · exact h.subset (hclosed n hwritten m hedge)
        · exact h.governs_closed hn hwritten hedge

/-- The outlines at some nodes are at those of them that do not lie below an item before them, if just what lies below
earlier items has been written. -/
theorem expandNew_tops (hns : ∀ n ∈ ns, n ∈ g)
    (hwritten : ∀ n, n ∈ written ↔ ∃ m ∈ earlier, ReflTransGen g.Governs m n) :
    Tops g earlier ns ((g.expandNew written ns).1.map Outline.node) := by
  induction ns generalizing written earlier with
  | nil => exact .nil
  | cons n ns ih =>
    rw [List.forall_mem_cons] at hns
    rw [expandNew]
    split
    · next old =>
      -- an earlier item has reached the node
      obtain ⟨m, hm, hbelow⟩ := (hwritten n).1 old
      exact .covered hm hbelow (ih hns.2 hwritten)
    · next new =>
      -- what the outline of a new node writes is all that lies below it
      have hfuel : g.unwritten written < g.size + 1 := Nat.lt_succ_of_le (g.unwritten_le_size written)
      obtain ⟨hnode, hunfolds⟩ := expand_unfolds g (g.size + 1) written n none hns.1 hfuel
      have hclosed : ∀ k ∈ written, ∀ m, g.Governs k m → m ∈ written := by
        intro k hk m hedge
        obtain ⟨item, hitem, hbelow⟩ := (hwritten k).1 hk
        exact (hwritten m).2 ⟨item, hitem, hbelow.tail hedge⟩
      have happ : ∀ m ∈ earlier, ¬ReflTransGen g.Governs m n :=
        fun m hm hbelow => new ((hwritten n).2 ⟨m, hm, hbelow⟩)
      rw [List.map_cons, hnode]
      refine .fresh happ (ih hns.2 fun k => ?_)
      rw [hunfolds.mem_after_iff_below hclosed, hnode, hwritten]
      simp [or_and_right, exists_or]

/-! ### The text of a graph -/

/-- A graph whose declared roots are nodes of it has a text.  In it each node is expanded once, namely at the first of
its places, where all that depends on it is listed in order, and each edge is an entry once.  Elsewhere a node is
mentioned by its label and its key.  The items at the top are the roots that do not lie below an earlier item, and then
the nodes that do not. -/
theorem bracketed?_writes_once (hroots : ∀ n ∈ g.declared, n ∈ g) :
    g.bracketed? = .ok (String.ofList ([' '].intercalate (g.outlines.map (Outline.render g)))) ∧
      g.outlines.flatMap Outline.expanded ~ g.nodes ∧
      (∀ before n listed after, g.outlines.flatMap Outline.places = before ++ (n, listed) :: after →
        listed = if n ∈ before.map Prod.fst then none else some (g.dependents n)) ∧
      (∀ n, Outline.render g (.mention n) = g.labelWith n false ++ '-' :: n.text.toList) ∧
      g.outlines.flatMap Outline.edges ~ g.edges ∧
      Tops g [] (g.roots ++ g.nodes) (g.outlines.map Outline.node) := by
  refine ⟨bracketed?_eq hroots, order_perm_nodes hroots, ?_, ?_, shown_perm_edges hroots, ?_⟩
  · intro before n listed after hplaces
    rw [← placesIn_outlines] at hplaces
    exact ((unfolds_outlines hroots).listed_eq hplaces).trans (if_congr (by simp) rfl rfl)
  · intro n
    simp [Outline.render, labelWith]
  · exact expandNew_tops (mem_of_mem_roots hroots) (by simp)

/-- Two words that govern each other, one of them itself as well and the other one twice, beside a pair that nothing
leads to.  A root is declared twice, and another one depends on it. -/
def knotted : Graph where
  entries := [(.index 1, [("word", some "a")]), (.index 2, [("word", some "b")]), (.index 3, [("word", some "c")]),
    (.index 4, [("word", some "d")])]
  edges := [⟨.index 1, .index 2, some "x"⟩, ⟨.index 1, .index 1, some "z"⟩, ⟨.index 1, .index 2, some "w"⟩,
    ⟨.index 2, .index 1, some "y"⟩, ⟨.index 3, .index 4, some "p"⟩, ⟨.index 4, .index 3, some "q"⟩]
  declared := [.index 2, .index 1, .index 2]
  nodup := by decide
  closed := by decide

/-- It has two items, and the second one is at the first node that the first one does not lead to. -/
theorem bracketed?_writes_once_knotted :
    (∀ n ∈ knotted.declared, n ∈ knotted) ∧
      knotted.bracketed? = .ok "[b-2 y:[a-1 x:b-2 w:b-2 z:a-1]] [c p:[d q:c-3]]" ∧
      knotted.outlines.flatMap Outline.expanded ~ knotted.nodes ∧
      knotted.outlines.flatMap Outline.edges ~ knotted.edges ∧
      Tops knotted [] (knotted.declared ++ knotted.nodes) [.index 2, .index 3] := by
  have hroots : ∀ n ∈ knotted.declared, n ∈ knotted := by decide
  obtain ⟨htext, hnodes, -, -, hedges, htops⟩ := bracketed?_writes_once hroots
  exact ⟨hroots, htext, hnodes, hedges, htops⟩

end Graph

end DependencyQuery
