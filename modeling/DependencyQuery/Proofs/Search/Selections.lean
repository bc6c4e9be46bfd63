import DependencyQuery.Proofs.Search.Seeding
import Mathlib.Data.Multiset.Bind

namespace DependencyQuery

/-!
# What a pattern selects, apart from where a search comes from

A search hands environments on from left to right.  Where no name stands inside a negated link, each part
of a pattern can be searched by itself instead, and what the parts select is put together afterwards.

* `Assignment` — nodes for some names, in no order: what an environment says of each name;
* `Assignment.join`, `joins` — assignments put together, if they give no name two nodes; `joins_comm` and
  `joins_assoc` say that neither order nor grouping matters;
* `Nameless` — whether none of some descriptions has a name;
* `treeSelections`, `clausesSelections`, `clauseSelections`, `alternativesSelections`, `treesSelections` —
  the assignments that the parts of a pattern select at a node;
* `map_treeFits` and its kin — a search finds what is selected, joined to the environment that it comes
  from, as often as it is selected.
-/

/-! ### Assignments -/

/-- Nodes for some names. -/
abbrev Assignment := String → Option Node

namespace Assignment

/-- Whether two assignments give no name different nodes. -/
def Compatible (a b : Assignment) : Prop := ∀ name m n, a name = some m → b name = some n → m = n

/-- Two assignments together, of which the first counts. -/
def both (a b : Assignment) : Assignment := fun name => (a name).or (b name)

/-- No node for any name. -/
def none : Assignment := fun _ => Option.none

/-- Whether assignments are compatible does not depend on their order. -/
theorem compatible_comm {a b : Assignment} : Compatible a b ↔ Compatible b a :=
  ⟨fun h name m n hm hn => (h name n m hn hm).symm, fun h name m n hm hn => (h name n m hn hm).symm⟩

/-- The union of compatible assignments does not depend on their order. -/
theorem both_comm {a b : Assignment} (h : Compatible a b) : both a b = both b a := by
  funext name
  unfold both
  cases ha : a name with
  | none => simp
  | some m =>
    cases hb : b name with
    | none => simp
    | some n => simp [h name m n ha hb]

/-- Unions of assignments may be put together in any order. -/
theorem both_assoc (a b c : Assignment) : both (both a b) c = both a (both b c) := by
  funext name
  exact Option.or_assoc

/-- What two assignments say together is compatible with a third one just when each of them is. -/
theorem compatible_both {a b c : Assignment} (h : Compatible a b) :
    Compatible (both a b) c ↔ Compatible a c ∧ Compatible b c := by
  constructor
  · intro hc
    refine ⟨fun name m n hm hn => hc name m n ?_ hn, fun name m n hm hn => hc name m n ?_ hn⟩
    · rw [both, hm, Option.some_or]
    · rw [both_comm h, both, hm, Option.some_or]
  · rintro ⟨ha, hb⟩ name m n hm hn
    rcases Option.or_eq_some_iff.1 hm with hm | ⟨_, hm⟩
    · exact ha name m n hm hn
    · exact hb name m n hm hn

open Classical in
/-- Two assignments together, if they are compatible. -/
noncomputable def join (a b : Assignment) : Multiset Assignment :=
  if Compatible a b then {both a b} else 0

/-- Compatible assignments have one join. -/
theorem join_of_compatible {a b : Assignment} (h : Compatible a b) : a.join b = {both a b} := if_pos h

/-- Other assignments have none. -/
theorem join_of_not_compatible {a b : Assignment} (h : ¬Compatible a b) : a.join b = 0 := if_neg h

/-- Joining with an empty assignment changes nothing. -/
theorem join_none (a : Assignment) : a.join none = {a} := by
  have h : Compatible a none := by
    intro name m n _ hn
    cases hn
  have hboth : both a none = a := funext fun name => Option.or_none
  rw [join_of_compatible h, hboth]

/-- Joins do not depend on the order. -/
theorem join_comm (a b : Assignment) : a.join b = b.join a := by
  by_cases h : Compatible a b
  · rw [join_of_compatible h, join_of_compatible (compatible_comm.1 h), both_comm h]
  · rw [join_of_not_compatible h, join_of_not_compatible (mt compatible_comm.1 h)]

/-- Joins may be put together in any order. -/
theorem join_assoc (a b c : Assignment) :
    ((a.join b).bind fun x => x.join c) = (b.join c).bind fun x => a.join x := by
  -- both sides hold all three assignments just when any two of them are compatible
  by_cases hab : Compatible a b <;> by_cases hbc : Compatible b c
  · rw [join_of_compatible hab, join_of_compatible hbc, Multiset.singleton_bind,
      Multiset.singleton_bind]
    have hiff : Compatible (both a b) c ↔ Compatible a (both b c) := by
      rw [compatible_both hab, compatible_comm (b := both b c), compatible_both hbc,
        compatible_comm (a := b) (b := a), compatible_comm (a := c) (b := a)]
      exact ⟨fun h => ⟨hab, h.1⟩, fun h => ⟨h.2, hbc⟩⟩
    by_cases h : Compatible (both a b) c
    · rw [join_of_compatible h, join_of_compatible (hiff.1 h), both_assoc]
    · rw [join_of_not_compatible h, join_of_not_compatible (mt hiff.2 h)]
  · have h : ¬Compatible (both a b) c := fun h => hbc ((compatible_both hab).1 h).2
    rw [join_of_compatible hab, join_of_not_compatible hbc, Multiset.singleton_bind,
      join_of_not_compatible h, Multiset.zero_bind]
  · have h : ¬Compatible a (both b c) := fun h =>
      hab (compatible_comm.1 ((compatible_both hbc).1 (compatible_comm.1 h)).1)
    rw [join_of_not_compatible hab, join_of_compatible hbc, Multiset.singleton_bind,
      join_of_not_compatible h, Multiset.zero_bind]
  · rw [join_of_not_compatible hab, join_of_not_compatible hbc, Multiset.zero_bind, Multiset.zero_bind]

end Assignment

/-- Each of some assignments together with each of others. -/
noncomputable def joins (s t : Multiset Assignment) : Multiset Assignment :=
  s.bind fun a => t.bind fun b => a.join b

/-- The joins of two collections do not depend on their order. -/
theorem joins_comm (s t : Multiset Assignment) : joins s t = joins t s := by
  rw [joins, Multiset.bind_bind]
  simp only [joins, Assignment.join_comm]

/-- The joins of three collections may be put together in any order. -/
theorem joins_assoc (s t u : Multiset Assignment) : joins (joins s t) u = joins s (joins t u) := by
  simp only [joins, Multiset.bind_assoc]
  refine Multiset.bind_congr fun a _ => Multiset.bind_congr fun b _ => ?_
  rw [Multiset.bind_bind]
  simp only [Assignment.join_assoc]

/-- The first two of three collections may change places. -/
theorem joins_left_comm (s t u : Multiset Assignment) : joins s (joins t u) = joins t (joins s u) := by
  rw [← joins_assoc, joins_comm s t, joins_assoc]

/-- Joining with nothing but an empty assignment changes nothing. -/
theorem joins_none (s : Multiset Assignment) : joins s {Assignment.none} = s := by
  simp only [joins, Multiset.singleton_bind, Assignment.join_none]
  exact (Multiset.bind_singleton s id).trans (Multiset.map_id s)

/-- Assignments are joined one by one. -/
theorem joins_eq_bind (s t : Multiset Assignment) : joins s t = s.bind fun a => joins {a} t := by
  simp only [joins, Multiset.singleton_bind]

/-! ### Environments as assignments -/

/-- What an environment says of each name. -/
def Environment.assignment (env : Environment) : Assignment := fun name => env.get? name

variable [Text.CharacterNames]

/-- Where a description may stand, what is bound there joins the environment; elsewhere nothing does. -/
theorem join_binding (d : Description) (env : Environment) (n : Node) :
    env.assignment.join (Environment.assignment (d.binding n)) =
      if d.allows env n then {(d.bind env n).assignment} else 0 := by
  -- to allow the node is to agree with the one binding that the description adds
  have hiff : d.allows env n = true ↔
      Assignment.Compatible env.assignment (Environment.assignment (d.binding n)) := by
    rw [Description.allows_iff_agree]
    unfold Description.binding Assignment.Compatible Environment.assignment
    cases d.name with
    | none => simp [Environment.get?, env.agree_nil]
    | some name =>
      simp only [Environment.agree_singleton, Environment.get?_cons]
      -- only the description's own name is bound by it
      constructor
      · intro h other m k hm hk
        by_cases ho : other = name
        · rw [ho] at hm
          rw [if_pos ho, Option.some.injEq] at hk
          rw [h m hm, hk]
        · rw [if_neg ho] at hk
          cases hk
      · intro h m hm
        exact h name m n hm (if_pos rfl)
  by_cases h : d.allows env n = true
  · rw [if_pos h, Assignment.join_of_compatible (hiff.1 h), Description.bind_eq_extend h]
    congr 1
    funext name
    exact (Environment.get?_extend env (d.binding n) name).symm
  · rw [if_neg h, Assignment.join_of_not_compatible (mt hiff.2 h)]

/-! ### What the parts of a pattern select -/

/-- Whether none of some descriptions has a name. -/
def Nameless (descriptions : List Description) : Prop := ∀ d ∈ descriptions, d.name = none

/-- Two lists of descriptions have no names if neither does. -/
theorem nameless_append {ds es : List Description} :
    Nameless (ds ++ es) ↔ Nameless ds ∧ Nameless es := List.forall_mem_append

/-- Every environment is free of the names in descriptions that have none. -/
theorem Nameless.free {descriptions : List Description} (h : Nameless descriptions)
    (base : Environment) : base.Free descriptions := by
  intro d hd
  rw [h d hd]
  rfl

section Selections

variable (g : Graph) (accepts : LabelFilter → Option String → Bool)

mutual

/-- The assignments that a tree selects at a node. -/
noncomputable def treeSelections : PatternTree → Node → Multiset Assignment
  | .node description clauses, n =>
    if description.testsPass g n then
      joins {Environment.assignment (description.binding n)} (clausesSelections clauses n)
    else 0

/-- The assignments that several clauses select at a node. -/
noncomputable def clausesSelections : List Clause → Node → Multiset Assignment
  | [], _ => {Assignment.none}
  | clause :: rest, n => joins (clauseSelections clause n) (clausesSelections rest n)

/-- The assignments that a clause selects at a node; a negated link selects no node for any name. -/
noncomputable def clauseSelections : Clause → Node → Multiset Assignment
  | .link l target, n =>
    if l.negated then
      if (g.witnessList accepts l n).any fun m => !(treeFits g accepts target [] m).isEmpty then 0
      else {Assignment.none}
    else (g.witnessList accepts l n : Multiset Node).bind (treeSelections target)
  | .group alternatives, n => alternativesSelections alternatives n

/-- The assignments that some alternatives select at a node. -/
noncomputable def alternativesSelections : List (List Clause) → Node → Multiset Assignment
  | [], _ => 0
  | clauses :: rest, n => clausesSelections clauses n + alternativesSelections rest n

end

/-- The assignments that several trees select at the same node. -/
noncomputable def treesSelections : List PatternTree → Node → Multiset Assignment
  | [], _ => {Assignment.none}
  | tree :: rest, n => joins (treeSelections g accepts tree n) (treesSelections rest n)

end Selections

variable {g : Graph} {accepts : LabelFilter → Option String → Bool}

/-! ### A search finds what is selected -/

omit [Text.CharacterNames] in
/-- A search that goes on from whatever has been found joins what is selected next. -/
theorem map_flatMap_of_forall {α : Type} {found : List α} {next : α → List Environment}
    {said : α → Assignment} {selected : Multiset Assignment}
    (h : ∀ a ∈ found, (next a : Multiset Environment).map Environment.assignment =
      joins {said a} selected) :
    (found.flatMap next : Multiset Environment).map Environment.assignment =
      joins ((found : Multiset α).map said) selected := by
  rw [← Multiset.coe_bind, Multiset.map_bind, joins_eq_bind, Multiset.bind_map]
  exact Multiset.bind_congr h

mutual

/-- The fits of a tree assign what has been assigned before, joined with what the tree selects. -/
theorem map_treeFits : (tree : PatternTree) → Nameless tree.negatedDescriptions → (env : Environment) →
    (n : Node) →
    (treeFits g accepts tree env n : Multiset Environment).map Environment.assignment =
      joins {env.assignment} (treeSelections g accepts tree n)
  | .node description clauses, h, env, n => by
    rw [PatternTree.negatedDescriptions] at h
    rw [treeFits, treeSelections, Description.isSatisfied]
    have hbinding : joins {env.assignment} {Environment.assignment (description.binding n)} =
        if description.allows env n then {(description.bind env n).assignment} else 0 := by
      rw [joins, Multiset.singleton_bind, Multiset.singleton_bind, join_binding]
    cases htests : description.testsPass g n with
    | false => simp [joins]
    | true =>
      rw [if_pos rfl, ← joins_assoc, hbinding]
      cases hallows : description.allows env n with
      | false => simp [joins]
      | true => exact map_clausesFits clauses h (description.bind env n) n

/-- The fits of clauses assign what has been assigned before, joined with what the clauses select. -/
theorem map_clausesFits : (clauses : List Clause) → Nameless (negatedInClauses clauses) →
    (env : Environment) → (n : Node) →
    (clausesFits g accepts clauses env n : Multiset Environment).map Environment.assignment =
      joins {env.assignment} (clausesSelections g accepts clauses n)
  | [], _, env, n => by
    rw [clausesFits, clausesSelections, joins_none]
    rfl
  | clause :: rest, h, env, n => by
    rw [negatedInClauses, nameless_append] at h
    rw [clausesFits, clausesSelections, ← joins_assoc, ← map_clauseFits clause h.1]
    exact map_flatMap_of_forall fun env _ => map_clausesFits rest h.2 env n

/-- The fits of a clause assign what has been assigned before, joined with what the clause selects. -/
theorem map_clauseFits : (clause : Clause) → Nameless clause.negatedDescriptions →
    (env : Environment) → (n : Node) →
    (clauseFits g accepts clause env n : Multiset Environment).map Environment.assignment =
      joins {env.assignment} (clauseSelections g accepts clause n)
  | .link l target, h, env, n => by
    rw [Clause.negatedDescriptions] at h
    rw [clauseFits, clauseSelections]
    by_cases hl : l.negated = true
    · rw [if_pos hl] at h
      rw [if_pos hl, if_pos hl]
      -- whether a target without names fits does not depend on the environment
      have htarget : ∀ m, (treeFits g accepts target env m).isEmpty =
          (treeFits g accepts target [] m).isEmpty := by
        intro m
        have hfree : treeFits g accepts target (env.extend []) m =
            (treeFits g accepts target [] m).map env.extend :=
          treeFits_extend_of_free target (h.free env) [] m
        rw [Environment.extend_nil] at hfree
        rw [hfree, List.isEmpty_map]
      simp only [htarget]
      split
      · simp [joins]
      · rw [joins_none]
        rfl
    · rw [if_neg hl] at h
      rw [if_neg hl, if_neg hl, ← Multiset.coe_bind, Multiset.map_bind, joins_comm, joins,
        Multiset.bind_assoc]
      refine Multiset.bind_congr fun m _ => ?_
      rw [map_treeFits target h env m, joins_comm]
      rfl
  | .group alternatives, h, env, n => by
    rw [Clause.negatedDescriptions] at h
    rw [clauseFits, clauseSelections]
    exact map_alternativesFits alternatives h env n

/-- The fits of alternatives assign what has been assigned before, joined with what one of them selects. -/
theorem map_alternativesFits : (alternatives : List (List Clause)) →
    Nameless (negatedInAlternatives alternatives) → (env : Environment) → (n : Node) →
    (alternativesFits g accepts alternatives env n : Multiset Environment).map Environment.assignment =
      joins {env.assignment} (alternativesSelections g accepts alternatives n)
  | [], _, env, n => by
    rw [alternativesFits, alternativesSelections]
    simp [joins]
  | clauses :: rest, h, env, n => by
    rw [negatedInAlternatives, nameless_append] at h
    rw [alternativesFits, alternativesSelections, ← Multiset.coe_add, Multiset.map_add,
      map_clausesFits clauses h.1 env n, map_alternativesFits rest h.2 env n]
    simp only [joins, Multiset.singleton_bind, Multiset.add_bind]

end

/-- The fits of trees assign what has been assigned before, joined with what the trees select. -/
theorem map_treesFits (trees : List PatternTree)
    (h : Nameless (trees.flatMap PatternTree.negatedDescriptions)) (env : Environment) (n : Node) :
    (treesFits g accepts trees env n : Multiset Environment).map Environment.assignment =
      joins {env.assignment} (treesSelections g accepts trees n) := by
  induction trees generalizing env with
  | nil =>
    rw [treesFits, treesSelections, joins_none]
    rfl
  | cons tree rest ih =>
    rw [List.flatMap_cons, nameless_append] at h
    rw [treesFits, treesSelections, ← joins_assoc, ← map_treeFits tree h.1]
    exact map_flatMap_of_forall fun env _ => ih h.2 env

end DependencyQuery
