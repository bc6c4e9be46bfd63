import DependencyQuery.Graph.Lookup
import DependencyQuery.Pattern.Basic

namespace DependencyQuery

/-!
# Names and the nodes they are bound to

* `Environment` — names with their nodes, in the order in which they were bound;
* `Description.allows` — whether a node may stand where a description is, as far as its name goes;
* `Description.bind` — the environment in which the description's name stands for a node;
* `Description.testsPass` — whether a node passes the tests, `Description.isSatisfied` — whether it
  may stand there and passes;
* `Description.isSatisfied?` — the same for nodes that the graph may not have, which cannot be tested:
  `isSatisfied?_of_mem` and `isSatisfied?_eq_error_iff` say what becomes of it.
-/

/-- Names and their nodes, each name once. -/
abbrev Environment := List (String × Node)

namespace Environment

/-- The node that a name is bound to. -/
def get? (env : Environment) (name : String) : Option Node := env.lookup name

/-- The environment with a name bound to a node; a name that is bound already keeps its place. -/
def set (env : Environment) (name : String) (n : Node) : Environment :=
  if (env.get? name).isSome then
    env.map fun binding => if binding.1 = name then (name, n) else binding
  else env ++ [(name, n)]

/-- What is bound first decides. -/
theorem get?_cons (env : Environment) (key name : String) (n : Node) :
    get? ((key, n) :: env) name = if name = key then some n else get? env name := by
  rw [get?, List.lookup_cons]
  by_cases h : name = key
  · rw [if_pos h, beq_iff_eq.2 h]
  · rw [if_neg h, beq_eq_false_iff_ne.2 h]
    rfl

/-- What stands behind decides only about names that do not stand before. -/
theorem get?_append (env more : Environment) (name : String) :
    get? (env ++ more) name = (get? env name).or (get? more name) := by
  induction env with
  | nil => rfl
  | cons b rest ih =>
    obtain ⟨key, n⟩ := b
    rw [List.cons_append, get?_cons, get?_cons, ih]
    split <;> rfl

/-- Replacing the node of a name leaves all other names alone. -/
theorem get?_map_put (env : Environment) (name other : String) (n : Node) :
    get? (env.map fun b => if b.1 = name then (name, n) else b) other =
      if other = name then (get? env name).map fun _ => n else get? env other := by
  induction env with
  | nil => simp [get?]
  | cons b rest ih =>
    obtain ⟨key, m⟩ := b
    rw [List.map_cons]
    -- the first binding is the one that is put, or one before it
    by_cases hk : key = name
    · subst hk
      simp only [↓reduceIte, get?_cons, ih]
      split <;> rfl
    · have hk' : ¬ name = key := fun h => hk h.symm
      simp only [hk, hk', ↓reduceIte, get?_cons, ih]
      by_cases ho : other = name
      · subst ho
        simp [hk']
      · simp [ho]

/-- A name that has been set stands for its node, and all others for what they stood for. -/
theorem get?_set (env : Environment) (name other : String) (n : Node) :
    (env.set name n).get? other = if other = name then some n else env.get? other := by
  unfold set
  split
  · next h =>
    rw [get?_map_put]
    obtain ⟨m, hm⟩ := Option.isSome_iff_exists.1 h
    rw [hm, Option.map_some]
  · next h =>
    have h : env.get? name = none := by simpa using h
    rw [get?_append, get?_cons]
    -- a new name is bound after the others
    by_cases ho : other = name
    · subst ho
      simp [h]
    · simp [ho, get?]

end Environment

variable [Text.CharacterNames]

/-- Whether a node passes the test; a missing attribute does not. -/
def AttributeTest.passes (t : AttributeTest) (g : Graph) (n : Node) : Bool :=
  (g.attribute? n t.key.key).any t.value.accepts

namespace Description

/-- Whether a node passes the tests, turned around if the description is negated. -/
def testsPass (d : Description) (g : Graph) (n : Node) : Bool :=
  d.tests.all (·.passes g n) != d.negated

/-- Whether the tests can be put to the node: without tests any node will do. -/
def testsPass? (d : Description) (g : Graph) (n : Node) : Except UnknownNode Bool :=
  if d.tests.isEmpty ∨ n ∈ g then .ok (d.testsPass g n) else .error ⟨n⟩

/-- Whether the description's name, if it is bound, stands for the node. -/
def allows (d : Description) (env : Environment) (n : Node) : Bool :=
  match d.name.bind env.get? with
  | some bound => bound = n
  | none => true

/-- Whether a node may stand where the description is, and passes its tests. -/
def isSatisfied (d : Description) (g : Graph) (env : Environment) (n : Node) : Bool :=
  d.allows env n && d.testsPass g n

/-- The same for any node; the tests are put to it only if it may stand there. -/
def isSatisfied? (d : Description) (g : Graph) (env : Environment) (n : Node) :
    Except UnknownNode Bool :=
  if d.allows env n then d.testsPass? g n else .ok false

/-- For the nodes of the graph, the two ways to put the tests agree. -/
theorem testsPass?_of_mem {d : Description} {g : Graph} {n : Node} (hn : n ∈ g) :
    d.testsPass? g n = .ok (d.testsPass g n) := if_pos (.inr hn)

/-- For the nodes of the graph, the two ways to ask agree: a search, which only comes to such nodes, never fails on
a test. -/
theorem isSatisfied?_of_mem {d : Description} {g : Graph} {env : Environment} {n : Node} (hn : n ∈ g) :
    d.isSatisfied? g env n = .ok (d.isSatisfied g env n) := by
  rw [isSatisfied?, isSatisfied, testsPass?_of_mem hn]
  cases d.allows env n <;> rfl

/-- The tests fail on a node just where it may stand there, there are tests, and the graph does not have it. -/
theorem isSatisfied?_eq_error_iff {d : Description} {g : Graph} {env : Environment} {n m : Node} :
    d.isSatisfied? g env n = .error ⟨m⟩ ↔ m = n ∧ d.allows env n = true ∧ d.tests ≠ [] ∧ n ∉ g := by
  rw [isSatisfied?, testsPass?]
  by_cases hallows : d.allows env n = true
  · rw [if_pos hallows]
    by_cases hpossible : d.tests.isEmpty ∨ n ∈ g
    · rw [if_pos hpossible]
      refine iff_of_false (fun h => by cases h) fun ⟨_, _, htests, hn⟩ => ?_
      exact hpossible.elim (fun hempty => htests (List.isEmpty_iff.1 hempty)) hn
    · rw [if_neg hpossible, Except.error.injEq, UnknownNode.mk.injEq, eq_comm]
      rw [not_or, List.isEmpty_iff] at hpossible
      exact ⟨fun h => ⟨h, hallows, hpossible⟩, And.left⟩
  · rw [if_neg hallows]
    exact iff_of_false (fun h => by cases h) fun h => hallows h.2.1

/-- Whether binding the node changes nothing. -/
def isBound (d : Description) (env : Environment) (n : Node) : Bool :=
  match d.name with
  | none => true
  | some name => env.get? name = some n

/-- The environment with the description's name bound to the node. -/
def bind (d : Description) (env : Environment) (n : Node) : Environment :=
  match d.name with
  | none => env
  | some name => if env.get? name = some n then env else env.set name n

end Description

end DependencyQuery
