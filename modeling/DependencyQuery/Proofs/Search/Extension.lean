import DependencyQuery.Search.Environment

namespace DependencyQuery

/-!
# Extending an environment

* `Environment.extend` — an environment with further bindings, among which a name that is bound
  already keeps its node;
* `Environment.Agree` — whether further bindings give each name one node, the one that the
  environment gives it if it does;
* `Environment.agree_append` — bindings agree with an environment just when the first of them do, and
  the others agree with the environment that the first extend;
* `Description.binding` — what a description binds at a node; `Description.allows_iff_agree` and
  `Description.bind_eq_extend` — a description may stand at a node just when what it binds there
  agrees, and then binding extends the environment.
-/

namespace Environment

/-- The environment with a further binding; a name that is bound already keeps its node. -/
def add (env : Environment) (name : String) (n : Node) : Environment :=
  if (env.get? name).isSome then env else env ++ [(name, n)]

/-- The environment with further bindings, one after the other. -/
def extend (env : Environment) (bindings : List (String × Node)) : Environment :=
  bindings.foldl (fun env b => env.add b.1 b.2) env

/-- No bindings extend nothing. -/
@[simp] theorem extend_nil (env : Environment) : env.extend [] = env := rfl

/-- A single binding is added. -/
@[simp] theorem extend_singleton (env : Environment) (name : String) (n : Node) :
    env.extend [(name, n)] = env.add name n := rfl

/-- Bindings are added one after another. -/
theorem extend_append (env : Environment) (first more : List (String × Node)) :
    env.extend (first ++ more) = (env.extend first).extend more := List.foldl_append

/-- A binding that is added tells of its name only where nothing did before. -/
theorem get?_add (env : Environment) (name other : String) (n : Node) :
    (env.add name n).get? other = (env.get? other).or (if other = name then some n else none) := by
  unfold add
  split
  · next h =>
    by_cases ho : other = name
    · subst ho
      obtain ⟨m, hm⟩ := Option.isSome_iff_exists.1 h
      rw [hm, Option.some_or]
    · rw [if_neg ho, Option.or_none]
  · rw [get?_append, get?_cons]; rfl

/-- A name stands for what it stood for before, else for the first node that it is bound to. -/
theorem get?_extend (env : Environment) (bindings : List (String × Node)) (name : String) :
    (env.extend bindings).get? name = (env.get? name).or (get? bindings name) := by
  induction bindings generalizing env with
  | nil => simp [get?]
  | cons b rest ih =>
    obtain ⟨key, n⟩ := b
    rw [show env.extend ((key, n) :: rest) = (env.add key n).extend rest from rfl, ih, get?_add,
      get?_cons, Option.or_assoc]
    split <;> simp

/-- Extending an environment keeps what it holds. -/
theorem exists_extend_eq_append (env : Environment) (bindings : List (String × Node)) :
    ∃ more, env.extend bindings = env ++ more := by
  induction bindings generalizing env with
  | nil => exact ⟨[], by simp⟩
  | cons b rest ih =>
    obtain ⟨more, hmore⟩ := ih (env.add b.1 b.2)
    rw [show env.extend (b :: rest) = (env.add b.1 b.2).extend rest from rfl, hmore, add]
    split
    · exact ⟨more, rfl⟩
    · exact ⟨(b.1, b.2) :: more, by rw [List.append_assoc]; rfl⟩

/-- What a name is bound to is among the bindings. -/
theorem mem_of_get?_eq_some {env : Environment} {name : String} {n : Node}
    (h : env.get? name = some n) : (name, n) ∈ env := by
  induction env with
  | nil => simp [get?] at h
  | cons b rest ih =>
    obtain ⟨key, m⟩ := b
    rw [get?_cons] at h
    split at h
    · next hk =>
      obtain rfl : m = n := by simpa using h
      subst hk
      exact List.mem_cons_self
    · exact List.mem_cons_of_mem _ (ih h)

/-- A name among the bindings is bound to something. -/
theorem exists_get?_of_mem {env : Environment} {name : String} {n : Node} (h : (name, n) ∈ env) :
    ∃ m, env.get? name = some m := by
  induction env with
  | nil => simp at h
  | cons b rest ih =>
    obtain ⟨key, k⟩ := b
    rw [get?_cons]
    split
    · exact ⟨k, rfl⟩
    · next hk =>
      rcases List.mem_cons.1 h with h | h
      · exact absurd (congrArg Prod.fst h) hk
      · exact ih h

/-- Further bindings give each name one node, and the one that the environment gives it. -/
structure Agree (env : Environment) (bindings : List (String × Node)) : Prop where
  alike : ∀ name m n, (name, m) ∈ bindings → (name, n) ∈ bindings → m = n
  bound : ∀ name m n, (name, m) ∈ bindings → env.get? name = some n → m = n

/-- No bindings agree with any environment. -/
theorem agree_nil (env : Environment) : env.Agree [] := ⟨by simp, by simp⟩

/-- A single binding agrees if its name is not bound to another node. -/
theorem agree_singleton {env : Environment} {name : String} {n : Node} :
    env.Agree [(name, n)] ↔ ∀ m, env.get? name = some m → m = n := by
  constructor
  · intro h m hm
    exact (h.bound name n m (by simp) hm).symm
  · intro h
    refine ⟨?_, ?_⟩
    · simp only [List.mem_singleton, Prod.mk.injEq]
      rintro _ _ _ ⟨_, rfl⟩ ⟨_, rfl⟩
      rfl
    · simp only [List.mem_singleton, Prod.mk.injEq]
      rintro _ _ k ⟨rfl, rfl⟩ hk
      exact (h k hk).symm

/-- Bindings may be taken one after the other, each with those before it. -/
theorem agree_append {env : Environment} {first more : List (String × Node)} :
    env.Agree (first ++ more) ↔ env.Agree first ∧ (env.extend first).Agree more := by
  constructor
  · intro h
    refine ⟨⟨fun name m n hm hn => ?_, fun name m n hm => ?_⟩,
      ⟨fun name m n hm hn => ?_, fun name m n hm hn => ?_⟩⟩
    · exact h.alike name m n (List.mem_append_left _ hm) (List.mem_append_left _ hn)
    · exact h.bound name m n (List.mem_append_left _ hm)
    · exact h.alike name m n (List.mem_append_right _ hm) (List.mem_append_right _ hn)
    · rw [get?_extend, Option.or_eq_some_iff] at hn
      rcases hn with hn | ⟨_, hn⟩
      · exact h.bound name m n (List.mem_append_right _ hm) hn
      · exact h.alike name m n (List.mem_append_right _ hm)
          (List.mem_append_left _ (mem_of_get?_eq_some hn))
  · rintro ⟨hfirst, hmore⟩
    -- a name of the first bindings is bound to its node by the time the others are added
    have across : ∀ name m n, (name, m) ∈ first → (name, n) ∈ more → m = n := by
      intro name m n hm hn
      cases hb : env.get? name with
      | some k =>
        have hk : (env.extend first).get? name = some k := by rw [get?_extend, hb, Option.some_or]
        rw [hfirst.bound name m k hm hb, hmore.bound name n k hn hk]
      | none =>
        obtain ⟨k, hk⟩ := exists_get?_of_mem hm
        have hk' : (env.extend first).get? name = some k := by
          rw [get?_extend, hb, Option.none_or, hk]
        rw [hfirst.alike name m k hm (mem_of_get?_eq_some hk), hmore.bound name n k hn hk']
    refine ⟨fun name m n hm hn => ?_, fun name m n hm hn => ?_⟩
    · rcases List.mem_append.1 hm with hm | hm <;> rcases List.mem_append.1 hn with hn | hn
      · exact hfirst.alike name m n hm hn
      · exact across name m n hm hn
      · exact (across name n m hn hm).symm
      · exact hmore.alike name m n hm hn
    · rcases List.mem_append.1 hm with hm | hm
      · exact hfirst.bound name m n hm hn
      · exact hmore.bound name m n hm (by rw [get?_extend, hn, Option.some_or])

end Environment

namespace Description

variable [Text.CharacterNames]

/-- What a description binds at a node. -/
def binding (d : Description) (n : Node) : List (String × Node) :=
  match d.name with
  | some name => [(name, n)]
  | none => []

/-- A description allows a node if binding it agrees with the environment. -/
theorem allows_iff_agree {d : Description} {env : Environment} {n : Node} :
    d.allows env n = true ↔ env.Agree (d.binding n) := by
  unfold allows binding
  cases d.name with
  | none => simpa using env.agree_nil
  | some name =>
    rw [Option.bind_some, Environment.agree_singleton]
    cases env.get? name <;> simp

/-- Where a description may stand, binding its name extends the environment. -/
theorem bind_eq_extend {d : Description} {env : Environment} {n : Node}
    (h : d.allows env n = true) : d.bind env n = env.extend (d.binding n) := by
  rw [allows_iff_agree] at h
  unfold bind
  unfold binding at h ⊢
  cases hd : d.name with
  | none => rfl
  | some name =>
    simp only [hd, Environment.agree_singleton] at h
    simp only [Environment.extend_singleton, Environment.add]
    cases hm : env.get? name with
    | some m => simp [h m hm]
    | none => simp [Environment.set, hm]

end Description

end DependencyQuery
