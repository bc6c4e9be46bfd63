import DependencyQuery.Proofs.Walk.Witnesses

namespace DependencyQuery

/-!
# Looking up is the converse of looking down

The edge that leads down from a governor is the one that leads up from its dependent.  A walk in one
direction, gone backwards, is therefore a walk of the same length in the other one.

* `Direction.converse` — the other direction, `Graph.mem_step_converse` — an edge is shown at both ends;
* `backwards` — a walk gone backwards; it ends where the walk begins, and is as long;
* `Graph.mem_witnessList_of_label_none`, `Graph.mem_witnessList_of_one` — what a link asks of a walk when
  it has no filter or covers a single edge; any other looks at the last edge alone, which is the first one
  of the walk back;
* `Graph.witnesses_converse` — a node is below another one just when that one is above it.
-/

/-- The other direction. -/
def Direction.converse : Direction → Direction
  | up => down
  | down => up

/-- The edges of a walk, from the last to the first, each with the node that it leads back to. -/
def backwards : (start : Node) → (walk : List Arrival) → List Arrival
  | _, [] => []
  | start, a :: rest => backwards a.2 rest ++ [(a.1, start)]

/-- A walk has as many edges backwards. -/
theorem length_backwards (start : Node) (walk : List Arrival) :
    (backwards start walk).length = walk.length := by
  induction walk generalizing start with
  | nil => rfl
  | cons a rest ih => simp [backwards, ih]

/-- Two walks in a row end where the second one does. -/
theorem walkEnd_append (start : Node) (walk more : List Arrival) :
    walkEnd start (walk ++ more) = walkEnd (walkEnd start walk) more := by
  induction walk generalizing start with
  | nil => rfl
  | cons a rest ih => exact ih a.2

/-- A walk that is gone backwards from its end leads to where it begins. -/
theorem walkEnd_backwards (start : Node) (walk : List Arrival) :
    walkEnd (walkEnd start walk) (backwards start walk) = start := by
  cases walk with
  | nil => rfl
  | cons a rest => rw [backwards, walkEnd_append]; rfl

/-- A walk ends at the node that its last edge leads to. -/
theorem walkEnd_of_getLast? {start : Node} {walk : List Arrival} {a : Arrival}
    (h : walk.getLast? = some a) : walkEnd start walk = a.2 := by
  obtain ⟨before, rfl⟩ := List.getLast?_eq_some_iff.1 h
  rw [walkEnd_append]
  rfl

namespace Graph

variable {g : Graph} {direction : Direction} {m n : Node}

/-- An edge is shown at both of its ends. -/
theorem mem_step_converse {label : Option String} :
    (label, n) ∈ g.step direction m ↔ (label, m) ∈ g.step direction.converse n := by
  cases direction with
  | up => exact mem_governors.trans mem_dependents.symm
  | down => exact mem_dependents.trans mem_governors.symm

/-- A walk backwards goes along the converse direction. -/
theorem isWalk_backwards {walk : List Arrival} (h : IsWalk (g.step direction) m walk) :
    IsWalk (g.step direction.converse) (walkEnd m walk) (backwards m walk) := by
  induction walk generalizing m with
  | nil => trivial
  | cons a rest ih =>
    obtain ⟨hfirst, hrest⟩ := h
    have hback : (a.1, m) ∈ g.step direction.converse a.2 := mem_step_converse.1 hfirst
    rw [backwards, isWalk_append, show walkEnd m (a :: rest) = walkEnd a.2 rest from rfl,
      walkEnd_backwards]
    exact ⟨ih hrest, hback, trivial⟩

/-- There is a walk between two nodes just when there is one of the same length back. -/
theorem exists_walk_converse {length : Nat} :
    (∃ walk, IsWalk (g.step direction) m walk ∧ walk.length = length ∧ walkEnd m walk = n) ↔
      ∃ walk, IsWalk (g.step direction.converse) n walk ∧ walk.length = length ∧
        walkEnd n walk = m := by
  constructor
  · rintro ⟨walk, hwalk, rfl, rfl⟩
    exact ⟨backwards m walk, isWalk_backwards hwalk, length_backwards m walk, walkEnd_backwards m walk⟩
  · rintro ⟨walk, hwalk, rfl, rfl⟩
    have hback := isWalk_backwards hwalk
    rw [show direction.converse.converse = direction by cases direction <;> rfl] at hback
    exact ⟨backwards n walk, hback, length_backwards n walk, walkEnd_backwards n walk⟩

/-! ### What a link asks of a walk -/

section

variable [Text.CharacterNames] {accepts : LabelFilter → Option String → Bool} {l : Link}

/-- Without a filter, only the length of a walk and its end matter. -/
theorem mem_witnessList_of_label_none (h : l.label = none) :
    n ∈ g.witnessList accepts l m ↔ ∃ depth, l.range.contains depth = true ∧
      ∃ walk, IsWalk (g.step l.direction) m walk ∧ walk.length = depth ∧ walkEnd m walk = n := by
  rw [mem_witnessList]
  constructor
  · rintro ⟨walk, label, hwalk, hrange, hlast, _⟩
    exact ⟨walk.length, hrange, walk, hwalk, rfl, walkEnd_of_getLast? hlast⟩
  · rintro ⟨_, hrange, walk, hwalk, rfl, rfl⟩
    have hpos : 0 < walk.length := by
      simp only [DepthRange.contains, Bool.and_eq_true, decide_eq_true_eq] at hrange
      omega
    obtain ⟨a, hlast⟩ : ∃ a, walk.getLast? = some a :=
      ⟨_, List.getLast?_eq_some_getLast (List.ne_nil_of_length_pos hpos)⟩
    refine ⟨walk, a.1, hwalk, hrange, ?_, by simp [Link.admits, h]⟩
    rw [hlast, walkEnd_of_getLast? hlast]

/-- Over a single edge, the last edge of a walk is its only one. -/
theorem mem_witnessList_of_one (h : ∀ depth, l.range.contains depth = true → depth = 1) :
    n ∈ g.witnessList accepts l m ↔ l.range.contains 1 = true ∧
      ∃ label, (label, n) ∈ g.step l.direction m ∧ l.admits accepts label = true := by
  rw [mem_witnessList]
  constructor
  · rintro ⟨walk, label, hwalk, hrange, hlast, hadmits⟩
    have hlength := h walk.length hrange
    obtain ⟨a, rfl⟩ := List.length_eq_one_iff.1 hlength
    obtain rfl : a = (label, n) := by simpa using hlast
    exact ⟨hrange, label, hwalk.1, hadmits⟩
  · rintro ⟨hrange, label, hedge, hadmits⟩
    exact ⟨[(label, n)], label, ⟨hedge, trivial⟩, hrange, rfl, hadmits⟩

/-! ### Predicates that decide -/

/-- A link asks a predicate about its own filter only. -/
theorem exists_accepts_eq_total {predicate : LabelPredicate} {filter : Option LabelFilter}
    (h : ∀ f ∈ filter, ∀ label, ∃ b, predicate f label = .ok b) :
    ∃ accepts, ∀ l : Link, l.label = filter → l.accepts predicate = l.accepts (.total accepts) := by
  refine ⟨fun f label => (predicate f label).toOption.getD false, ?_⟩
  rintro l rfl
  funext label
  unfold Link.accepts LabelPredicate.total
  cases hl : l.label with
  | none => rfl
  | some f =>
    obtain ⟨b, hb⟩ := h f (by rw [hl]; rfl) label
    simp only [hb]
    rfl

/-- **Looking up is the converse of looking down.**  Take a link downwards and a link upwards with the same
range and the same filter, about which the predicate can decide, and let there be no filter or no range
beyond a single edge.  Then both links have witnesses that can be listed, and one node is a witness of the
other downwards just when the other is a witness of it upwards. -/
theorem witnesses_converse {predicate : LabelPredicate} {below above : Link}
    (hm : m ∈ g) (hn : n ∈ g) (hbelow : below.direction = .down) (habove : above.direction = .up)
    (hrange : below.range = above.range) (hlabel : below.label = above.label)
    (hdecides : ∀ f ∈ below.label, ∀ label, ∃ b, predicate f label = .ok b)
    (hkind : below.label = none ∨ ∀ depth, below.range.contains depth = true → depth = 1) :
    ∃ dependents governors : List Node,
      g.witnesses predicate below m = .ofList dependents ∧
        g.witnesses predicate above n = .ofList governors ∧ (n ∈ dependents ↔ m ∈ governors) := by
  obtain ⟨accepts, haccepts⟩ := exists_accepts_eq_total hdecides
  refine ⟨g.witnessList accepts below m, g.witnessList accepts above n, ?_, ?_, ?_⟩
  · rw [← witnesses_total accepts below hm, witnesses_eq, witnesses_eq, haccepts below rfl]
  · rw [← witnesses_total accepts above hn, witnesses_eq, witnesses_eq, haccepts above hlabel.symm]
  · rcases hkind with hnone | hone
    · rw [mem_witnessList_of_label_none hnone, mem_witnessList_of_label_none (hlabel ▸ hnone), hrange,
        hbelow, habove]
      -- a walk of any length can be gone back
      have hwalk : ∀ length,
          (∃ walk, IsWalk (g.step .down) m walk ∧ walk.length = length ∧ walkEnd m walk = n) ↔
            ∃ walk, IsWalk (g.step .up) n walk ∧ walk.length = length ∧ walkEnd n walk = m :=
        fun _ => exists_walk_converse
      simp only [hwalk]
    · -- over one edge the label is that of the edge itself, either way
      have hadmits : below.admits accepts = above.admits accepts := by
        funext label
        rw [Link.admits, Link.admits, hlabel]
      rw [mem_witnessList_of_one hone, mem_witnessList_of_one (hrange ▸ hone), hrange, hbelow, habove,
        hadmits]
      have hstep : ∀ label, (label, n) ∈ g.step .down m ↔ (label, m) ∈ g.step .up n :=
        fun _ => mem_step_converse
      simp only [hstep]

end

/-- Two edges from one node to the next, a loop there, and an edge from there to a third node. -/
def loopedChain : Graph :=
  ((((empty "word" true).addEdge (.index 1) (.index 2) (some "a")).addEdge (.index 1) (.index 2)
    (some "b")).addEdge (.index 2) (.index 2) (some "c")).addEdge (.index 2) (.index 3) (some "a")

/-- The third node is four or more edges below the first, around the loop, even for a predicate that can
decide about nothing; and the second is right below it by an edge `b`. -/
theorem witnesses_converse_loopedChain :
    Node.index 1 ∈ loopedChain ∧ Node.index 2 ∈ loopedChain ∧ Node.index 3 ∈ loopedChain ∧
      (∃ dependents governors : List Node,
        loopedChain.witnesses (fun _ _ => .error .incomparableLabel)
            ⟨.down, .far (some ⟨4, none⟩), none, false⟩ (.index 1) = .ofList dependents ∧
          loopedChain.witnesses (fun _ _ => .error .incomparableLabel)
            ⟨.up, .far (some ⟨4, none⟩), none, false⟩ (.index 3) = .ofList governors ∧
          (.index 3 ∈ dependents ↔ .index 1 ∈ governors)) ∧
      ∃ dependents governors : List Node,
        loopedChain.witnesses (.total fun _ label => label = some "b")
            ⟨.down, .far (some ⟨0, some 1⟩), some (.name "b"), false⟩ (.index 1) = .ofList dependents ∧
          loopedChain.witnesses (.total fun _ label => label = some "b")
            ⟨.up, .far (some ⟨0, some 1⟩), some (.name "b"), true⟩ (.index 2) = .ofList governors ∧
          (.index 2 ∈ dependents ↔ .index 1 ∈ governors) := by
  have h1 : Node.index 1 ∈ loopedChain := by decide
  have h2 : Node.index 2 ∈ loopedChain := by decide
  have h3 : Node.index 3 ∈ loopedChain := by decide
  refine ⟨h1, h2, h3, ?_, ?_⟩
  · exact witnesses_converse h1 h3 rfl rfl rfl rfl (by simp) (.inl rfl)
  · have hone : ∀ depth, (DepthRange.mk 0 (some 1)).contains depth = true → depth = 1 := by
      intro depth h
      simp only [DepthRange.contains, DepthRange.atMost, Bool.and_eq_true, decide_eq_true_eq] at h
      omega
    exact witnesses_converse h1 h2 rfl rfl rfl rfl (fun _ _ _ => ⟨_, rfl⟩) (.inr hone)

end Graph

end DependencyQuery
