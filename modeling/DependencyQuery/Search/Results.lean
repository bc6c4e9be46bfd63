/-!
# Results of a search

* `Results` — results in the order in which they are found, up to the end or to a failure that cuts
  the search short; what follows a result is only looked for when it is asked for;
* `append`, `flatMap` — searches one after the other, and a search for each result of another; what
  comes after a failure is never reached;
* `existsAny` — whether there is a result, found without a look at the rest;
* `ofList`, `toExcept` — to and from lists: a search that cannot fail finds what a list holds.
-/

namespace DependencyQuery

/-- Results up to the end of a search, or up to its failure. -/
inductive Results (ε α : Type) where
  | done
  | failed (e : ε)
  | next (a : α) (rest : Unit → Results ε α)

namespace Results

variable {ε α β : Type}

/-- A search that finds what a list holds. -/
def ofList : List α → Results ε α
  | [] => done
  | a :: rest => next a fun _ => ofList rest

/-- A search with a single result. -/
def single (a : α) : Results ε α := next a fun _ => done

/-- One search after another. -/
def append : Results ε α → (Unit → Results ε α) → Results ε α
  | done, more => more ()
  | failed e, _ => failed e
  | next a rest, more => next a fun _ => (rest ()).append more

/-- A search for each result of another. -/
def flatMap (f : α → Results ε β) : Results ε α → Results ε β
  | done => done
  | failed e => failed e
  | next a rest => (f a).append fun _ => (rest ()).flatMap f

/-- A search for each element of a list. -/
def flatMapList (f : α → Results ε β) : List α → Results ε β
  | [] => done
  | a :: rest => (f a).append fun _ => flatMapList f rest

/-- The results under a function. -/
def map (f : α → β) : Results ε α → Results ε β
  | done => done
  | failed e => failed e
  | next a rest => next (f a) fun _ => (rest ()).map f

/-- Whether a search has a result; a failure before the first one counts as failure. -/
def isInhabited : Results ε α → Except ε Bool
  | done => .ok false
  | failed e => .error e
  | next _ _ => .ok true

/-- Whether the search for some result of another has a result. -/
def existsAny (f : α → Results ε β) : Results ε α → Except ε Bool
  | done => .ok false
  | failed e => .error e
  | next a rest =>
    match (f a).isInhabited with
    | .ok true => .ok true
    | .ok false => (rest ()).existsAny f
    | .error e => .error e

/-- All results, or the failure. -/
def toExcept : Results ε α → Except ε (List α)
  | done => .ok []
  | failed e => .error e
  | next a rest =>
    match (rest ()).toExcept with
    | .ok list => .ok (a :: list)
    | .error e => .error e

/-- The first `count` results, or the failure that comes before there are so many. -/
def take : (count : Nat) → Results ε α → Except ε (List α)
  | 0, _ => .ok []
  | _ + 1, done => .ok []
  | _ + 1, failed e => .error e
  | count + 1, next a rest =>
    match (rest ()).take count with
    | .ok list => .ok (a :: list)
    | .error e => .error e

/-! ### Searches that find what a list holds -/

/-- A stream that comes from a list gives the list. -/
@[simp] theorem toExcept_ofList (xs : List α) : (ofList xs : Results ε α).toExcept = .ok xs := by
  induction xs with
  | nil => rfl
  | cons a rest ih => simp only [ofList, toExcept, ih]

/-- What a search finds tells the list. -/
theorem ofList_injective {xs ys : List α} (h : (ofList xs : Results ε α) = ofList ys) : xs = ys := by
  have hlists := congrArg toExcept h
  rw [toExcept_ofList, toExcept_ofList] at hlists
  exact Except.ok.inj hlists

/-- Streams that come from lists are appended like these. -/
@[simp] theorem append_ofList (xs ys : List α) :
    ((ofList xs).append fun _ => ofList ys : Results ε α) = ofList (xs ++ ys) := by
  induction xs with
  | nil => rfl
  | cons a rest ih => simp only [ofList, append, ih, List.cons_append]

/-- A search for each result of a list is a list, if each of them is. -/
theorem flatMap_ofList_of_forall {f : α → Results ε β} {list : α → List β} {xs : List α}
    (h : ∀ a ∈ xs, f a = ofList (list a)) : (ofList xs).flatMap f = ofList (xs.flatMap list) := by
  induction xs with
  | nil => rfl
  | cons a rest ih =>
    rw [List.forall_mem_cons] at h
    simp only [ofList, flatMap, h.1, ih h.2, append_ofList, List.flatMap_cons]

/-- If every element leads to a stream from a list, these are appended like lists. -/
theorem flatMapList_ofList_of_forall {f : α → Results ε β} {list : α → List β} {xs : List α}
    (h : ∀ a ∈ xs, f a = ofList (list a)) : flatMapList f xs = ofList (xs.flatMap list) := by
  induction xs with
  | nil => rfl
  | cons a rest ih =>
    rw [List.forall_mem_cons] at h
    simp only [flatMapList, h.1, ih h.2, append_ofList, List.flatMap_cons]

/-- A stream that comes from a list has a first element unless the list is empty. -/
theorem isInhabited_ofList (xs : List α) :
    (ofList xs : Results ε α).isInhabited = .ok !xs.isEmpty := by
  cases xs <;> rfl

/-- If every element leads to a stream from a list, one of these streams has an element just if one of the lists
does. -/
theorem existsAny_ofList_of_forall {f : α → Results ε β} {list : α → List β} {xs : List α}
    (h : ∀ a ∈ xs, f a = ofList (list a)) :
    (ofList xs).existsAny f = .ok (xs.any fun a => !(list a).isEmpty) := by
  induction xs with
  | nil => rfl
  | cons a rest ih =>
    rw [List.forall_mem_cons] at h
    simp only [ofList, existsAny, h.1, ih h.2, isInhabited_ofList, List.any_cons]
    cases (list a).isEmpty <;> rfl

/-- A stream that comes from a list is mapped like the list. -/
@[simp] theorem map_ofList (f : α → β) (xs : List α) :
    (ofList xs : Results ε α).map f = ofList (xs.map f) := by
  induction xs with
  | nil => rfl
  | cons a rest ih => simp only [ofList, map, ih, List.map_cons]

end Results

end DependencyQuery
