import DependencyQuery.Search.Basic

namespace DependencyQuery

/-!
# Cursors

A cursor stands in the results of a search: before the first, at one of them, or past the last.

* `Cursor` — the results, those still ahead, the current one and how many have been passed;
* `find`, `findRoot` — moving on to the next result, or to the next with another root;
* `findMany` — moving on through several results;
* `current?`, `root?`, `node?`, `names?` — what the cursor stands at; `hasMatch` — whether there are
  results at all, wherever it stands.
-/

/-- A position in the results of a search. -/
structure Cursor where
  results : Results SearchFault Finding
  /-- The results that are still ahead; they are not looked for before the cursor moves on. -/
  ahead : Unit → Results SearchFault Finding
  current : Option Finding
  /-- The number of results that the cursor has moved to. -/
  count : Nat

namespace Cursor

/-- A cursor before the first result. -/
def start (results : Results SearchFault Finding) : Cursor := ⟨results, fun _ => results, none, 0⟩

/-- The cursor back before the first result. -/
def reset (c : Cursor) : Cursor := start c.results

/-- Past the last result there is no current one. -/
def pastEnd (c : Cursor) : Cursor := { c with ahead := fun _ => .done, current := none }

/-- After a failure nothing is ahead; the cursor stays where it is. -/
def cutShort (c : Cursor) : Cursor := { c with ahead := fun _ => .done }

/-- Moves on to the next result and says whether there is one. -/
def find (c : Cursor) : Except SearchFault Bool × Cursor :=
  match c.ahead () with
  | .done => (.ok false, c.pastEnd)
  | .failed e => (.error e, c.cutShort)
  | .next finding rest =>
    (.ok true, { c with ahead := rest, current := some finding, count := c.count + 1 })

/-- Moves on past the results with a given root, of which the cursor has reached the last. -/
def skipRoot (c : Cursor) (root : Node) :
    Results SearchFault Finding → (count : Nat) → (last : Option Finding) →
      Except SearchFault Bool × Cursor
  | .done, count, _ => (.ok false, { c with ahead := fun _ => .done, current := none, count := count })
  | .failed e, count, last => (.error e, { c with ahead := fun _ => .done, current := last, count := count })
  | .next finding rest, count, _ =>
    if finding.root = root then skipRoot c root (rest ()) (count + 1) (some finding)
    else (.ok true, { c with ahead := rest, current := some finding, count := count + 1 })

/-- Moves on to the next result whose root differs from the current one. -/
def findRoot (c : Cursor) : Except SearchFault Bool × Cursor :=
  match c.current with
  | none => c.find
  | some finding => c.skipRoot finding.root (c.ahead ()) c.count c.current

/-- Moves on through at most `limit` results. -/
def findMany : (limit : Nat) → Cursor → Except SearchFault (List Finding) × Cursor
  | 0, c => (.ok [], c)
  | limit + 1, c =>
    match c.find with
    | (.ok true, next) =>
      let (more, last) := findMany limit next
      (more.map (next.current.toList ++ ·), last)
    | (.ok false, next) => (.ok [], next)
    | (.error e, next) => (.error e, next)

/-- Whether the search has results, and where the cursor stands does not matter. -/
def hasMatch (c : Cursor) : Except SearchFault Bool := c.results.isInhabited

/-- What a question about the current result can fail on. -/
inductive Fault where
  | noMatch
  | unbound (name : String)
deriving DecidableEq, Repr

/-- The wording of a failure. -/
def Fault.message : Fault → String
  | noMatch => "No current match; call find() first"
  | unbound name => name

/-- The current result. -/
def current? (c : Cursor) : Except Fault Finding :=
  match c.current with
  | some finding => .ok finding
  | none => .error .noMatch

/-- The root of the current result. -/
def root? (c : Cursor) : Except Fault Node := do
  return (← c.current?).root

/-- The names that are bound in the current result. -/
def names? (c : Cursor) : Except Fault (List String) := do
  return (← c.current?).bindings.map Prod.fst

/-- The node that a name is bound to in the current result. -/
def node? (c : Cursor) (name : String) : Except Fault Node := do
  match (← c.current?).bindings.get? name with
  | some n => return n
  | none => .error (.unbound name)

end Cursor

end DependencyQuery
