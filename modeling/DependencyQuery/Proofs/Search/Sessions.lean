import DependencyQuery.Proofs.Search.Lists
import DependencyQuery.Search.Cursor
import Mathlib.Data.List.DropRight

namespace DependencyQuery

/-!
# Sessions with cursors

Any number of cursors may share a search, and their methods may be called in any order.  What a cursor
does can be told from the list of the results and from how many of them it has passed.

* `Cursor.Call`, `Cursor.call` — the methods of a cursor; `Cursor.after` — a cursor after several calls;
* `Cursor.session` — several cursors after calls of each in any order, `callsOf` — the calls of one of
  them, `sinceReset` — those after the last reset;
* `Standing` — after how many results a cursor stands, or that it has run past the last one;
  `Standing.next` — where a call leads from there, `Standing.answer` — what it is answered;
* `Cursor.StandsAt` — a cursor stands there; `StandsAt.find`, `StandsAt.findRoot`, `StandsAt.findMany` are
  the steps of the moving calls, `StandsAt.call` and `StandsAt.after` those of any calls;
* `Cursor.Idle` — no question about a current result has an answer;
* `Cursor.session_of_search` — so each cursor of a session is where its own calls since its last reset have
  led, and answers accordingly.
-/

namespace Cursor

/-! ### Calls -/

/-- A call of one of a cursor's methods.  A loop whose rounds make calls of their own is an `iterate 1` for
each round. -/
inductive Call where
  | find
  | findRoot
  /-- A loop that is left after so many results, if it has not come to its end before. -/
  | iterate (limit : Nat)
  | hasMatch
  | current
  | root
  | node (name : String)
  | names
  | reset
deriving DecidableEq, Repr

/-- Whether a call only asks. -/
def Call.asks : Call → Bool
  | hasMatch | current | root | node _ | names => true
  | find | findRoot | iterate _ | reset => false

/-- What a call answers. -/
inductive Answer where
  | whether (answer : Except SearchFault Bool)
  | results (answer : Except SearchFault (List Finding))
  | result (answer : Except Fault Finding)
  | node (answer : Except Fault Node)
  | names (answer : Except Fault (List String))
  | nothing

/-- The answer to a call, and the cursor after it. -/
def call (c : Cursor) : Call → Answer × Cursor
  | .find => (.whether c.find.1, c.find.2)
  | .findRoot => (.whether c.findRoot.1, c.findRoot.2)
  | .iterate limit => (.results (findMany limit c).1, (findMany limit c).2)
  | .hasMatch => (.whether c.hasMatch, c)
  | .current => (.result c.current?, c)
  | .root => (.node c.root?, c)
  | .node name => (.node (c.node? name), c)
  | .names => (.names c.names?, c)
  | .reset => (.nothing, c.reset)

/-- The cursor after several calls. -/
def after (c : Cursor) (calls : List Call) : Cursor := calls.foldl (fun c call => (c.call call).2) c

/-- A last call is made after the others. -/
theorem after_concat (c : Cursor) (calls : List Call) (last : Call) :
    c.after (calls ++ [last]) = ((c.after calls).call last).2 := by
  rw [after, List.foldl_append]
  rfl

/-- A question leaves the cursor as it is. -/
theorem call_of_asks (c : Cursor) {call : Call} (h : call.asks = true) : (c.call call).2 = c := by
  cases call with
  | hasMatch | current | root | node _ | names => rfl
  | find | findRoot | iterate _ | reset => cases h

/-- The calls after the last reset. -/
def sinceReset (calls : List Call) : List Call := calls.rtakeWhile (· ≠ .reset)

/-! ### Several cursors -/

section Session

variable {ι : Type} [DecidableEq ι]

/-- Several cursors after calls in any order, each with the cursor that it is for. -/
def session (cursors : ι → Cursor) (steps : List (ι × Call)) : ι → Cursor :=
  steps.foldl (fun cursors step =>
    Function.update cursors step.1 ((cursors step.1).call step.2).2) cursors

/-- The calls that are for one cursor. -/
def callsOf (i : ι) (steps : List (ι × Call)) : List Call :=
  (steps.filter fun step => step.1 = i).map Prod.snd

/-- The cursors of a session do not disturb each other. -/
theorem session_apply (cursors : ι → Cursor) (steps : List (ι × Call)) (i : ι) :
    session cursors steps i = (cursors i).after (callsOf i steps) := by
  induction steps generalizing cursors with
  | nil => rfl
  | cons step rest ih =>
    rw [session, List.foldl_cons]
    refine (ih _).trans ?_
    by_cases hi : step.1 = i
    · have hcalls : callsOf i (step :: rest) = step.2 :: callsOf i rest := by
        simp [callsOf, hi]
      rw [hcalls, ← hi, Function.update_self]
      rfl
    · have hcalls : callsOf i (step :: rest) = callsOf i rest := by
        simp [callsOf, hi]
      rw [hcalls, Function.update_of_ne (Ne.symm hi)]

/-- A question leaves all cursors of a session as they are. -/
theorem session_concat_of_asks (cursors : ι → Cursor) (steps : List (ι × Call)) (i : ι) {call : Call}
    (h : call.asks = true) : session cursors (steps ++ [(i, call)]) = session cursors steps := by
  rw [session, List.foldl_append]
  show Function.update (session cursors steps) i ((session cursors steps i).call call).2 = _
  rw [call_of_asks _ h, Function.update_eq_self]

end Session

end Cursor

/-! ### Standings -/

/-- Where a cursor stands in a list of results. -/
inductive Standing where
  /-- It has passed so many results, and may move on. -/
  | passed (count : Nat)
  /-- It has tried to move on when nothing was ahead. -/
  | past
deriving DecidableEq, Repr

namespace Standing

/-- Whether the cursor has not run past the last result. -/
def within : Standing → Bool
  | passed _ => true
  | past => false

variable (results : List Finding)

/-- The number of results that have been passed. -/
def count : Standing → Nat
  | passed count => count
  | past => results.length

/-- The results that are ahead. -/
def ahead : Standing → List Finding
  | passed count => results.drop count
  | past => []

/-- The current result, which is the last one that has been passed. -/
def current : Standing → Option Finding
  | passed 0 => none
  | passed (before + 1) => results[before]?
  | past => none

/-- Where a call leads. -/
def next : Standing → Cursor.Call → Standing
  | _, .reset => passed 0
  | past, _ => past
  | passed count, .find => if count < results.length then passed (count + 1) else past
  | passed count, .findRoot =>
    -- the first result ahead with another root than the current one
    match (results.drop count).findIdx? fun f =>
        ((passed count).current results).all fun previous => f.root ≠ previous.root with
    | some skipped => passed (count + skipped + 1)
    | none => past
  | passed count, .iterate limit =>
    if count + limit ≤ results.length then passed (count + limit) else past
  | standing, .hasMatch | standing, .current | standing, .root | standing, .node _
  | standing, .names => standing

/-- The answer to a question about the current result. -/
def ask {α : Type} (standing : Standing) (question : Finding → Except Cursor.Fault α) :
    Except Cursor.Fault α :=
  match standing.current results with
  | some f => question f
  | none => .error .noMatch

/-- The answer to a call. -/
def answer (standing : Standing) : Cursor.Call → Cursor.Answer
  | .find => .whether (.ok (standing.next results .find).within)
  | .findRoot => .whether (.ok (standing.next results .findRoot).within)
  | .iterate limit => .results (.ok ((standing.ahead results).take limit))
  | .hasMatch => .whether (.ok !results.isEmpty)
  | .current => .result (standing.ask results .ok)
  | .root => .node (standing.ask results fun f => .ok f.root)
  | .node name => .node (standing.ask results fun f =>
    match f.bindings.get? name with
    | some n => .ok n
    | none => .error (.unbound name))
  | .names => .names (standing.ask results fun f => .ok (f.bindings.map Prod.fst))
  | .reset => .nothing

/-- Where several calls lead. -/
def after (standing : Standing) (calls : List Cursor.Call) : Standing :=
  calls.foldl (next results) standing

/-- Without a current result, any root is another one. -/
theorem next_findRoot_of_current_none {found : List Finding} {standing : Standing}
    (h : standing.current found = none) :
    standing.next found .findRoot = standing.next found .find := by
  cases standing with
  | past => rfl
  | passed count =>
    rw [next, next, h]
    by_cases hcount : count < found.length
    · rw [if_pos hcount, List.drop_eq_getElem_cons hcount, List.findIdx?_cons]
      rfl
    · rw [if_neg hcount, List.drop_eq_nil_of_le (Nat.le_of_not_lt hcount)]
      rfl

/-- A loop goes on from where its first round leads. -/
theorem next_iterate_succ (found : List Finding) (standing : Standing) (limit : Nat) :
    standing.next found (.iterate (limit + 1)) =
      (standing.next found .find).next found (.iterate limit) := by
  cases standing with
  | past => rfl
  | passed count =>
    by_cases hcount : count < found.length
    · rw [next, next, if_pos hcount, next, Nat.add_assoc, Nat.add_comm 1 limit]
    · have hlimit : ¬count + (limit + 1) ≤ found.length := by omega
      rw [next, next, if_neg hcount, if_neg hlimit, next]
      simp

end Standing

namespace Cursor

variable {found : List Finding} {c : Cursor} {standing : Standing}

/-- A cursor stands somewhere in a list of results. -/
structure StandsAt (found : List Finding) (c : Cursor) (standing : Standing) : Prop where
  results : c.results = .ofList found
  ahead : c.ahead () = .ofList (standing.ahead found)
  current : c.current = standing.current found
  count : c.count = standing.count found
  count_le : standing.count found ≤ found.length

/-- A cursor begins before the first result. -/
theorem standsAt_start (found : List Finding) :
    StandsAt found (start (.ofList found)) (.passed 0) :=
  ⟨rfl, rfl, rfl, rfl, Nat.zero_le _⟩

/-! ### Moving on -/

/-- A cursor that has moved to a result. -/
theorem StandsAt.moved (h : StandsAt found c standing) {before : Nat} (hbefore : before < found.length) :
    StandsAt found
      { c with
        ahead := fun _ => .ofList (found.drop (before + 1))
        current := found[before]?
        count := before + 1 } (.passed (before + 1)) :=
  ⟨h.results, rfl, rfl, rfl, hbefore⟩

/-- A cursor that has run past the last result. -/
theorem StandsAt.ended (h : StandsAt found c standing) {count : Nat} (hcount : count = found.length) :
    StandsAt found { c with ahead := fun _ => .done, current := none, count := count } .past :=
  ⟨h.results, rfl, rfl, hcount, Nat.le_refl _⟩

/-- Finding goes on to the next result, if there is one, and says so. -/
theorem StandsAt.find (h : StandsAt found c standing) :
    c.find.1 = .ok (standing.next found .find).within ∧
      StandsAt found c.find.2 (standing.next found .find) := by
  have hahead := h.ahead
  have hcount := h.count
  cases standing with
  -- past the end the stream is empty, and stays so
  | past =>
    rw [Cursor.find, hahead]
    exact ⟨rfl, h.ended hcount⟩
  | passed count =>
    rw [Standing.next]
    -- there is a result left to move to
    by_cases hlt : count < found.length
    · rw [Standing.ahead, List.drop_eq_getElem_cons hlt] at hahead
      rw [Cursor.find, hahead, if_pos hlt]
      have hmoved := h.moved hlt
      rw [List.getElem?_eq_getElem hlt] at hmoved
      rw [Standing.count] at hcount
      rw [hcount]
      exact ⟨rfl, hmoved⟩
    · -- all results have been passed
      have hlength : count = found.length := Nat.le_antisymm h.count_le (Nat.le_of_not_lt hlt)
      rw [Standing.ahead, List.drop_eq_nil_of_le (Nat.le_of_not_lt hlt)] at hahead
      rw [Cursor.find, hahead, if_neg hlt]
      exact ⟨rfl, h.ended (hcount.trans hlength)⟩

/-- Where the results ahead are those of a list, moving on to another root passes all with the same
root. -/
theorem skipRoot_ofList (c : Cursor) (root : Node) (rest : List Finding) (count : Nat)
    (last : Option Finding) :
    c.skipRoot root (.ofList rest) count last =
      match rest.findIdx? fun f => f.root ≠ root with
      | some skipped => (.ok true, { c with
          ahead := fun _ => .ofList (rest.drop (skipped + 1))
          current := rest[skipped]?
          count := count + skipped + 1 })
      | none =>
        (.ok false, { c with ahead := fun _ => .done, current := none, count := count + rest.length }) := by
  induction rest generalizing count last with
  | nil => rfl
  | cons f rest ih =>
    rw [Results.ofList, skipRoot, List.findIdx?_cons]
    -- a result of the same root is skipped and counted
    by_cases hroot : f.root = root
    · rw [if_pos hroot, ih]
      cases hskipped : rest.findIdx? fun f => f.root ≠ root with
      | none => simp [hroot, Nat.add_assoc, Nat.add_comm 1]
      | some skipped => simp [hroot, Nat.add_assoc, Nat.add_comm 1]
    · simp [hroot]

/-- Finding a root goes on to the next result at another root, if there is one, and says so. -/
theorem StandsAt.findRoot (h : StandsAt found c standing) :
    c.findRoot.1 = .ok (standing.next found .findRoot).within ∧
      StandsAt found c.findRoot.2 (standing.next found .findRoot) := by
  cases hcurrent : standing.current found with
  -- nothing has been matched so far, so that any result is at another root
  | none =>
    rw [Cursor.findRoot, h.current, hcurrent, Standing.next_findRoot_of_current_none hcurrent]
    exact h.find
  | some previous =>
    cases standing with
    | past => cases hcurrent
    | passed count =>
      have hskip : c.findRoot =
          c.skipRoot previous.root (.ofList (found.drop count)) count (some previous) := by
        rw [Cursor.findRoot, h.current, hcurrent, h.ahead, h.count]
        rfl
      rw [hskip, skipRoot_ofList, Standing.next, hcurrent]
      simp only [Option.all_some]
      -- the results of the root that is current are skipped
      cases hskipped : (found.drop count).findIdx? fun f => decide (f.root ≠ previous.root) with
      -- no other root is left, and the count is that of all results
      | none =>
        have hlength : count + (found.drop count).length = found.length := by
          have hle : count ≤ found.length := h.count_le
          rw [List.length_drop]
          omega
        exact ⟨rfl, h.ended hlength⟩
      | some skipped =>
        obtain ⟨hlt, _⟩ := List.findIdx?_eq_some_iff_getElem.1 hskipped
        rw [List.length_drop] at hlt
        have hmoved := h.moved (show count + skipped < found.length by omega)
        simp only [List.drop_drop, List.getElem?_drop]
        exact ⟨rfl, hmoved⟩

/-- Iterating gives the results ahead, as far as the limit. -/
theorem StandsAt.findMany (h : StandsAt found c standing) (limit : Nat) :
    (findMany limit c).1 = .ok ((standing.ahead found).take limit) ∧
      StandsAt found (findMany limit c).2 (standing.next found (.iterate limit)) := by
  induction limit generalizing c standing with
  | zero =>
    rw [Cursor.findMany, List.take_zero]
    refine ⟨rfl, ?_⟩
    cases standing with
    | past => exact h
    | passed count =>
      have hle : count + 0 ≤ found.length := h.count_le
      rw [Standing.next, if_pos hle]
      exact h
  | succ limit ih =>
    -- the first round is a call of `find`, and the others go on from where it leads
    obtain ⟨hanswer, hnext⟩ := h.find
    rw [Standing.next_iterate_succ]
    obtain ⟨hmore, hlast⟩ := ih hnext
    cases standing with
    | past =>
      have hfind : c.find = (.ok false, c.find.2) := Prod.ext hanswer rfl
      rw [Cursor.findMany, hfind]
      exact ⟨rfl, hnext⟩
    | passed count =>
      by_cases hlt : count < found.length
      · rw [Standing.next, if_pos hlt] at hanswer hnext hmore hlast ⊢
        have hfind : c.find = (.ok true, c.find.2) := Prod.ext hanswer rfl
        rw [Cursor.findMany, hfind]
        show (findMany limit c.find.2).1.map (c.find.2.current.toList ++ ·) = _ ∧
          StandsAt found (findMany limit c.find.2).2 _
        refine ⟨?_, hlast⟩
        rw [hmore, hnext.current, Standing.current, List.getElem?_eq_getElem hlt, Standing.ahead,
          Standing.ahead, List.drop_eq_getElem_cons hlt]
        rfl
      · have hahead : found.drop count = [] := List.drop_eq_nil_of_le (Nat.le_of_not_lt hlt)
        rw [Standing.next, if_neg hlt] at hanswer hnext ⊢
        have hfind : c.find = (.ok false, c.find.2) := Prod.ext hanswer rfl
        rw [Cursor.findMany, hfind, Standing.ahead, hahead]
        exact ⟨rfl, hnext⟩

/-- Past the last result, a cursor stays where it is. -/
theorem StandsAt.pastEnd_eq (h : StandsAt found c .past) : c.pastEnd = c := by
  have hahead : c.ahead = fun _ => .done := funext fun _ => h.ahead
  have hcurrent : c.current = none := h.current
  rw [pastEnd, ← hahead, ← hcurrent]

/-- After the last result nothing more is found. -/
theorem StandsAt.find_of_past (h : StandsAt found c .past) : c.find = (.ok false, c) := by
  have hahead : c.ahead () = .done := h.ahead
  rw [Cursor.find, hahead]
  show (Except.ok false, c.pastEnd) = _
  rw [h.pastEnd_eq]

/-- After the last result no further root is found. -/
theorem StandsAt.findRoot_of_past (h : StandsAt found c .past) : c.findRoot = (.ok false, c) := by
  have hcurrent : c.current = none := h.current
  rw [Cursor.findRoot, hcurrent]
  exact h.find_of_past

/-- A cursor without a current result, which no question about one has an answer to. -/
structure Idle (c : Cursor) : Prop where
  current : c.current? = .error .noMatch
  root : c.root? = .error .noMatch
  names : c.names? = .error .noMatch
  node : ∀ name, c.node? name = .error .noMatch

/-- A cursor without a current result answers about none. -/
theorem idle_of_current_eq_none (h : c.current = none) : Idle c := by
  have hcurrent : c.current? = .error .noMatch := by rw [current?, h]
  refine ⟨hcurrent, ?_, ?_, fun name => ?_⟩
  · rw [root?, hcurrent]
    rfl
  · rw [names?, hcurrent]
    rfl
  · rw [node?, hcurrent]
    rfl

/-- Whether there is a match depends on the results alone. -/
theorem StandsAt.hasMatch (h : StandsAt found c standing) : c.hasMatch = .ok !found.isEmpty := by
  rw [Cursor.hasMatch, h.results, Results.isInhabited_ofList]

/-- A question about the current result. -/
theorem StandsAt.ask {α : Type} (h : StandsAt found c standing) (question : Finding → Except Fault α) :
    c.current? >>= question = standing.ask found question := by
  rw [current?, h.current, Standing.ask]
  cases standing.current found with
  | none => rfl
  | some f => rfl

/-! ### Whole sessions -/

/-- A call leaves the cursor where it is to lead. -/
theorem StandsAt.call (h : StandsAt found c standing) (call : Call) :
    StandsAt found (c.call call).2 (standing.next found call) := by
  cases call with
  | find => exact h.find.2
  | findRoot => exact h.findRoot.2
  | iterate limit => exact (h.findMany limit).2
  | reset =>
    have hreset : (c.call .reset).2 = start (.ofList found) := congrArg start h.results
    rw [hreset]
    cases standing <;> exact standsAt_start found
  | hasMatch | current | root | node _ | names => cases standing <;> exact h

/-- A call answers what is to be answered where the cursor stands. -/
theorem StandsAt.answer (h : StandsAt found c standing) (call : Call) :
    (c.call call).1 = standing.answer found call := by
  cases call with
  | find => exact congrArg Answer.whether h.find.1
  | findRoot => exact congrArg Answer.whether h.findRoot.1
  | iterate limit => exact congrArg Answer.results (h.findMany limit).1
  | hasMatch => exact congrArg Answer.whether h.hasMatch
  | current => exact congrArg Answer.result ((bind_pure c.current?).symm.trans (h.ask .ok))
  | root => exact congrArg Answer.node (h.ask _)
  | node name => exact congrArg Answer.node (h.ask _)
  | names => exact congrArg Answer.names (h.ask _)
  | reset => rfl

/-- After any calls the cursor stands where these lead. -/
theorem StandsAt.after (h : StandsAt found c standing) (calls : List Call) :
    StandsAt found (c.after calls) (standing.after found calls) := by
  induction calls generalizing c standing with
  | nil => exact h
  | cons call rest ih => exact ih (h.call call)

/-- What has been called before the last reset does not matter. -/
theorem after_sinceReset (found : List Finding) (calls : List Call) :
    (start (.ofList found)).after calls = (start (.ofList found)).after (sinceReset calls) := by
  induction calls using List.reverseRecOn with
  | nil => rfl
  | append_singleton calls last ih =>
    -- a last call that is a reset leaves nothing to look at, any other one comes after what is looked at
    rw [after_concat]
    by_cases hlast : last = .reset
    · have hresults := ((standsAt_start found).after calls).results
      rw [hlast, sinceReset, List.rtakeWhile_concat_neg _ _ _ (by simp)]
      exact congrArg start hresults
    · rw [sinceReset, List.rtakeWhile_concat_pos _ _ _ (by simpa using hlast), after_concat, ih]
      rfl

/-- **A cursor is a place in the results of its search.**  Take any number of cursors in one search, and
calls of their methods in any order.  What a cursor has become depends on its own calls since its last
reset alone, and they tell where it stands.

* As long as it has not run past the last result, it has counted the results that it has passed, the others
  are ahead, and the last one passed is current; before the first one, no question about a current result
  has an answer.
* Once it has, it has counted all results, none is current, and moving on says no and changes nothing.

Each call is answered as where the cursor stands tells; in particular, the search is said to have results
just when there are some.  No question changes any of the cursors. -/
theorem session_of_search [Text.CharacterNames] (p : Pattern) (g : Graph)
    (accepts : LabelFilter → Option String → Bool) (base : Environment) :
    ∃ found : List Finding, search p g (.total accepts) base = .ofList found ∧
      ∀ (ι : Type) [DecidableEq ι] (steps : List (ι × Call)) (i : ι), ∃ c standing,
        session (fun _ => start (.ofList found)) steps i = c ∧
        c = (start (.ofList found)).after (sinceReset (callsOf i steps)) ∧
        standing = Standing.after found (.passed 0) (sinceReset (callsOf i steps)) ∧
        (∀ count, standing = .passed count →
          count ≤ found.length ∧ c.count = count ∧ c.ahead () = .ofList (found.drop count) ∧
            (count = 0 → c.current = none ∧ c.Idle) ∧
            (0 < count → ∃ h : count - 1 < found.length, c.current = some found[count - 1])) ∧
        (standing = .past →
          c.count = found.length ∧ c.current = none ∧ c.Idle ∧ c.find = (.ok false, c) ∧
            c.findRoot = (.ok false, c)) ∧
        (∀ call, (c.call call).1 = standing.answer found call) ∧
        c.hasMatch = .ok !found.isEmpty ∧
        ∀ call : Call, call.asks = true →
          session (fun _ => start (.ofList found)) (steps ++ [(i, call)]) =
            session (fun _ => start (.ofList found)) steps := by
  refine ⟨findings g accepts p base, search_total p base, ?_⟩
  -- from here on only the list of results counts, and no longer where it comes from
  generalize findings g accepts p base = found
  intro ι _ steps i
  have hsession : session (fun _ => start (.ofList found)) steps i =
      (start (.ofList found)).after (sinceReset (callsOf i steps)) := by
    rw [session_apply, after_sinceReset]
  have hstands := (standsAt_start found).after (sinceReset (callsOf i steps))
  generalize (start (.ofList found)).after (sinceReset (callsOf i steps)) = c at hsession hstands ⊢
  generalize Standing.after found (.passed 0) (sinceReset (callsOf i steps)) = standing at hstands ⊢
  refine ⟨c, standing, hsession, rfl, rfl, ?_, ?_, hstands.answer, hstands.hasMatch,
    fun call hcall => session_concat_of_asks _ _ i hcall⟩
  · -- within the results: the last one passed is the current one
    rintro count rfl
    refine ⟨hstands.count_le, hstands.count, hstands.ahead, ?_, ?_⟩
    · rintro rfl
      exact ⟨hstands.current, idle_of_current_eq_none hstands.current⟩
    · intro hpos
      obtain ⟨before, rfl⟩ : ∃ before, count = before + 1 := ⟨count - 1, by omega⟩
      have hlt : before < found.length := hstands.count_le
      have hcurrent : c.current = found[before]? := hstands.current
      exact ⟨hlt, hcurrent.trans (List.getElem?_eq_getElem hlt)⟩
  · -- past the end: the cursor idles
    rintro rfl
    exact ⟨hstands.count, hstands.current, idle_of_current_eq_none hstands.current,
      hstands.find_of_past, hstands.findRoot_of_past⟩

/-- Two cursors in three results, of which the first two have the same root: one skips a root, is reset and
moves on once, while the other runs past the last result. -/
example :
    let first : Finding := ⟨.index 1, [("x", .index 2)]⟩
    let found : List Finding := [first, ⟨.index 1, [("x", .index 3)]⟩, ⟨.index 2, [("x", .index 3)]⟩]
    let cursors := session (fun _ => start (.ofList found)) [(true, .find), (true, .findRoot),
      (false, .iterate 4), (true, .reset), (false, .names), (true, .find)]
    (cursors true).count = 1 ∧ (cursors true).current = some first ∧ (cursors false).count = 3 ∧
      (cursors false).current = none := by
  decide

end Cursor

end DependencyQuery
