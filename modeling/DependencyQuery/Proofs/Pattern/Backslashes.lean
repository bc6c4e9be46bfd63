import DependencyQuery.Proofs.Pattern.Escaping
import Mathlib.Algebra.Group.Nat.Even
import Mathlib.Data.List.DropRight

namespace DependencyQuery.Pattern

/-!
# Escapes are undone by the readers

* `backslashesAtEnd` — how many backslashes in a row end a text;
* `EvenRuns` — an even number of them stands before each slash of a text and at its end;
* `keepsPairs_iff_evenRuns` — taken in pairs from the left, backslashes leave none over just where their runs
  are even;
* `escapes_read_back` — between quotes every text is read back, between slashes just those with even runs, and
  nothing else is ever read between slashes.
-/

variable {front s : List Char}

/-- The number of backslashes in a row at the end of a text. -/
def backslashesAtEnd (s : List Char) : Nat := (s.rtakeWhile (· = '\\')).length

/-- An even number of backslashes in a row stands before each slash and at the end. -/
structure EvenRuns (s : List Char) : Prop where
  slash : ∀ before after, s = before ++ '/' :: after → Even (backslashesAtEnd before)
  last : Even (backslashesAtEnd s)

/-- No backslash stands at the end of an empty text. -/
@[simp] theorem backslashesAtEnd_nil : backslashesAtEnd [] = 0 := rfl

/-- A further character ends the run of backslashes, or is one more of it. -/
theorem backslashesAtEnd_concat (s : List Char) (c : Char) :
    backslashesAtEnd (s ++ [c]) = if c = '\\' then backslashesAtEnd s + 1 else 0 := by
  rw [backslashesAtEnd, List.rtakeWhile_concat]
  by_cases h : c = '\\' <;> simp [h, backslashesAtEnd]

/-- After an even number of backslashes, a run goes on to an even number or not as if they were not there. -/
theorem even_backslashesAtEnd_append (h : Even (backslashesAtEnd front)) (s : List Char) :
    Even (backslashesAtEnd (front ++ s)) ↔ Even (backslashesAtEnd s) := by
  induction s using List.reverseRecOn with
  | nil => simpa using h
  | append_singleton s c ih =>
    rw [← List.append_assoc, backslashesAtEnd_concat, backslashesAtEnd_concat]
    split
    · rw [Nat.even_add_one, Nat.even_add_one, ih]
    · exact Iff.rfl

/-- A front with even runs may be taken away, since it leaves no half of a pair. -/
theorem EvenRuns.append_iff (hfront : EvenRuns front) (s : List Char) :
    EvenRuns (front ++ s) ↔ EvenRuns s := by
  -- a front that ends in an even run changes the parity of no run after it
  have heven := even_backslashesAtEnd_append hfront.last
  constructor
  · rintro ⟨hslash, hlast⟩
    refine ⟨?_, (heven s).1 hlast⟩
    rintro before after rfl
    exact (heven before).1 (hslash _ after (List.append_assoc _ _ _).symm)
  · rintro ⟨hslash, hlast⟩
    refine ⟨?_, (heven s).2 hlast⟩
    -- the slash stands in the rest or in the front, by where the two lists divide
    intro before after heq
    rcases List.append_eq_append_iff.1 heq with ⟨more, rfl, hs⟩ | ⟨more, rfl, hmore⟩
    · exact (heven more).2 (hslash more after hs)
    · -- the slash is the last thing before the rest, or one of the front
      cases more with
      | nil =>
        rw [List.append_nil] at hfront
        exact hfront.last
      | cons c more =>
        cases hmore
        exact hfront.slash before more rfl

/-- A character that is no backslash has even runs. -/
theorem evenRuns_singleton {c : Char} (h : c ≠ '\\') : EvenRuns [c] := by
  refine ⟨?_, ?_⟩
  · intro before after heq
    cases before with
    | nil => exact Nat.even_iff.2 rfl
    | cons d before => simp at heq
  · have hnone : backslashesAtEnd [c] = 0 := by
      rw [← List.nil_append [c], backslashesAtEnd_concat, if_neg h]
    rw [hnone]
    exact Nat.even_iff.2 rfl

/-- So has a backslash with any character after it but a slash. -/
theorem evenRuns_pair {c : Char} (h : c ≠ '/') : EvenRuns ['\\', c] := by
  have hone : backslashesAtEnd ['\\'] = 1 := rfl
  refine ⟨?_, ?_⟩
  · intro before after heq
    rcases before with _ | ⟨d, _ | ⟨e, before⟩⟩
    · cases heq
    · cases heq
      exact absurd rfl h
    · simp at heq
  · rw [← List.singleton_append, backslashesAtEnd_concat, hone]
    split <;> decide

/-- Taken in pairs from the left, backslashes leave none over just where their runs are even. -/
theorem keepsPairs_iff_evenRuns (s : List Char) : keepsPairs s = true ↔ EvenRuns s := by
  -- one backslash is a run of odd length, which is what the refused bodies end in
  have hodd : ¬Even (backslashesAtEnd ['\\']) := by decide
  fun_induction keepsPairs s with
  | case1 =>
    refine iff_of_true rfl ⟨?_, Nat.even_iff.2 rfl⟩
    intro before after heq
    simp at heq
  | case2 => exact iff_of_false Bool.false_ne_true fun h => hodd h.last
  | case3 c s ih =>
    by_cases hc : c = '/'
    · -- a pair whose second character is a slash leaves one backslash before the slash
      subst hc
      exact iff_of_false (by simp) fun h => hodd (h.slash ['\\'] s rfl)
    · rw [decide_eq_true hc, Bool.true_and]
      exact ih.trans ((evenRuns_pair hc).append_iff s).symm
  | case4 c s h h' ih =>
    have hc : c ≠ '\\' := by
      rintro rfl
      cases s with
      | nil => exact h rfl rfl
      | cons d s => exact h' d s rfl rfl
    exact ih.trans ((evenRuns_singleton hc).append_iff s).symm

/-- Any text is read back from between quotes, and a body from between slashes just if it has even runs of
backslashes, whatever follows.  No other body is ever read. -/
theorem escapes_read_back (rest : List Char) :
    (∀ text, quotedBody (escapeQuoted text ++ '"' :: rest) = some (text, rest)) ∧
      (∀ body, regexBody (escapeRegex body ++ '/' :: rest) = some (body, rest) ↔ EvenRuns body) ∧
      ∀ s body, regexBody s = some (body, rest) → EvenRuns body := by
  refine ⟨fun text => quotedBody_escapeQuoted text rest, fun body => ?_, fun s body h => ?_⟩
  · rw [regexBody_escapeRegex_iff, keepsPairs_iff_evenRuns]
  · exact (keepsPairs_iff_evenRuns body).1 (keepsPairs_of_regexBody h)

/-- A pair of backslashes before an escaped slash is read as it stands, and so there are two before the slash.  A
single one takes the place of the backslash that the slash needs. -/
theorem escapes_read_back_pairBeforeSlash :
    regexBody "a\\\\\\/b/ {}".toList = some ("a\\\\/b".toList, " {}".toList) ∧
      EvenRuns "a\\\\/b".toList ∧
      regexBody (escapeRegex "a\\/b".toList ++ '/' :: " {}".toList) ≠ some ("a\\/b".toList, " {}".toList) := by
  have hread : regexBody "a\\\\\\/b/ {}".toList = some ("a\\\\/b".toList, " {}".toList) := by decide
  have hodd : ¬EvenRuns "a\\/b".toList := fun h => absurd (h.slash ['a', '\\'] ['b'] rfl) (by decide)
  obtain ⟨-, hwritten, hbodies⟩ := escapes_read_back " {}".toList
  exact ⟨hread, hbodies _ _ hread, fun h => hodd ((hwritten _).1 h)⟩

end DependencyQuery.Pattern
