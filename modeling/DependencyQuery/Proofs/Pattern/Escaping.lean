import DependencyQuery.Pattern.Render

namespace DependencyQuery.Pattern

/-!
# Reading back what has been escaped

* `quotedBody_escapeQuoted` — any text between quotes is read back;
* `keepsPairs` — whether the backslashes of a body, taken in pairs from the left, leave none before a
  slash and none at the end;
* `regexBody_escapeRegex_iff` — these are the bodies that are read back from between slashes;
* `keepsPairs_of_regexBody` — and every body that is read is one of them.

The reader undoes `\/` only and keeps every other pair as it stands, so what it does with a backslash
depends on how the backslashes before it pair up.
-/

/-! ### Quotes -/

/-- Inside quotes, a character that is no backslash and no quote stands for itself. -/
theorem quotedBody_cons {c : Char} (hbackslash : c ≠ '\\') (hquote : c ≠ '"') (s : List Char) :
    quotedBody (c :: s) = (quotedBody s).map fun p => (c :: p.1, p.2) := by
  rw [quotedBody]
  · cases quotedBody s <;> rfl
  · intro _ _ h _
    exact hbackslash h
  · exact hquote

/-- A text between quotes is read back, whatever follows the closing one. -/
theorem quotedBody_escapeQuoted (text rest : List Char) :
    quotedBody (escapeQuoted text ++ '"' :: rest) = some (text, rest) := by
  induction text with
  | nil => rfl
  | cons c text ih =>
    rw [escapeQuoted]
    by_cases h : c = '\\' ∨ c = '"'
    · rw [if_pos h, List.cons_append, List.cons_append, quotedBody, ih]
    · rw [if_neg h, List.cons_append]
      rw [not_or] at h
      rw [quotedBody_cons h.1 h.2, ih, Option.map_some]

/-! ### Slashes -/

/-- Whether the backslashes, taken in pairs from the left, leave none before a slash or at the end. -/
def keepsPairs : List Char → Bool
  | [] => true
  | ['\\'] => false
  | '\\' :: c :: rest => c ≠ '/' && keepsPairs rest
  | _ :: rest => keepsPairs rest

/-- A character that is no backslash is read on its own. -/
theorem keepsPairs_cons {c : Char} (h : c ≠ '\\') (s : List Char) :
    keepsPairs (c :: s) = keepsPairs s := by
  rw [keepsPairs]
  · intro hc _
    exact h hc
  · intro _ _ hc _
    exact h hc

/-- Inside slashes, a character that is no backslash and no slash stands for itself. -/
theorem regexBody_cons {c : Char} (hbackslash : c ≠ '\\') (hslash : c ≠ '/') (s : List Char) :
    regexBody (c :: s) = (regexBody s).map fun p => (c :: p.1, p.2) := by
  rw [regexBody]
  · cases regexBody s <;> rfl
  · intro _ _ h _
    exact hbackslash h
  · exact hslash

/-- A backslash takes the character after it along, unless that is a slash. -/
theorem regexBody_pair {c : Char} (h : c ≠ '/') (s : List Char) :
    regexBody ('\\' :: c :: s) = (regexBody s).map fun p => ('\\' :: c :: p.1, p.2) := by
  rw [regexBody]
  cases regexBody s with
  | none => rfl
  | some p => simp [h]

/-- A backslash before a slash is left out. -/
theorem regexBody_escapedSlash (s : List Char) :
    regexBody ('\\' :: '/' :: s) = (regexBody s).map fun p => ('/' :: p.1, p.2) := by
  rw [regexBody]
  cases regexBody s <;> rfl

/-- What is put before all that has been read does not matter for what is read after it. -/
theorem map_append_eq_some_iff (before : List Char) (r : Option (List Char × List Char))
    (body rest : List Char) :
    (r.map fun p => (before ++ p.1, p.2)) = some (before ++ body, rest) ↔ r = some (body, rest) := by
  cases r with
  | none => simp
  | some p => simp [Prod.ext_iff]

/-- The bodies that are read back from between slashes, whatever follows the closing one. -/
theorem regexBody_escapeRegex_iff (body rest : List Char) :
    regexBody (escapeRegex body ++ '/' :: rest) = some (body, rest) ↔ keepsPairs body = true := by
  fun_induction keepsPairs body with
  | case1 => exact iff_of_true rfl rfl
  | case2 =>
    -- the closing slash is taken for an escaped one
    have : escapeRegex ['\\'] ++ '/' :: rest = '\\' :: '/' :: rest := rfl
    rw [this, regexBody_escapedSlash]
    cases regexBody rest <;> simp
  | case3 c body ih =>
    rw [escapeRegex, if_neg (by decide), escapeRegex]
    by_cases h : c = '/'
    · -- the backslash pairs with the one that was to escape the slash
      subst h
      rw [if_pos rfl, List.cons_append, List.cons_append, List.cons_append, regexBody_pair (by decide),
        regexBody]
      simp
    · rw [if_neg h, List.cons_append, List.cons_append, regexBody_pair h]
      have := map_append_eq_some_iff ['\\', c] (regexBody (escapeRegex body ++ '/' :: rest)) body rest
      simpa [h] using this.trans ih
  | case4 c body h h' ih =>
    have hc : c ≠ '\\' := by
      rintro rfl
      cases body with
      | nil => exact h rfl rfl
      | cons d body => exact h' d body rfl rfl
    rw [escapeRegex]
    by_cases hslash : c = '/'
    · subst hslash
      rw [if_pos rfl, List.cons_append, List.cons_append, regexBody_escapedSlash]
      exact (map_append_eq_some_iff ['/'] _ body rest).trans ih
    · rw [if_neg hslash, List.cons_append, regexBody_cons hc hslash]
      exact (map_append_eq_some_iff [c] _ body rest).trans ih

/-- Whatever body is read, it can be written between slashes again. -/
theorem keepsPairs_of_regexBody {s body rest : List Char} (h : regexBody s = some (body, rest)) :
    keepsPairs body = true := by
  fun_induction regexBody s generalizing body with
  | case1 => cases h
  | case2 c s read after hread ih =>
    -- an escaped slash loses its backslash, any other pair is kept as it stands
    by_cases hc : c = '/'
    · rw [if_pos hc] at h
      cases h
      rw [keepsPairs_cons (by decide)]
      exact ih hread
    · rw [if_neg hc] at h
      cases h
      rw [keepsPairs, ih hread, Bool.and_true]
      exact decide_eq_true hc
  | case3 c s hread ih => cases h
  | case4 s =>
    cases h
    rfl
  | case5 c s hpair hslash read after hread ih =>
    cases h
    by_cases hc : c = '\\'
    · -- a backslash that pairs with nothing ends the text, so that nothing is read after it
      subst hc
      cases s with
      | nil => cases hread
      | cons d s => exact (hpair d s rfl rfl).elim
    · rw [keepsPairs_cons hc]
      exact ih hread
  | case6 c s hpair hslash hread ih => cases h

end DependencyQuery.Pattern
