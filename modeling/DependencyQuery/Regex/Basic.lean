import DependencyQuery.Regex.Matcher

namespace DependencyQuery

/-!
# Regular expressions

* `Regex` — a regular expression that has been accepted: its source together with what it was read as;
* `Regex.ofString` — reads one, or says why it is refused;
* `Regex.fullMatches` — whether a whole text matches.

A regular expression is determined by its source, so two are equal when their sources are.
-/

variable [Text.CharacterNames]

/-- An accepted regular expression. -/
structure Regex where
  /-- The text it is written as. -/
  source : String
  /-- What the text is read as. -/
  program : Regex.Program
  read_source : Regex.read source.toList = .ok program

namespace Regex

/-- Reads a regular expression. -/
def ofString (source : String) : Except Refusal Regex :=
  match h : read source.toList with
  | .ok program => .ok ⟨source, program, h⟩
  | .error refusal => .error refusal

/-- Whether the whole text matches. -/
def fullMatches (r : Regex) (text : String) : Bool := r.program.fullMatches text

/-- Two accepted expressions with the same source are the same. -/
@[ext] theorem ext {r s : Regex} (h : r.source = s.source) : r = s := by
  obtain ⟨source, program, hr⟩ := r
  obtain ⟨_, program', hs⟩ := s
  subst h
  obtain rfl : program = program' := Except.ok.inj (hr.symm.trans hs)
  rfl

/-- To compare accepted expressions it is enough to compare their sources. -/
instance : DecidableEq Regex := fun r s =>
  if h : r.source = s.source then isTrue (ext h) else isFalse fun e => h (e ▸ rfl)

/-- An accepted expression is shown by its source. -/
instance : Repr Regex := ⟨fun r => reprPrec r.source⟩

/-- A regular expression is what its source reads as. -/
@[simp] theorem ofString_source (r : Regex) : ofString r.source = .ok r := by
  unfold ofString
  split
  · next program h => exact congrArg _ (ext rfl)
  · next refusal h => simp [r.read_source] at h

/-- What has been read keeps its source. -/
theorem source_of_ofString {source : String} {r : Regex} (h : ofString source = .ok r) :
    r.source = source := by
  unfold ofString at h
  split at h
  · cases h; rfl
  · cases h

end Regex

end DependencyQuery
