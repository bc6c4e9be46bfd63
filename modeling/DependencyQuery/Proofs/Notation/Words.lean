import DependencyQuery.Graph.Notation.Reader
import Mathlib.Data.List.Basic

namespace DependencyQuery.Graph

open Text (decimalValue isBlank isDecimalDigit)

/-!
# Words and tokens of bracket notation

* `splitAtLast_eq_some_iff`, `splitAtLast_eq_none_iff` — where a text is split at the last place of a
  character;
* `splitIndex_append`, `WordSpec.ofChars_append`, `WordSpec.ofChars_of_one_sided` — what a word with a tag
  or an index is read as, and `WordSpec.ofChars_wellFormed` — what all words and tags have in common;
* `Plain` — a text that is not broken into tokens; `tokensAfter_append`, `tokensAfter_of_breaks` — how
  such a text is read on to its end;
* `tokensAfter_eq_nil_iff` — only a blank text has no tokens, `plain_of_run_mem` — every run is plain.
-/

variable {c : Char} {s before after word tag : List Char}

/-! ### Splitting -/

/-- A text is not split just if it does not have the character. -/
theorem splitAtLast_eq_none_iff : splitAtLast c s = none ↔ c ∉ s := by
  induction s with
  | nil => simp [splitAtLast]
  | cons d rest ih =>
    rw [splitAtLast, List.mem_cons, not_or, ← ih]
    cases splitAtLast c rest with
    | some p => simp
    | none => simp [eq_comm]

/-- A text is split at a place of the character after which it does not occur. -/
theorem splitAtLast_eq_some_iff :
    splitAtLast c s = some (before, after) ↔ s = before ++ c :: after ∧ c ∉ after := by
  induction s generalizing before after with
  | nil => simp [splitAtLast]
  | cons d rest ih =>
    rw [splitAtLast]
    cases hrest : splitAtLast c rest with
    | some p =>
      obtain ⟨b, a⟩ := p
      obtain ⟨rfl, ha⟩ := ih.1 hrest
      constructor
      · intro h
        cases h
        exact ⟨rfl, ha⟩
      · rintro ⟨h, hafter⟩
        -- the last place further on is also the last one of the whole text
        cases before with
        | nil =>
          rw [List.nil_append, List.cons.injEq] at h
          exact absurd (h.2 ▸ by simp) hafter
        | cons e before =>
          rw [List.cons_append, List.cons.injEq] at h
          have := ih.2 ⟨h.2, hafter⟩
          rw [hrest] at this
          cases this
          rw [h.1]
    | none =>
      rw [splitAtLast_eq_none_iff] at hrest
      constructor
      · intro h
        dsimp only at h
        split at h
        · next hd =>
          cases h
          exact ⟨by rw [hd]; rfl, hrest⟩
        · cases h
      · rintro ⟨h, hafter⟩
        -- there is none further on, so that only the first place is left
        cases before with
        | nil =>
          rw [List.nil_append, List.cons.injEq] at h
          obtain ⟨rfl, rfl⟩ := h
          simp
        | cons e before =>
          rw [List.cons_append, List.cons.injEq] at h
          exact absurd (h.2 ▸ by simp) hrest

/-- What does not have the character in it belongs to the last part of a text. -/
theorem splitAtLast_append (hafter : c ∉ after) :
    splitAtLast c (s ++ after) = (splitAtLast c s).map fun p => (p.1, p.2 ++ after) := by
  cases hsplit : splitAtLast c s with
  | none =>
    have hs : c ∉ s := splitAtLast_eq_none_iff.1 hsplit
    exact splitAtLast_eq_none_iff.2 (List.mem_append.not.2 (not_or.2 ⟨hs, hafter⟩))
  | some p =>
    obtain ⟨rfl, hlast⟩ := splitAtLast_eq_some_iff.1 (hsplit : _ = some (p.1, p.2))
    refine splitAtLast_eq_some_iff.2 ⟨by rw [List.append_assoc, List.cons_append], ?_⟩
    exact List.mem_append.not.2 (not_or.2 ⟨hlast, hafter⟩)

/-- A number after a hyphen is an index, if there is something before it. -/
theorem splitIndex_append (hword : word ≠ []) (k : Nat) :
    splitIndex (word ++ '-' :: Nat.toDigits 10 k) = (word, some k) := by
  have hhyphen : '-' ∉ Nat.toDigits 10 k := fun h =>
    absurd (Text.isDecimalDigit_of_mem_toDigits h) (by decide)
  have hdigits : (Nat.toDigits 10 k).all isDecimalDigit = true :=
    List.all_eq_true.2 fun c hc => Text.isDecimalDigit_of_mem_toDigits hc
  have hsplit : splitAtLast '-' (word ++ '-' :: Nat.toDigits 10 k) = some (word, Nat.toDigits 10 k) :=
    splitAtLast_eq_some_iff.2 ⟨rfl, hhyphen⟩
  rw [splitIndex, hsplit]
  simp [hword, Nat.toDigits_ne_nil, hdigits, Text.decimalValue_toDigits]

/-- A text without its index is a front part of it, and not empty unless the text is. -/
theorem prefix_splitIndex (s : List Char) : (splitIndex s).1 <+: s ∧ (s ≠ [] → (splitIndex s).1 ≠ []) := by
  rw [splitIndex]
  cases hsplit : splitAtLast '-' s with
  | none => exact ⟨List.prefix_refl _, id⟩
  | some p =>
    obtain ⟨before, digits⟩ := p
    obtain ⟨rfl, -⟩ := splitAtLast_eq_some_iff.1 hsplit
    dsimp only
    split
    · next h =>
      simp only [Bool.and_eq_true, Bool.not_eq_true', List.isEmpty_eq_false_iff] at h
      exact ⟨List.prefix_append _ _, fun _ => h.1.1⟩
    · exact ⟨List.prefix_refl _, id⟩

/-- A text without an index is left whole. -/
theorem splitIndex_of_none (h : (splitIndex s).2 = none) : splitIndex s = (s, none) := by
  rw [splitIndex] at h ⊢
  split at h
  · split at h
    · cases h
    · next hcond => rw [if_neg hcond]
  · rfl

namespace WordSpec

/-- What follows the last slash is a tag, perhaps with an index. -/
theorem ofChars_append (hword : word ≠ []) (htag : tag ≠ []) (hslash : '/' ∉ tag) :
    ofChars (word ++ '/' :: tag) = ⟨word, some (splitIndex tag).1, (splitIndex tag).2⟩ := by
  rw [ofChars, splitAtLast_eq_some_iff.2 ⟨rfl, hslash⟩]
  simp [hword, htag]

/-- Where no slash has something on either side of it there is a word only, perhaps with an index. -/
theorem ofChars_of_one_sided (hslash : ∀ p ∈ splitAtLast '/' s, p.1 = [] ∨ p.2 = []) :
    ofChars s = ⟨(splitIndex s).1, none, (splitIndex s).2⟩ := by
  rw [ofChars]
  cases hsplit : splitAtLast '/' s with
  | none => rfl
  | some p =>
    obtain ⟨word, rest⟩ := p
    have hside : ¬((!word.isEmpty && !rest.isEmpty) = true) := by
      rcases hslash _ hsplit with rfl | rfl <;> simp
    exact if_neg hside

/-- A word is never empty, and a tag neither is empty nor has a slash in it. -/
theorem ofChars_wellFormed (hs : s ≠ []) :
    ((ofChars s).word ≠ [] ∧ (ofChars s).word ⊆ s) ∧
      ∀ tag, (ofChars s).tag = some tag → tag ≠ [] ∧ '/' ∉ tag ∧ tag ⊆ s := by
  have hwhole : ((splitIndex s).1 ≠ [] ∧ (splitIndex s).1 ⊆ s) ∧
      ∀ tag : List Char, none = some tag → tag ≠ [] ∧ '/' ∉ tag ∧ tag ⊆ s :=
    ⟨⟨(prefix_splitIndex s).2 hs, (prefix_splitIndex s).1.subset⟩, fun _ h => by cases h⟩
  rw [ofChars]
  cases hsplit : splitAtLast '/' s with
  | none => exact hwhole
  | some p =>
    obtain ⟨word, rest⟩ := p
    obtain ⟨hs', hslash⟩ := splitAtLast_eq_some_iff.1 hsplit
    dsimp only
    -- a slash with something on both sides of it sets off a tag
    split
    · next h =>
      simp only [Bool.and_eq_true, Bool.not_eq_true', List.isEmpty_eq_false_iff] at h
      obtain ⟨hfront, hne⟩ := prefix_splitIndex rest
      refine ⟨⟨h.1, fun c hc => by simp [hs', hc]⟩, ?_⟩
      rintro _ ⟨⟩
      exact ⟨hne h.2, fun hc => hslash (hfront.subset hc),
        fun c hc => by simp [hs', hfront.subset hc]⟩
    · exact hwhole

end WordSpec

/-! ### Tokens -/

/-- Whether a character goes on a run. -/
def continuesRun (c : Char) : Bool := !isBlank c && c ≠ '[' && c ≠ ']'

/-- Digits go on with a run. -/
theorem continuesRun_of_isDigit (h : c.isDigit = true) : continuesRun c = true := by
  rw [Char.isDigit_iff_toNat] at h
  have hrange : 48 ≤ c.toNat ∧ c.toNat ≤ 57 := h
  have hblank : isBlank c = false := by
    simp only [isBlank, Bool.or_eq_false_iff, Bool.and_eq_false_iff, decide_eq_false_iff_not,
      beq_eq_false_iff_ne]
    omega
  have hopening : c ≠ '[' := by
    rintro rfl
    exact absurd h.2 (by decide)
  have hclosing : c ≠ ']' := by
    rintro rfl
    exact absurd h.2 (by decide)
  simp [continuesRun, hblank, hopening, hclosing]

/-- A text that is not broken into tokens. -/
def Plain (s : List Char) : Prop := ∀ c ∈ s, continuesRun c = true

/-- A text before which a run ends. -/
def Breaks (s : List Char) : Prop := ∀ c ∈ s.head?, continuesRun c = false

/-- Runs end where the text does. -/
@[simp] theorem breaks_nil : Breaks [] := by simp [Breaks]

/-- Runs end at a blank. -/
@[simp] theorem breaks_blank (s : List Char) : Breaks (' ' :: s) := by
  rintro c ⟨⟩
  decide

/-- Runs end at an opening bracket. -/
@[simp] theorem breaks_opening (s : List Char) : Breaks ('[' :: s) := by
  rintro c ⟨⟩
  decide

/-- Runs end at a closing bracket. -/
@[simp] theorem breaks_closing (s : List Char) : Breaks (']' :: s) := by
  rintro c ⟨⟩
  decide

/-- An empty text is not broken. -/
theorem plain_nil : Plain [] := by simp [Plain]

/-- A text is not broken if neither of its parts is. -/
theorem plain_append {s t : List Char} : Plain (s ++ t) ↔ Plain s ∧ Plain t := List.forall_mem_append

/-- A text is not broken if its first character goes on with a run and the rest is not broken. -/
theorem plain_cons : Plain (c :: s) ↔ continuesRun c = true ∧ Plain s := List.forall_mem_cons

/-- A text without other characters is not broken either. -/
theorem Plain.subset {s t : List Char} (h : Plain t) (hst : s ⊆ t) : Plain s := fun c hc => h c (hst hc)

/-- A character that goes on with a run joins it. -/
theorem tokensAfter_cons_of_continues {pending : List Char} (h : continuesRun c = true) :
    tokensAfter pending (c :: s) = tokensAfter (pending ++ [c]) s := by
  simp only [continuesRun, Bool.and_eq_true, Bool.not_eq_true', decide_eq_true_eq] at h
  rw [tokensAfter, if_neg (by simp [h.1.1]), if_neg h.1.2, if_neg h.2]

/-- Plain text goes on the run before it. -/
theorem tokensAfter_append {pending run : List Char} (h : Plain run) :
    tokensAfter pending (run ++ s) = tokensAfter (pending ++ run) s := by
  induction run generalizing pending with
  | nil => simp
  | cons c run ih =>
    rw [plain_cons] at h
    rw [List.cons_append, tokensAfter_cons_of_continues h.1, ih h.2, List.append_assoc]
    rfl

/-- A run ends before a text that breaks it. -/
theorem tokensAfter_of_breaks {pending : List Char} (h : Breaks s) :
    tokensAfter pending s = pendingRun pending ++ tokensAfter [] s := by
  cases s with
  | nil => simp [tokensAfter, pendingRun]
  | cons c s =>
    have hc : isBlank c = true ∨ c = '[' ∨ c = ']' := by
      simpa [continuesRun, or_iff_not_imp_left] using h c rfl
    rcases hc with hc | rfl | rfl
    · simp [tokensAfter, hc, pendingRun]
    · rfl
    · rfl

/-- Only a blank text has no tokens. -/
theorem tokensAfter_eq_nil_iff {pending : List Char} :
    tokensAfter pending s = [] ↔ pending = [] ∧ s.all isBlank = true := by
  have hpending : ∀ pending : List Char, pendingRun pending = [] ↔ pending = [] := by
    intro pending
    unfold pendingRun
    cases pending <;> simp
  induction s generalizing pending with
  | nil => simp [tokensAfter, hpending]
  | cons c s ih =>
    rw [tokensAfter, List.all_cons, Bool.and_eq_true]
    split
    · next hc => simp [hpending, ih, hc]
    · next hc =>
      split
      · simp [hc]
      · split
        · simp [hc]
        · simp [ih, hc]

/-- Every run is plain text. -/
theorem plain_of_run_mem {pending chars : List Char} (hpending : Plain pending)
    (h : .run chars ∈ tokensAfter pending s) : chars ≠ [] ∧ Plain chars := by
  have hpendingRun : ∀ pending : List Char, Plain pending → .run chars ∈ pendingRun pending →
      chars ≠ [] ∧ Plain chars := by
    intro pending hplain hmem
    unfold pendingRun at hmem
    split at hmem
    · cases hmem
    · next hne =>
      cases List.mem_singleton.1 hmem
      exact ⟨fun e => hne (by rw [e]; rfl), hplain⟩
  induction s generalizing pending with
  | nil => exact hpendingRun pending hpending h
  | cons c s ih =>
    by_cases hc : continuesRun c = true
    · rw [tokensAfter_cons_of_continues hc] at h
      exact ih (plain_append.2 ⟨hpending, by simpa [Plain] using hc⟩) h
    · -- the run collected so far ends here, and the next one begins with nothing
      have hbreaks : Breaks (c :: s) := by
        rintro d ⟨⟩
        simpa using hc
      rw [tokensAfter_of_breaks hbreaks, List.mem_append] at h
      rcases h with h | h
      · exact hpendingRun pending hpending h
      · have hrest : .run chars ∈ tokensAfter [] s := by
          rw [tokensAfter] at h
          split at h
          · exact h
          · split at h
            · simpa [pendingRun] using h
            · split at h
              · simpa [pendingRun] using h
              · simp_all [continuesRun]
        exact ih plain_nil hrest

end DependencyQuery.Graph
