import DependencyQuery.Proofs.Pattern.Grammar

namespace DependencyQuery.Pattern

open Text (decimalValue isBlank isDecimalDigit skipBlanks)

/-!
# Readers of tokens find the tokens of the grammar

* `blanks_skipBlanks`, `Blanks.skipBlanks_eq` — skipping blanks drops blanks, and as many as there are;
* `eq_some_iff_longest` — a reader that finds tokens of a kind, and takes in all of any token that a text
  begins with, finds the longest one;
* `identifier?_eq_some_iff`, `literal?_eq_some_iff`, `number?_eq_some_iff`, `labelName?_eq_some_iff` — so
  do the four readers of tokens;
* `regexBody_eq_some_iff`, `quotedBody_eq_some_iff` — what is read up to a closing slash or quote.
-/

variable {s t rest : List Char}

/-! ### Blanks -/

/-- What is skipped are blanks. -/
theorem blanks_skipBlanks (s : List Char) : Blanks s (skipBlanks s) := by
  induction s with
  | nil => exact .none
  | cons c s ih =>
    by_cases h : isBlank c = true
    · have hskip : skipBlanks (c :: s) = skipBlanks s := List.dropWhile_cons_of_pos h
      rw [hskip]
      exact .cons h ih
    · have hskip : skipBlanks (c :: s) = c :: s := List.dropWhile_cons_of_neg h
      rw [hskip]
      exact .none

namespace Blanks

/-- Blanks after blanks are blanks. -/
theorem trans {u : List Char} (h : Blanks s t) (h' : Blanks t u) : Blanks s u := by
  induction h with
  | none => exact h'
  | cons hc _ ih => exact .cons hc (ih h')

/-- Blanks do not change what is left when blanks are skipped. -/
theorem skipBlanks_eq (h : Blanks s t) : skipBlanks s = skipBlanks t := by
  induction h with
  | none => rfl
  | cons hc _ ih => exact (List.dropWhile_cons_of_pos hc).trans ih

/-- What is left of blanks is what skipping them leaves, if it does not begin with one. -/
theorem skipBlanks_cons_eq {c : Char} (h : Blanks s (c :: t)) (hc : isBlank c = false) :
    skipBlanks s = c :: t := by
  rw [h.skipBlanks_eq, skipBlanks_cons hc]

/-- What comes after blanks is a last part of the text. -/
theorem suffix (h : Blanks s t) : t <:+ s := by
  induction h with
  | none => exact List.suffix_refl _
  | cons _ _ ih => exact ih.trans (List.suffix_cons _ _)

end Blanks

/-! ### Longest tokens -/

/-- A reader that finds tokens of a kind and takes in all of any token that a text begins with finds the
longest token. -/
theorem eq_some_iff_longest {kind : List Char → Prop}
    {read : List Char → Option (List Char × List Char)}
    (hsound : ∀ {s token rest : List Char}, read s = some (token, rest) →
      token ++ rest = s ∧ kind token)
    (hgreedy : ∀ {token : List Char}, kind token → ∀ tail, ∃ more rest,
      read (token ++ tail) = some (token ++ more, rest)) {token : List Char} :
    read s = some (token, rest) ↔ token ++ rest = s ∧ Longest kind token rest := by
  constructor
  · intro h
    obtain ⟨happend, hkind⟩ := hsound h
    refine ⟨happend, hkind, ?_⟩
    intro more tail htail hmore hlonger
    -- the text begins with the longer token, so that it would have been taken in
    obtain ⟨further, after, hread⟩ := hgreedy hlonger tail
    rw [List.append_assoc, htail, happend, h, List.append_assoc] at hread
    have htoken : token = token ++ (more ++ further) := congrArg Prod.fst (Option.some.inj hread)
    have hnil : more ++ further = [] := List.self_eq_append_right.1 htoken
    exact hmore (List.append_eq_nil_iff.1 hnil).1
  · rintro ⟨rfl, hkind, hmaximal⟩
    obtain ⟨more, after, hread⟩ := hgreedy hkind rest
    obtain ⟨happend, hlonger⟩ := hsound hread
    rw [List.append_assoc] at happend
    have hrest : more ++ after = rest := List.append_cancel_left happend
    have hmore : more = [] := by
      by_contra hne
      exact hmaximal more after hrest hne hlonger
    rw [hmore, List.nil_append] at hrest
    rw [hread, hmore, hrest, List.append_nil]

/-! ### Runs of characters -/

section Run

variable {starts continues : Char → Bool} {token : List Char}

/-- If a token may go on with whatever it begins with, each of its characters may go on with it. -/
theorem Run.all (hstarts : ∀ c, starts c = true → continues c = true) (h : Run starts continues token) :
    ∀ c ∈ token, continues c = true := by
  obtain ⟨c, tail, rfl, hc, htail⟩ := h
  exact List.forall_mem_cons.2 ⟨hstarts c hc, htail⟩

/-- A run has a first character. -/
theorem Run.ne_nil (h : Run starts continues token) : token ≠ [] := by
  obtain ⟨c, tail, rfl, -, -⟩ := h
  exact List.cons_ne_nil c tail

/-- A token that is read is a run at the front of the text. -/
theorem token?_sound (hstarts : ∀ c, starts c = true → continues c = true)
    (h : token? starts continues s = some (token, rest)) :
    token ++ rest = s ∧ Run starts continues token := by
  refine ⟨token?_append_eq h, ?_⟩
  cases s with
  | nil => cases h
  | cons c s =>
    rw [token?] at h
    split at h
    · next hc =>
      rw [List.span_eq_takeWhile_dropWhile, List.takeWhile_cons_of_pos (hstarts c hc)] at h
      cases h
      exact ⟨c, s.takeWhile continues, rfl, hc, fun d hd => List.mem_takeWhile_imp hd⟩
    · cases h

/-- A run at the front of a text belongs to the token there. -/
theorem token?_greedy (hstarts : ∀ c, starts c = true → continues c = true)
    (h : Run starts continues token) (tail : List Char) :
    ∃ more rest, token? starts continues (token ++ tail) = some (token ++ more, rest) := by
  have hall := h.all hstarts
  have htake : (token ++ tail).takeWhile continues = token ++ tail.takeWhile continues :=
    List.takeWhile_append_of_pos hall
  obtain ⟨c, token', rfl, hc, -⟩ := h
  refine ⟨tail.takeWhile continues, (c :: token' ++ tail).dropWhile continues, ?_⟩
  rw [List.cons_append, token?, if_pos hc, List.span_eq_takeWhile_dropWhile, ← List.cons_append, htake]

/-- A run is read as far as it goes. -/
theorem token?_eq_some_iff (hstarts : ∀ c, starts c = true → continues c = true) :
    token? starts continues s = some (token, rest) ↔
      token ++ rest = s ∧ Longest (Run starts continues) token rest :=
  eq_some_iff_longest (token?_sound hstarts) (token?_greedy hstarts)

end Run

/-- A name is read just if it is the longest one at the front of the text. -/
theorem identifier?_eq_some_iff {name : List Char} :
    identifier? s = some (name, rest) ↔ name ++ rest = s ∧ Longest IsName name rest := by
  rw [identifier?_eq_token?]
  exact token?_eq_some_iff fun _ => continuesName_of_startsName

/-- A value without quotes is read just if it is the longest one at the front of the text. -/
theorem literal?_eq_some_iff {text : List Char} :
    literal? s = some (text, rest) ↔ text ++ rest = s ∧ Longest IsLiteral text rest := by
  rw [literal?_eq_token?]
  exact token?_eq_some_iff fun _ hc => (Bool.and_eq_true_iff.1 hc).1

/-- A number is the value of a token of digits. -/
theorem number?_eq_map (s : List Char) :
    number? s = (token? isDecimalDigit isDecimalDigit s).map fun p => (decimalValue p.1, p.2) := by
  unfold number?
  rw [List.span_eq_takeWhile_dropWhile]
  cases s with
  | nil => rfl
  | cons c s =>
    rw [token?]
    by_cases hc : isDecimalDigit c = true
    · rw [if_pos hc, List.span_eq_takeWhile_dropWhile, List.takeWhile_cons_of_pos hc]
      rfl
    · rw [if_neg hc, List.takeWhile_cons_of_neg hc]
      rfl

/-- A number is read just if its digits are the longest run of them at the front of the text. -/
theorem number?_eq_some_iff {n : Nat} :
    number? s = some (n, rest) ↔
      ∃ digits, digits ++ rest = s ∧ Longest IsNumber digits rest ∧ decimalValue digits = n := by
  have hread : ∀ digits, token? isDecimalDigit isDecimalDigit s = some (digits, rest) ↔
      digits ++ rest = s ∧ Longest IsNumber digits rest :=
    fun _ => token?_eq_some_iff fun _ => id
  rw [number?_eq_map, Option.map_eq_some_iff]
  constructor
  · rintro ⟨⟨digits, after⟩, htoken, hvalue⟩
    cases hvalue
    obtain ⟨happend, hlongest⟩ := (hread digits).1 htoken
    exact ⟨digits, happend, hlongest, rfl⟩
  · rintro ⟨digits, happend, hlongest, rfl⟩
    exact ⟨(digits, rest), (hread digits).2 ⟨happend, hlongest⟩, rfl⟩

/-! ### Labels -/

/-- Characters of names at the front belong to what joins a label. -/
theorem labelSuffix_run {run : List Char} (h : ∀ c ∈ run, continuesName c = true) (s : List Char) :
    labelSuffix (run ++ s) = (run ++ (labelSuffix s).1, (labelSuffix s).2) := by
  induction run with
  | nil => rfl
  | cons c run ih =>
    rw [List.forall_mem_cons] at h
    obtain ⟨hc, hrun⟩ := h
    rw [List.cons_append, labelSuffix, if_pos hc, ih hrun]
    · rfl
    · rintro _ _ rfl
      exact absurd hc (by decide)

/-- Subtypes are all read, and perhaps more. -/
theorem labelSuffix_flatMap {subtypes : List (List Char)}
    (h : ∀ subtype ∈ subtypes, Run continuesName continuesName subtype) (s : List Char) :
    ∃ more rest, labelSuffix (subtypes.flatMap (':' :: ·) ++ s) =
      (subtypes.flatMap (':' :: ·) ++ more, rest) := by
  induction subtypes with
  | nil => exact ⟨_, _, rfl⟩
  | cons subtype subtypes ih =>
    rw [List.forall_mem_cons] at h
    obtain ⟨⟨c, tail, rfl, hc, htail⟩, hsubtypes⟩ := h
    obtain ⟨more, rest, hmore⟩ := ih hsubtypes
    refine ⟨more, rest, ?_⟩
    simp only [List.flatMap_cons, List.cons_append, List.append_assoc]
    rw [labelSuffix, if_pos hc, labelSuffix_run htail, hmore]

/-- What is read is a run that goes on from what stands before, and subtypes after it. -/
theorem labelSuffix_sound {suffix : List Char} (h : labelSuffix s = (suffix, rest)) :
    ∃ run subtypes, suffix = run ++ List.flatMap (':' :: ·) subtypes ∧
      (∀ c ∈ run, continuesName c = true) ∧
      ∀ subtype ∈ subtypes, Run continuesName continuesName subtype := by
  fun_induction labelSuffix s generalizing suffix with
  | case1 =>
    cases h
    exact ⟨[], [], rfl, by simp, by simp⟩
  -- a colon and a character of a name begin one more subtype
  | case2 c s hc name after hname ih =>
    cases h
    obtain ⟨run, subtypes, rfl, hrun, hsubtypes⟩ := ih hname
    refine ⟨[], (c :: run) :: subtypes, by simp, by simp, ?_⟩
    rw [List.forall_mem_cons]
    exact ⟨⟨c, run, rfl, hc, hrun⟩, hsubtypes⟩
  | case3 c s hc =>
    cases h
    exact ⟨[], [], rfl, by simp, by simp⟩
  -- one more character of the subtype that is under way
  | case4 c s hcolon hc name after hname ih =>
    cases h
    obtain ⟨run, subtypes, rfl, hrun, hsubtypes⟩ := ih hname
    exact ⟨c :: run, subtypes, rfl, List.forall_mem_cons.2 ⟨hc, hrun⟩, hsubtypes⟩
  | case5 c s hcolon hc =>
    cases h
    exact ⟨[], [], rfl, by simp, by simp⟩

/-- A label goes on with whatever a name goes on with. -/
theorem continuesLabel_of_continuesName {c : Char} (h : continuesName c = true) :
    continuesLabel c = true := by
  rw [continuesLabel, h, Bool.true_or]

/-- A label that is read is one, at the front of the text. -/
theorem labelName?_sound {label : List Char} (h : labelName? s = some (label, rest)) :
    label ++ rest = s ∧ IsLabel label := by
  cases s with
  | nil => cases h
  | cons c s =>
    by_cases hc : startsName c = true
    · rw [labelName?_eq c s hc] at h
      -- the run before the first colon is taken apart from the subtypes after it
      cases hsuffix : labelSuffix ((c :: s).dropWhile continuesLabel) with
      | mk suffix after =>
        rw [hsuffix] at h
        cases h
        obtain ⟨run, subtypes, hrun, hrunAll, hsubtypes⟩ := labelSuffix_sound hsuffix
        have happend := labelSuffix_append_eq hsuffix
        have hc' := continuesLabel_of_continuesName (continuesName_of_startsName hc)
        refine ⟨?_, (c :: s).takeWhile continuesLabel ++ run, subtypes, ?_, ?_, hsubtypes⟩
        · rw [List.append_assoc, happend, List.takeWhile_append_dropWhile]
        · rw [hrun, List.append_assoc]
        · rw [List.takeWhile_cons_of_pos hc']
          refine ⟨c, s.takeWhile continuesLabel ++ run, rfl, hc, ?_⟩
          rw [List.forall_mem_append]
          exact ⟨fun d hd => List.mem_takeWhile_imp hd,
            fun d hd => continuesLabel_of_continuesName (hrunAll d hd)⟩
    · rw [labelName?, if_neg hc] at h
      cases h

/-- A label at the front of a text belongs to the one that is read there. -/
theorem labelName?_greedy {label : List Char} (h : IsLabel label) (tail : List Char) :
    ∃ more rest, labelName? (label ++ tail) = some (label ++ more, rest) := by
  obtain ⟨stem, subtypes, rfl, hstem, hsubtypes⟩ := h
  have hall : ∀ c ∈ stem, continuesLabel c = true :=
    hstem.all fun c hc => continuesLabel_of_continuesName (continuesName_of_startsName hc)
  obtain ⟨c, stem', rfl, hc, -⟩ := hstem
  have hread := labelName?_eq c (stem' ++ (subtypes.flatMap (':' :: ·) ++ tail)) hc
  rw [← List.cons_append, List.takeWhile_append_of_pos hall, List.dropWhile_append_of_pos hall] at hread
  rw [List.append_assoc, hread]
  cases subtypes with
  | nil =>
    rw [List.flatMap_nil, List.append_nil, List.append_assoc]
    exact ⟨_, _, rfl⟩
  | cons subtype subtypes =>
    -- the colon of the first subtype ends the stem
    have hcolon : ¬continuesLabel ':' = true := by decide
    have htext : (subtype :: subtypes).flatMap (':' :: ·) ++ tail =
        ':' :: (subtype ++ (subtypes.flatMap (':' :: ·) ++ tail)) := by simp
    obtain ⟨more, rest, hmore⟩ := labelSuffix_flatMap hsubtypes tail
    refine ⟨more, rest, ?_⟩
    rw [htext] at hmore ⊢
    rw [List.takeWhile_cons_of_neg hcolon, List.dropWhile_cons_of_neg hcolon, hmore]
    simp

/-- A label is read just if it is the longest one at the front of the text. -/
theorem labelName?_eq_some_iff {label : List Char} :
    labelName? s = some (label, rest) ↔ label ++ rest = s ∧ Longest IsLabel label rest :=
  eq_some_iff_longest labelName?_sound labelName?_greedy

/-! ### Between slashes and between quotes -/

/-- The written form of an expression is read as its body. -/
theorem regexBody_of_regexText {body written : List Char} (h : RegexText body written)
    (rest : List Char) : regexBody (written ++ '/' :: rest) = some (body, rest) := by
  induction h with
  | nil => rfl
  | slash _ ih => rw [List.cons_append, List.cons_append, regexBody_escapedSlash, ih]; rfl
  | pair hc _ ih => rw [List.cons_append, List.cons_append, regexBody_pair hc, ih]; rfl
  | plain hbackslash hslash _ ih => rw [List.cons_append, regexBody_cons hbackslash hslash, ih]; rfl

/-- Whatever is read as the body of an expression is a written form of it. -/
theorem exists_regexText_of_regexBody {body : List Char} (h : regexBody s = some (body, rest)) :
    ∃ written, RegexText body written ∧ s = written ++ '/' :: rest := by
  fun_induction regexBody s generalizing body with
  | case1 => cases h
  | case2 c s read after hread ih =>
    by_cases hc : c = '/'
    · rw [if_pos hc] at h
      cases h
      obtain ⟨written, hwritten, rfl⟩ := ih hread
      exact ⟨'\\' :: c :: written, hc ▸ .slash hwritten, rfl⟩
    · rw [if_neg hc] at h
      cases h
      obtain ⟨written, hwritten, rfl⟩ := ih hread
      exact ⟨'\\' :: c :: written, .pair hc hwritten, rfl⟩
  | case3 c s hread ih => cases h
  | case4 s =>
    cases h
    exact ⟨[], .nil, rfl⟩
  | case5 c s hpair hslash read after hread ih =>
    cases h
    have hbackslash : c ≠ '\\' := by
      -- a backslash that pairs with nothing ends the text, so that nothing is read after it
      rintro rfl
      cases s with
      | nil => cases hread
      | cons d s => exact hpair d s rfl rfl
    obtain ⟨written, hwritten, rfl⟩ := ih hread
    exact ⟨c :: written, .plain hbackslash hslash hwritten, rfl⟩
  | case6 c s hpair hslash hread ih => cases h

/-- What is read up to a slash is what is written of a body. -/
theorem regexBody_eq_some_iff {body : List Char} :
    regexBody s = some (body, rest) ↔ ∃ written, RegexText body written ∧ s = written ++ '/' :: rest := by
  constructor
  · exact exists_regexText_of_regexBody
  · rintro ⟨written, hwritten, rfl⟩
    exact regexBody_of_regexText hwritten rest

/-- The written form of a quoted text is read as the text. -/
theorem quotedBody_of_quotedText {text written : List Char} (h : QuotedText text written)
    (rest : List Char) : quotedBody (written ++ '"' :: rest) = some (text, rest) := by
  induction h with
  | nil => rfl
  | escaped _ ih => rw [List.cons_append, List.cons_append, quotedBody, ih]
  | plain hbackslash hquote _ ih => rw [List.cons_append, quotedBody_cons hbackslash hquote, ih]; rfl

/-- Whatever is read as a quoted text is a written form of it. -/
theorem exists_quotedText_of_quotedBody {text : List Char} (h : quotedBody s = some (text, rest)) :
    ∃ written, QuotedText text written ∧ s = written ++ '"' :: rest := by
  fun_induction quotedBody s generalizing text with
  | case1 => cases h
  | case2 c s read after hread ih =>
    cases h
    obtain ⟨written, hwritten, rfl⟩ := ih hread
    exact ⟨'\\' :: c :: written, .escaped hwritten, rfl⟩
  | case3 c s hread ih => cases h
  | case4 s =>
    cases h
    exact ⟨[], .nil, rfl⟩
  | case5 c s hpair hquote read after hread ih =>
    cases h
    -- a backslash that pairs with nothing is the end, and nothing is read after it
    have hbackslash : c ≠ '\\' := by
      rintro rfl
      cases s with
      | nil => cases hread
      | cons d s => exact hpair d s rfl rfl
    obtain ⟨written, hwritten, rfl⟩ := ih hread
    exact ⟨c :: written, .plain hbackslash hquote hwritten, rfl⟩
  | case6 c s hpair hquote hread ih => cases h

/-- What is read up to a quote is what is written of a text. -/
theorem quotedBody_eq_some_iff {text : List Char} :
    quotedBody s = some (text, rest) ↔ ∃ written, QuotedText text written ∧ s = written ++ '"' :: rest := by
  constructor
  · exact exists_quotedText_of_quotedBody
  · rintro ⟨written, hwritten, rfl⟩
    exact quotedBody_of_quotedText hwritten rest

end DependencyQuery.Pattern
