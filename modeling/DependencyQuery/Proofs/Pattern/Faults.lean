import DependencyQuery.Proofs.Pattern.Places

namespace DependencyQuery.Pattern

open Steps (bind_eq_error bind_eq_ok)
open Text (decimalValue isBlank isDecimalDigit skipBlanks)

/-!
# Faults point at what is wrong

* `readValue_fault`, `readTests_fault`, `readDescription_fault`, `readRelation_fault` — where a part is due and cannot
  be read, the fault fits the place it points at;
* `endsClauses_of_clauses` — clauses are read as far as there are any;
* `conjunction_fault`, `clauses_fault`, `alternatives_fault`, `link_fault`, `target_fault` — the same for the grammar,
  given three steps for each character, so that nothing is refused for want of steps;
* `compile_fault` — and for whole texts, with the place as a number of characters.
-/

variable {text s t rest inside : List Char} {fault : Fault}

/-! ### Tokens -/

/-- After blanks have been skipped, none comes next. -/
theorem isBlank_of_head?_skipBlanks (s : List Char) : ∀ c ∈ (skipBlanks s).head?, isBlank c = false := by
  intro c hc
  have hfirst := List.head?_dropWhile_not isBlank s
  rwa [show (s.dropWhile isBlank).head? = some c from hc] at hfirst

/-- A character does not come first just if the text does not begin with it. -/
theorem notMem_head?_iff {c : Char} : c ∉ s.head? ↔ ∀ tail, s ≠ c :: tail := by
  rw [Option.mem_def, List.head?_eq_some_iff, not_exists]

/-- Where no token is read, none begins. -/
theorem starts_of_token?_eq_none {starts continues : Char → Bool} (h : token? starts continues s = none) :
    ∀ c ∈ s.head?, starts c = false := by
  cases s with
  | nil => exact nofun
  | cons d s =>
    rw [token?] at h
    split at h
    · cases h
    · next hd => exact forall_head?_cons (Bool.eq_false_iff.2 hd) s

/-- Where there is no name, nothing comes that a name might begin with. -/
theorem startsName_of_identifier?_eq_none (h : identifier? s = none) : ∀ c ∈ s.head?, startsName c = false :=
  starts_of_token?_eq_none (identifier?_eq_token? ▸ h)

/-- Where there is no number, no digit comes. -/
theorem isDecimalDigit_of_number?_eq_none (h : number? s = none) : ∀ c ∈ s.head?, isDecimalDigit c = false := by
  rw [number?_eq_map, Option.map_eq_none_iff] at h
  exact starts_of_token?_eq_none h

/-- A character is missed where another one stands. -/
theorem expect_fault {c : Char} {what : Expectation} (h : expect c what s = .error (.fault fault rest)) :
    fault = .expected what s.head? ∧ rest = s ∧ c ∉ s.head? := by
  unfold expect at h
  split at h
  · split at h
    · cases h
    · next hd =>
      cases h
      exact ⟨rfl, rfl, fun hc => hd (Option.some.inj hc)⟩
  · cases h
    exact ⟨rfl, rfl, nofun⟩

section

variable [Text.CharacterNames]

/-- A regular expression is not closed, or is refused. -/
theorem readRegex_fault {invalid : String → Fault} {slash : List Char}
    (h : readRegex invalid slash s = .error (.fault fault rest)) :
    rest = slash ∧ ((fault = .unterminatedRegex ∧ Unclosed RegexText '/' s) ∨
      ∃ body written after e, s = written ++ '/' :: after ∧ RegexText body written ∧
        Regex.ofString (String.ofList body) = .error (.malformed e) ∧ fault = invalid (e.text body)) := by
  unfold readRegex at h
  split at h
  -- no slash closes the body
  · next hread =>
    cases h
    refine ⟨rfl, .inl ⟨rfl, ?_⟩⟩
    rintro body written after hwritten rfl
    rw [regexBody_of_regexText hwritten] at hread
    cases hread
  -- a body has been read, so the fault comes from the syntax of the regex
  · next body after hread =>
    obtain ⟨written, hwritten, rfl⟩ := exists_regexText_of_regexBody hread
    split at h
    · cases h
    · next e hregex =>
      cases h
      exact ⟨rfl, .inr ⟨body, written, after, e, rfl, hwritten, hregex, rfl⟩⟩
    · cases h

/-! ### Descriptions -/

/-- A fault in a value fits the place where it is told. -/
theorem readValue_fault {key : Attribute} (due : Due text (.value key) s) (hs : ∀ c ∈ s.head?, isBlank c = false)
    (h : readValue key s = .error (.fault fault rest)) : Fits text fault rest := by
  unfold readValue at h
  split at h
  · rcases bind_eq_error h with h | ⟨_, -, h⟩
    · obtain ⟨rfl, ⟨rfl, hunclosed⟩ | ⟨body, written, after, e, rfl, hwritten, hregex, rfl⟩⟩ := readRegex_fault h
      · exact .openValueRegex due hunclosed
      · exact .valueRegex due hwritten hregex
    · cases h
  · split at h
    · next hread =>
      cases h
      refine .openQuote due ?_
      rintro body written after hwritten rfl
      rw [quotedBody_of_quotedText hwritten] at hread
      cases hread
    · cases h
  · next hslash hquote =>
    split at h
    · next hread =>
      cases h
      rw [literal?_eq_token?] at hread
      refine .noValue due fun c hc => ?_
      -- what begins neither a literal nor one of the other values is one of two characters
      have hblank := hs c hc
      have hliteral := starts_of_token?_eq_none hread c hc
      have hslash : c ≠ '/' := fun h => notMem_head?_iff.2 hslash (h ▸ hc)
      have hquote : c ≠ '"' := fun h => notMem_head?_iff.2 hquote (h ▸ hc)
      simpa [continuesLiteral, hblank, hslash, hquote, or_iff_not_imp_left] using hliteral
    · cases h

/-- A fault in a test fits the place where it is told. -/
theorem readTest_fault {c : Char} (due : Due text (.tests inside) (c :: s)) (hblank : isBlank c = false)
    (hbrace : c ≠ '}') (h : readTest (c :: s) = .error (.fault fault rest)) : Fits text fault rest := by
  unfold readTest at h
  split at h
  -- no name begins here
  · next hname =>
    cases h
    exact .key due ⟨hblank, hbrace, startsName_of_identifier?_eq_none hname c rfl⟩
  · next name afterName hname =>
    obtain ⟨happend, hlongest⟩ := identifier?_eq_some_iff.1 hname
    rw [← happend] at due
    split at h
    -- a name that is none of the five keys
    · next hkey =>
      cases h
      rw [← happend]
      refine .unknownKey due hlongest fun key heq => ?_
      rw [← heq, String.ofList_toList, ofKey?_key] at hkey
      cases hkey
    -- a key: what is left to fail is the colon and the value
    · next key hkey =>
      have htext : name = key.key.toList := by
        rw [key_eq_of_ofKey? hkey, String.toList_ofList]
      rw [htext] at due hlongest
      have hblanks := blanks_skipBlanks afterName
      rcases bind_eq_error h with h | ⟨afterColon, hcolon, h⟩
      · obtain ⟨rfl, rfl, hother⟩ := expect_fault h
        refine .colon due hlongest hblanks fun d hd => ⟨isBlank_of_head?_skipBlanks _ d hd, ?_⟩
        rintro rfl
        exact hother hd
      · rw [expect_eq_ok_iff.1 hcolon] at hblanks
        rcases bind_eq_error h with h | ⟨_, -, h⟩
        · exact readValue_fault (.value due hblanks (blanks_skipBlanks afterColon)) (isBlank_of_head?_skipBlanks _) h
        · cases h

omit [Text.CharacterNames] in
/-- What is read between two tests separates them, up to the blanks before the second one. -/
theorem separator_skipBlanks (s : List Char) : Separator s (skipBlanks (accept ',' (skipBlanks s)).2) := by
  have hblanks := blanks_skipBlanks s
  cases haccept : accept ',' (skipBlanks s) with
  | mk comma after =>
    have hafter := blanks_skipBlanks after
    cases comma with
    | true =>
      rw [accept_eq_true_iff.1 haccept] at hblanks
      exact .comma hblanks hafter
    | false =>
      rw [(accept_eq_false_iff.1 haccept).1] at hblanks
      exact .blanks (hblanks.trans hafter)

/-- A fault in the tests of a description fits the place where it is told. -/
theorem readTests_fault {fuel : Nat} (due : Due text (.tests inside) (skipBlanks s)) (hfuel : s.length < fuel)
    (h : readTests ('{' :: inside) fuel s = .error (.fault fault rest)) : Fits text fault rest := by
  induction fuel generalizing s with
  | zero => cases h
  | succ fuel ih =>
    have hblanks := blanks_skipBlanks s
    have hfirst := isBlank_of_head?_skipBlanks s
    unfold readTests at h
    split at h
    · cases h
    -- the text ends before the brace is closed
    · next heq =>
      cases h
      rw [heq] at due
      exact .openTests due .none
    -- a test: it fails itself, or one of those after it does
    · next c tail hbrace heq =>
      rw [heq] at due hblanks hfirst
      rcases bind_eq_error h with h | ⟨⟨test, afterTest⟩, htest, h⟩
      · exact readTest_fault due (hfirst c rfl) hbrace h
      · have htest := readTest_eq_ok_iff.1 htest
        have hlength := length_accept_lt hblanks htest
        rcases bind_eq_error h with h | ⟨_, -, h⟩
        · exact ih (.moreTests due htest (separator_skipBlanks afterTest)) (by omega) h
        · cases h

omit [Text.CharacterNames] in
/-- A name is missed after its equals sign. -/
theorem readName_fault (h : readName s = .error (.fault fault rest)) :
    s = '=' :: rest ∧ fault = .noName ∧ ∀ c ∈ rest.head?, startsName c = false := by
  unfold readName at h
  split at h
  · split at h
    · next hname =>
      cases h
      exact ⟨rfl, rfl, startsName_of_identifier?_eq_none hname⟩
    · cases h
  · cases h

/-- After the tests of a description, its closing brace has been read. -/
theorem due_closingBrace {tests : List AttributeTest} (due : Due text (.tests inside) s)
    (h : TestsLayout tests s t) : Due text (.tests inside) ('}' :: t) := by
  induction h with
  | nil => exact due
  | cons first separator _ ih => exact ih (.moreTests due first separator)

/-- A fault in a description fits the place where it is told. -/
theorem readDescription_fault (due : Due text .description s)
    (h : readDescription s = .error (.fault fault rest)) : Fits text fault rest := by
  have hblanks := blanks_skipBlanks s
  have hfirst := isBlank_of_head?_skipBlanks s
  unfold readDescription at h
  cases haccept : accept '!' (skipBlanks s) with
  | mk negated after =>
    rw [haccept] at h
    -- the brace is looked for behind the mark and the blanks after it, or else where the mark might be
    have hbefore : BeforeBrace s (if negated then skipBlanks after else after) ∧
        ∀ c ∈ (if negated then skipBlanks after else after).head?, isBlank c = false := by
      cases negated with
      | true =>
        rw [accept_eq_true_iff.1 haccept] at hblanks
        exact ⟨.marked hblanks (blanks_skipBlanks after), isBlank_of_head?_skipBlanks after⟩
      | false =>
        obtain ⟨heq, hmark⟩ := accept_eq_false_iff.1 haccept
        rw [heq] at hblanks hfirst hmark
        exact ⟨.plain hblanks hmark, hfirst⟩
    obtain ⟨hbefore, hblank⟩ := hbefore
    rcases bind_eq_error h with h | ⟨inside, hinside, h⟩
    · obtain ⟨rfl, rfl, hother⟩ := expect_fault h
      refine .openBrace due hbefore fun c hc => ⟨hblank c hc, ?_⟩
      rintro rfl
      exact hother hc
    · have hopen := expect_eq_ok_iff.1 hinside
      dsimp only at h
      rw [hopen] at hbefore h
      rcases bind_eq_error h with h | ⟨⟨tests, afterTests⟩, htests, h⟩
      · exact readTests_fault (.tests due hbefore (blanks_skipBlanks inside)) (Nat.lt_succ_self _) h
      · rcases bind_eq_error h with h | ⟨_, -, h⟩
        · obtain ⟨rfl, rfl, hother⟩ := readName_fault h
          obtain ⟨t, ht, htests⟩ := (readTests_eq_ok_iff (Nat.lt_succ_self _)).1 htests
          exact .noName (.name (due_closingBrace (.tests due hbefore ht) htests)) hother
        · cases h

/-! ### Relations -/

omit [Text.CharacterNames] in
/-- What an exclamation mark may stand before comes after it. -/
theorem mark_of_accept {marked : Bool} (h : accept '!' s = (marked, t)) : Mark s t := by
  cases marked with
  | true =>
    rw [accept_eq_true_iff.1 h]
    exact .present
  | false =>
    obtain ⟨rfl, hmark⟩ := accept_eq_false_iff.1 h
    exact .absent hmark

omit [Text.CharacterNames] in
/-- Where no depth is read, no number begins one. -/
theorem number?_of_readDepth (h : readDepth s = .ok (none, rest)) : number? s = none := by
  unfold readDepth at h
  split at h
  · assumption
  · split at h
    · cases h
    · split at h <;> cases h
  · cases h

omit [Text.CharacterNames] in
/-- The parts of a relation before its operator are read up to where the operator should stand. -/
theorem beforeOperator_of_parts {before after : Bool} {depth : Option DepthRange}
    {onDepth afterDepth onOperator : List Char} (hbefore : accept '!' s = (before, onDepth))
    (hdepth : readDepth onDepth = .ok (depth, afterDepth))
    (hafter : (if before || depth.isNone then (false, afterDepth) else accept '!' afterDepth) =
      (after, onOperator)) : BeforeOperator depth s onOperator := by
  -- without a depth the mark can stand in one place only
  cases depth with
  | none =>
    rw [Option.isNone_none, Bool.or_true, if_pos rfl] at hafter
    cases hafter
    have hnumber := number?_of_readDepth hdepth
    obtain rfl : onDepth = afterDepth := readDepth_sound hdepth
    exact .plain (mark_of_accept hbefore) (isDecimalDigit_of_number?_eq_none hnumber)
  | some bounds =>
    have hdepth : DepthLayout bounds onDepth afterDepth := readDepth_sound hdepth
    rw [Option.isNone_some, Bool.or_false] at hafter
    -- with a depth it stands before the depth or after it, and not in both places
    cases before with
    | true =>
      cases hafter
      rw [accept_eq_true_iff.1 hbefore]
      exact .markedDepth hdepth
    | false =>
      rw [(accept_eq_false_iff.1 hbefore).1]
      exact .depth hdepth (mark_of_accept hafter)

omit [Text.CharacterNames] in
/-- Bounds are refused where the second is below the first. -/
theorem readDepth_fault (h : readDepth s = .error (.fault fault rest)) :
    ∃ n m after, s = n ++ ',' :: (m ++ after) ∧ Longest IsNumber n (',' :: (m ++ after)) ∧ Longest IsNumber m after ∧
      decimalValue m < decimalValue n ∧ fault = .depthBounds (decimalValue n) (decimalValue m) ∧ rest = s := by
  unfold readDepth at h
  split at h
  · -- no number at the front, and so no depth
    cases h
  · next least after hleast =>
    obtain ⟨n, rfl, hn, rfl⟩ := number?_eq_some_iff.1 hleast
    split at h
    · cases h
    -- both bounds are written, and they are out of order
    · next most after' hmost =>
      obtain ⟨m, rfl, hm, rfl⟩ := number?_eq_some_iff.1 hmost
      split at h
      · next hcrossed =>
        cases h
        exact ⟨n, m, after', rfl, hn, hm, hcrossed, rfl, rfl⟩
      · cases h
  · cases h

omit [Text.CharacterNames] in
/-- An operator is missed where none of its characters stands. -/
theorem readOperator_fault (h : readOperator s = .error (.fault fault rest)) :
    fault = .noOperator ∧ rest = s ∧ ∀ c ∈ s.head?, c ≠ '<' ∧ c ≠ '>' := by
  unfold readOperator at h
  split at h
  · cases h
  · cases h
  · cases h
  · cases h
  · next hup hdown =>
    cases h
    refine ⟨rfl, rfl, fun c hc => ⟨?_, ?_⟩⟩
    · rintro rfl
      exact notMem_head?_iff.2 hup hc
    · rintro rfl
      exact notMem_head?_iff.2 hdown hc

omit [Text.CharacterNames] in
/-- An operator that is not doubled is not followed by its own symbol. -/
theorem symbol_notMem_of_readOperator {direction : Direction} (h : readOperator s = .ok ((direction, false), t)) :
    Direction.symbol direction ∉ t.head? := by
  unfold readOperator at h
  split at h
  · cases h
  · cases h
  · next hdouble =>
    cases h
    exact notMem_head?_iff.2 hdouble
  · next hdouble =>
    cases h
    exact notMem_head?_iff.2 hdouble
  · cases h

/-- A fault in a label fits the place where it is told. -/
theorem readLabel_fault (due : Due text .label s) (h : readLabel s = .error (.fault fault rest)) :
    Fits text fault rest := by
  unfold readLabel at h
  split at h
  · rcases bind_eq_error h with h | ⟨_, -, h⟩
    · obtain ⟨rfl, ⟨rfl, hunclosed⟩ | ⟨body, written, after, e, rfl, hwritten, hregex, rfl⟩⟩ := readRegex_fault h
      · exact .openLabelRegex due hunclosed
      · exact .labelRegex due hwritten hregex
    · cases h
  · split at h <;> cases h

/-- A fault in a link fits the place where it is told. -/
theorem readRelation_fault (due : Due text .link s) (h : readRelation s = .error (.fault fault rest)) :
    Fits text fault rest := by
  unfold readRelation at h
  cases hbefore : accept '!' s with
  | mk before onDepth =>
    rw [hbefore] at h
    rcases bind_eq_error h with h | ⟨⟨depth, afterDepth⟩, hdepth, h⟩
    · obtain ⟨n, m, after, rfl, hn, hm, hcrossed, rfl, rfl⟩ := readDepth_fault h
      exact .depthBounds due (mark_of_accept hbefore) hn hm hcrossed
    · dsimp only at h
      cases hafter : (if before || depth.isNone then (false, afterDepth) else accept '!' afterDepth) with
      | mk after onOperator =>
        have hplace := beforeOperator_of_parts hbefore hdepth hafter
        rw [hafter] at h
        rcases bind_eq_error h with h | ⟨⟨⟨direction, isFar⟩, onLabel⟩, hoperator, h⟩
        · obtain ⟨rfl, rfl, hother⟩ := readOperator_fault h
          exact .noOperator due hplace hother
        · have hoperator : readOperator onOperator = .ok ((direction, isFar), onLabel) := hoperator
          rw [readOperator_sound hoperator] at hplace
          -- where the operator suits the depth, only the label is left to fail
          have hlabel : (isFar = true ∨ depth = none) → ∀ {reach : Reach}, (readLabel onLabel >>= fun read =>
              .ok (Link.mk direction reach read.1 (before || after), read.2)) = .error (.fault fault rest) →
              Fits text fault rest := by
            intro hfits reach h
            rcases bind_eq_error h with h | ⟨_, -, h⟩
            · exact readLabel_fault (.label due hplace hfits) h
            · cases h
          dsimp only at h
          split at h
          · exact hlabel (.inl rfl) h
          · exact hlabel (.inr rfl) h
          · cases h
            exact .depthOnDirect due hplace (symbol_notMem_of_readOperator hoperator)

/-! ### The grammar -/

omit [Text.CharacterNames] in
/-- After blanks and a part that is not empty, less is left than there was before them. -/
theorem Shorter.length_lt_of_blanks (h : Shorter rest t) (hblanks : Blanks s t) : rest.length < s.length :=
  Nat.lt_of_lt_of_le h.length_lt hblanks.suffix.length_le

/-- What stands behind a bracket and is read as alternatives makes a group. -/
theorem clauseLayout_of_alternatives {fuel : Nat} {bracket : List Char} {as : List (List Clause)}
    (h : alternatives fuel bracket s = .ok (as, rest)) : ClauseLayout (.group as) ('[' :: s) rest := by
  obtain ⟨t, ht, has⟩ := alternatives_sound fuel h
  exact .group ht has

/-- Clauses are read as far as there are any, given three steps for each character. -/
theorem endsClauses_of_clauses {fuel : Nat} {cs : List Clause} (hfuel : 3 * s.length + 1 ≤ fuel)
    (h : clauses fuel s = .ok (cs, rest)) : ∀ c ∈ rest.head?, endsClauses c = true := by
  -- every clause is shorter than the text, so the induction is on the fuel
  induction fuel generalizing s cs with
  | zero => cases hfuel
  | succ fuel ih =>
    have hblanks := blanks_skipBlanks s
    have hfirst := isBlank_of_head?_skipBlanks s
    rw [clauses] at h
    split at h
    -- the clauses go on with a bracket
    · next bracket heq =>
      rw [heq] at hblanks
      obtain ⟨⟨group, after⟩, hgroup, h⟩ := bind_eq_ok h
      obtain ⟨⟨more, after'⟩, hmore, h⟩ := bind_eq_ok h
      cases h
      have hlength := (clauseLayout_of_alternatives hgroup).shorter.length_lt_of_blanks hblanks
      exact ih (by omega) hmore
    -- they go on with a link, or end at a character that begins neither
    · next c tail hbracket heq =>
      rw [heq] at hblanks hfirst
      split at h
      · obtain ⟨⟨clause, after⟩, hclause, h⟩ := bind_eq_ok h
        obtain ⟨⟨more, after'⟩, hmore, h⟩ := bind_eq_ok h
        cases h
        have hlength := (link_sound fuel hclause).shorter.length_lt_of_blanks hblanks
        exact ih (by omega) hmore
      · next hstarts =>
        cases h
        have hblank : isBlank c = false := hfirst c rfl
        have hbracket : c ≠ '[' := fun h => hbracket (h ▸ rfl)
        refine forall_head?_cons ?_ tail
        simpa [endsClauses, hblank, hbracket] using hstarts
    · cases h
      rintro _ ⟨⟩

/-- After a tree there comes nothing that a clause might begin with. -/
theorem endsClauses_of_conjunction {fuel : Nat} {tree : PatternTree} (hfuel : 3 * s.length + 3 ≤ fuel)
    (h : conjunction fuel s = .ok (tree, rest)) : ∀ c ∈ rest.head?, endsClauses c = true := by
  cases fuel with
  | zero => cases hfuel
  | succ fuel =>
    rw [conjunction] at h
    obtain ⟨⟨d, after⟩, hd, h⟩ := bind_eq_ok h
    obtain ⟨⟨cs, after'⟩, hcs, h⟩ := bind_eq_ok h
    cases h
    obtain ⟨t, ht, hd⟩ := readDescription_sound hd
    have hlength := hd.shorter.length_lt_of_blanks ht
    exact endsClauses_of_clauses (by omega) hcs

-- By induction on the steps.  Each call is left with as many as `conjunction_complete` and its kin ask for, so that no
-- fault is one for want of steps; what has been read before the call makes the part due that it looks for.

mutual

/-- A fault in a tree fits the place where it is told. -/
theorem conjunction_fault : (fuel : Nat) → {s : List Char} → Due text .tree s → 3 * s.length + 3 ≤ fuel →
    conjunction fuel s = .error (.fault fault rest) → Fits text fault rest
  | 0, _, _, hfuel, _ => by cases hfuel
  | fuel + 1, s, due, hfuel, h => by
    rw [conjunction] at h
    rcases bind_eq_error h with h | ⟨⟨d, after⟩, hd, h⟩
    · exact readDescription_fault (.description due) h
    · obtain ⟨t, ht, hd⟩ := readDescription_sound hd
      have hlength := hd.shorter.length_lt_of_blanks ht
      rcases bind_eq_error h with h | ⟨_, -, h⟩
      · exact clauses_fault fuel (.clauses due ht hd) (by omega) h
      · cases h

/-- A fault in clauses fits the place where it is told. -/
theorem clauses_fault : (fuel : Nat) → {s : List Char} → Due text .clauses s → 3 * s.length + 1 ≤ fuel →
    clauses fuel s = .error (.fault fault rest) → Fits text fault rest
  | 0, _, _, hfuel, _ => by cases hfuel
  | fuel + 1, s, due, hfuel, h => by
    have hblanks := blanks_skipBlanks s
    rw [clauses] at h
    split at h
    -- a bracket begins here
    · next inside heq =>
      rw [heq] at hblanks
      have hinside := hblanks.suffix.length_le
      rw [List.length_cons] at hinside
      rcases bind_eq_error h with h | ⟨⟨group, after⟩, hgroup, h⟩
      · exact alternatives_fault fuel (.group due hblanks) (by omega) h
      · -- the bracket is whole, and the fault is in a clause after it
        have hgroup := clauseLayout_of_alternatives hgroup
        have hlength := hgroup.shorter.length_lt_of_blanks hblanks
        rcases bind_eq_error h with h | ⟨_, -, h⟩
        · exact clauses_fault fuel (.moreClauses due hblanks hgroup) (by omega) h
        · cases h
    -- a link begins here, or no clause at all
    · next c tail _ heq =>
      rw [heq] at hblanks
      have htail := hblanks.suffix.length_le
      split at h
      · next hstarts =>
        rcases bind_eq_error h with h | ⟨⟨clause, after⟩, hclause, h⟩
        · exact link_fault fuel (.link due hblanks ⟨c, rfl, hstarts⟩) (by omega) h
        · have hclause := link_sound fuel hclause
          have hlength := hclause.shorter.length_lt_of_blanks hblanks
          rcases bind_eq_error h with h | ⟨_, -, h⟩
          · exact clauses_fault fuel (.moreClauses due hblanks hclause) (by omega) h
          · cases h
      · cases h
    · cases h

/-- A fault in alternatives fits the place where it is told. -/
theorem alternatives_fault : (fuel : Nat) → {inside s : List Char} → Due text (.alternative inside) s →
    3 * s.length + 2 ≤ fuel → alternatives fuel ('[' :: inside) s = .error (.fault fault rest) →
    Fits text fault rest
  | 0, _, _, _, hfuel, _ => by cases hfuel
  | fuel + 1, inside, s, due, hfuel, h => by
    rw [alternatives] at h
    rcases bind_eq_error h with h | ⟨⟨cs, after⟩, hcs, h⟩
    · -- the fault is in one of the clauses
      exact clauses_fault fuel (.within due) (by omega) h
    · -- the clauses have been read, and what follows them is neither a bar nor a bracket
      have hends := endsClauses_of_clauses (by omega) hcs
      obtain ⟨u, hlayout, hu⟩ := clauses_sound fuel hcs
      dsimp only at h
      cases cs with
      | nil =>
        cases hlayout with
        | nil =>
          cases h
          exact .noRelationInGroup due hu hends
      | cons c cs =>
        rw [if_neg (by simp)] at h
        split at h
        · next tail =>
          have htail := hu.suffix.length_le
          have hs := hlayout.suffix.length_le
          rw [List.length_cons] at htail
          rcases bind_eq_error h with h | ⟨_, -, h⟩
          · exact alternatives_fault fuel (.nextAlternative due hlayout hu) (by omega) h
          · cases h
        · cases h
        · cases h
          exact .openGroup due hlayout hu
        · next d tail hbar hbracket =>
          cases h
          exact .barOrBracket due hlayout hu ⟨hends d rfl, hbar, hbracket⟩

/-- A fault in a link with its target fits the place where it is told. -/
theorem link_fault : (fuel : Nat) → {s : List Char} → Due text .link s → 3 * s.length ≤ fuel →
    link fuel s = .error (.fault fault rest) → Fits text fault rest
  -- a link that is due begins with a character, and no fuel means that there is none
  | 0, s, due, hfuel, _ => by
    cases due with
    | link _ _ starts =>
      obtain ⟨c, hc, -⟩ := starts
      obtain ⟨tail, rfl⟩ := List.head?_eq_some_iff.1 hc
      cases hfuel
  | fuel + 1, s, due, hfuel, h => by
    rw [link] at h
    rcases bind_eq_error h with h | ⟨⟨l, after⟩, hl, h⟩
    · exact readRelation_fault due h
    · -- the relation has been read, so that the fault is in its target
      have hl := readRelation_sound hl
      have hblanks := blanks_skipBlanks after
      have hlength := Nat.lt_of_le_of_lt hblanks.suffix.length_le hl.shorter.length_lt
      rcases bind_eq_error h with h | ⟨_, -, h⟩
      · exact target_fault fuel (.target due hl hblanks) (isBlank_of_head?_skipBlanks after) (by omega) h
      · cases h

/-- A fault in a target fits the place where it is told. -/
theorem target_fault : (fuel : Nat) → {s : List Char} → Due text .target s →
    (∀ c ∈ s.head?, isBlank c = false) → 3 * s.length + 2 ≤ fuel →
    target fuel s = .error (.fault fault rest) → Fits text fault rest
  | 0, _, _, _, hfuel, _ => by cases hfuel
  | fuel + 1, s, due, hs, hfuel, h => by
    unfold target at h
    split at h
    -- a tree in parentheses
    · next inside =>
      rw [List.length_cons] at hfuel
      rw [conjunction_skipBlanks (by omega)] at h
      rcases bind_eq_error h with h | ⟨⟨tree, after⟩, htree, h⟩
      · exact conjunction_fault fuel (.parenthesized due) (by omega) h
      · have hends := endsClauses_of_conjunction (by omega) htree
        obtain ⟨t, u, ht, hlayout, hu⟩ := conjunction_sound fuel htree
        dsimp only at h
        split at h
        · cases h
          exact .openTarget due ht hlayout hu
        -- what stands where the parenthesis should close is not one that closes
        · next hafter =>
          rcases bind_eq_error h with h | ⟨_, -, h⟩
          · obtain ⟨rfl, rfl, hother⟩ := expect_fault h
            obtain ⟨c, tail, rfl⟩ := List.exists_cons_of_ne_nil hafter
            refine .parenthesis due ht hlayout hu ⟨hends c rfl, ?_⟩
            rintro rfl
            exact hother rfl
          · cases h
    -- a description, or nothing that a target begins with
    · next c tail hparenthesis =>
      split at h
      · next hstarts =>
        rcases bind_eq_error h with h | ⟨_, -, h⟩
        · rw [Bool.or_eq_true, decide_eq_true_eq, decide_eq_true_eq] at hstarts
          exact readDescription_fault (.bare due ⟨c, rfl, hstarts⟩) h
        · cases h
      · next hstarts =>
        cases h
        refine .noTarget due (forall_head?_cons ⟨hs c rfl, ?_⟩ tail)
        have hparenthesis : c ≠ '(' := hparenthesis
        simpa [hparenthesis] using hstarts
    · cases h
      exact .noTarget due nofun

end

/-! ### Whole patterns -/

/-- A fault in further trees fits the place where it is told. -/
theorem moreTrees_fault {steps fuel : Nat} (due : Due text .trees s) (hblanks : Blanks s t)
    (hends : ∀ c ∈ t.head?, endsClauses c = true) (hfuel : t.length < fuel) (hsteps : 3 * t.length ≤ steps)
    (h : moreTrees steps fuel t = .error (.fault fault rest)) : Fits text fault rest := by
  induction fuel generalizing s t with
  | zero => cases h
  | succ fuel ih =>
    unfold moreTrees at h
    split at h
    · next tail =>
      rw [List.length_cons] at hfuel hsteps
      rcases bind_eq_error h with h | ⟨⟨tree, after⟩, htree, h⟩
      · exact conjunction_fault steps (.next due hblanks) hsteps h
      · -- the tree is in order, and the fault is in a tree after it
        have hends := endsClauses_of_conjunction hsteps htree
        obtain ⟨u, v, hu, htree, hv⟩ := conjunction_sound steps htree
        have hlength := (hv.suffix.trans (htree.shorter.suffix.trans hu.suffix)).length_le
        rcases bind_eq_error h with h | ⟨_, -, h⟩
        · exact ih (.nextEnd due hblanks hu htree) hv hends (by omega) (by omega) h
        · cases h
    · cases h
    -- what is left is no colon, so that the pattern ends before the text does
    · next c tail hcolon =>
      cases h
      exact .unexpected due hblanks ⟨hends c rfl, hcolon⟩

/-- A fault in a pattern fits the place where it is told. -/
theorem readPattern_fault (h : readPattern s = .error (.fault fault rest)) : Fits s fault rest := by
  unfold readPattern at h
  rcases bind_eq_error h with h | ⟨⟨first, after⟩, hfirst, h⟩
  · exact conjunction_fault _ .first (Nat.le_refl _) h
  · have hends := endsClauses_of_conjunction (Nat.le_refl _) hfirst
    obtain ⟨t, u, ht, hfirst, hu⟩ := conjunction_sound _ hfirst
    have hlength := (hu.suffix.trans (hfirst.shorter.suffix.trans ht.suffix)).length_le
    rcases bind_eq_error h with h | ⟨_, -, h⟩
    · exact moreTrees_fault (.firstEnd ht hfirst) hu hends (by omega) (by omega) h
    · cases h

/-- The place a fault points at lies within the text or at its end; the fault is what is wrong there, after all that
stands before it, and what the fault names is what stands there. -/
theorem compile_fault {text : String} {e : Malformed} (h : compile text = .error (.malformed e)) :
    e.position ≤ text.length ∧ Fits text.toList e.fault (text.toList.drop e.position) ∧
      e.fault.Names (text.toList.drop e.position) := by
  -- the reader reports what was left, and the position is counted from there
  have hplace : ∃ rest, e.position = text.toList.length - rest.length ∧ Fits text.toList e.fault rest := by
    unfold compile at h
    dsimp only at h
    split at h
    · next hblank =>
      cases h
      exact ⟨text.toList, (Nat.sub_self _).symm, .blank hblank⟩
    · split at h
      · cases h
      · next fault rest hread =>
        cases h
        exact ⟨rest, rfl, readPattern_fault hread⟩
      · cases h
  obtain ⟨rest, hposition, hfits⟩ := hplace
  -- what was left is an end of the text, and so what remains after that position
  obtain rfl : text.toList.drop e.position = rest := by
    rw [hposition]
    exact (List.suffix_iff_eq_drop.1 hfits.suffix).symm
  refine ⟨?_, hfits, hfits.names⟩
  rw [hposition, String.length_toList]
  exact Nat.sub_le _ _

end

/-- The first of two parentheses is never closed; what stands behind it is read to the end of the text before the fault
points back at it. -/
theorem compile_fault_openParenthesis :
    compile "{} > ({} > {}" = .error (.malformed ⟨.unbalanced '(', 5⟩) ∧
      5 ≤ "{} > ({} > {}".length ∧ Fits "{} > ({} > {}".toList (.unbalanced '(') "({} > {}".toList ∧
      "({} > {}".toList.head? = some '(' := by
  have h : compile "{} > ({} > {}" = .error (.malformed ⟨.unbalanced '(', 5⟩) := by decide +kernel
  exact ⟨h, compile_fault h⟩

end DependencyQuery.Pattern
