import DependencyQuery.Proofs.Pattern.Acceptance
import Mathlib.Data.List.Infix

namespace DependencyQuery.Pattern

open Steps (bind_eq_error)
open Text (isBlank skipBlanks)

/-!
# Regular expressions beyond the limits

Whether a text is a pattern can always be told, but for the regular expressions in it that ask for what
cannot be carried out.

* `Overreaches` — such a regular expression stands where one is looked for, after a colon or an operator;
* `readTests_beyond`, `readRelation_beyond`, `conjunction_beyond` and their kin — no step goes beyond a
  limit unless its text overreaches;
* `validate_of_not_overreaches` — a text that does not overreach is compiled or malformed, and `validate`
  tells which.
-/

section

variable [Text.CharacterNames] {s t rest : List Char} {limit : Regex.Limit}

/-! ### What goes beyond a limit -/

/-- A text that begins with a slash, and what is written up to the next one goes beyond a limit. -/
def BeginsBeyond (limit : Regex.Limit) (s : List Char) : Prop :=
  ∃ body written rest, s = '/' :: (written ++ '/' :: rest) ∧ RegexText body written ∧
    Regex.ofString (String.ofList body) = .error (.beyond limit)

/-- A text in which a regular expression goes beyond a limit, be it a value after a colon or a label after
an operator. -/
inductive Overreaches (limit : Regex.Limit) (s : List Char) : Prop
  | value {t u : List Char} (colon : (':' :: t) <:+ s) (blanks : Blanks t u)
      (regex : BeginsBeyond limit u)
  | label {direction : Direction} {t : List Char} (operator : (Direction.symbol direction :: t) <:+ s)
      (regex : BeginsBeyond limit t)

/-- What goes beyond a limit further on in a text does so in the text. -/
theorem Overreaches.of_suffix (h : Overreaches limit t) (hsuffix : t <:+ s) : Overreaches limit s := by
  cases h with
  | value colon blanks regex => exact .value (colon.trans hsuffix) blanks regex
  | label operator regex => exact .label (operator.trans hsuffix) regex

/-- Whether the regular expression at the front of a text goes beyond a limit. -/
def beginsBeyond (limit : Regex.Limit) : List Char → Bool
  | '/' :: s =>
    match regexBody s with
    | some (body, _) => Regex.ofString (String.ofList body) = .error (.beyond limit)
    | none => false
  | _ => false

/-- It can be computed whether a text begins with an expression that goes beyond a limit. -/
theorem beginsBeyond_iff : beginsBeyond limit s = true ↔ BeginsBeyond limit s := by
  constructor
  · intro h
    unfold beginsBeyond at h
    split at h
    · split at h
      · next body rest hread =>
        obtain ⟨written, hwritten, rfl⟩ := exists_regexText_of_regexBody hread
        exact ⟨body, written, rest, rfl, hwritten, of_decide_eq_true h⟩
      · cases h
    · cases h
  · rintro ⟨body, written, rest, rfl, hwritten, hbeyond⟩
    rw [beginsBeyond, regexBody_of_regexText hwritten]
    exact decide_eq_true hbeyond

/-- Whether a text overreaches right after its first character. -/
def overreachesFirst (limit : Regex.Limit) : List Char → Bool
  | ':' :: s => beginsBeyond limit (skipBlanks s)
  | '<' :: s => beginsBeyond limit s
  | '>' :: s => beginsBeyond limit s
  | _ => false

/-- It can be computed whether an expression beyond a limit begins anywhere in a text. -/
theorem overreaches_iff : s.tails.any (overreachesFirst limit) = true ↔ Overreaches limit s := by
  simp only [List.any_eq_true, List.mem_tails]
  constructor
  · -- a text overreaches at a colon or at either arrow
    rintro ⟨t, ht, h⟩
    unfold overreachesFirst at h
    split at h
    · exact .value ht (blanks_skipBlanks _) (beginsBeyond_iff.1 h)
    · have hoperator : (Direction.symbol .up :: _) <:+ s := ht
      exact .label hoperator (beginsBeyond_iff.1 h)
    · have hoperator : (Direction.symbol .down :: _) <:+ s := ht
      exact .label hoperator (beginsBeyond_iff.1 h)
    · cases h
  · intro h
    cases h with
    | value colon blanks regex =>
      refine ⟨_, colon, ?_⟩
      obtain ⟨body, written, rest, rfl, hregex⟩ := regex
      rw [overreachesFirst, blanks.skipBlanks_cons_eq (by decide)]
      exact beginsBeyond_iff.2 ⟨body, written, rest, rfl, hregex⟩
    | @label direction t operator regex =>
      cases direction <;> exact ⟨_, operator, beginsBeyond_iff.2 regex⟩

/-- So it can be decided whether a text goes beyond a limit. -/
instance : Decidable (Overreaches limit s) := decidable_of_iff _ overreaches_iff

/-! ### Steps in a row -/

omit [Text.CharacterNames] in
/-- A missed character is no limit. -/
theorem expect_ne_beyond {c : Char} {what : Expectation} : expect c what s ≠ .error (.beyond limit) := by
  intro h
  unfold expect at h
  split at h
  · split at h <;> cases h
  · cases h

omit [Text.CharacterNames] in
/-- A missed name is no limit. -/
theorem readName_ne_beyond : readName s ≠ .error (.beyond limit) := by
  intro h
  unfold readName at h
  split at h
  · split at h <;> cases h
  · cases h

omit [Text.CharacterNames] in
/-- A bad bound is no limit. -/
theorem readDepth_ne_beyond : readDepth s ≠ .error (.beyond limit) := by
  intro h
  unfold readDepth at h
  split at h
  · cases h
  · split at h
    · cases h
    · split at h <;> cases h
  · cases h

omit [Text.CharacterNames] in
/-- A missed operator is no limit. -/
theorem readOperator_ne_beyond : readOperator s ≠ .error (.beyond limit) := by
  intro h
  unfold readOperator at h
  split at h <;> cases h

/-! ### Descriptions -/

/-- A regular expression that is beyond a limit begins at its slash. -/
theorem readRegex_beyond {invalid : String → Fault} {slash : List Char}
    (h : readRegex invalid slash s = .error (.beyond limit)) : BeginsBeyond limit ('/' :: s) := by
  unfold readRegex at h
  split at h
  · cases h
  · next body after hbody =>
    obtain ⟨written, hwritten, rfl⟩ := regexBody_eq_some_iff.1 hbody
    split at h
    · cases h
    · cases h
    · next hregex =>
      cases h
      exact ⟨body, written, after, rfl, hwritten, hregex⟩

/-- A value that goes beyond a limit begins with the expression that does. -/
theorem readValue_beyond {key : Attribute} (h : readValue key s = .error (.beyond limit)) :
    BeginsBeyond limit s := by
  unfold readValue at h
  split at h
  · rcases bind_eq_error h with h | ⟨_, -, h⟩
    · exact readRegex_beyond h
    · cases h
  · split at h <;> cases h
  · split at h <;> cases h

/-- A test goes beyond a limit only if the text does. -/
theorem readTest_beyond (h : readTest s = .error (.beyond limit)) : Overreaches limit s := by
  unfold readTest at h
  split at h
  · cases h
  · next name afterName hname =>
    split at h
    · cases h
    · have hsuffix : afterName <:+ s := by
        rw [← (identifier?_eq_some_iff.1 hname).1]
        exact List.suffix_append name afterName
      rcases bind_eq_error h with h | ⟨afterColon, hcolon, h⟩
      · exact absurd h expect_ne_beyond
      · have hblanks := (blanks_skipBlanks afterName).suffix
        rw [expect_eq_ok_iff.1 hcolon] at hblanks
        rcases bind_eq_error h with h | ⟨_, -, h⟩
        · exact .value (hblanks.trans hsuffix) (blanks_skipBlanks afterColon) (readValue_beyond h)
        · cases h

/-- Tests go beyond a limit only if the text does. -/
theorem readTests_beyond {brace : List Char} {fuel : Nat}
    (h : readTests brace fuel s = .error (.beyond limit)) : Overreaches limit s := by
  -- each reader passes a limit on from the part that met it, and that part is an end of the text
  induction fuel generalizing s with
  | zero => cases h
  | succ fuel ih =>
    have hblanks := (blanks_skipBlanks s).suffix
    unfold readTests at h
    split at h
    · cases h
    · cases h
    -- a test: the limit is met in it or after it
    · next c tail _ heq =>
      rw [heq] at hblanks
      rcases bind_eq_error h with h | ⟨⟨test, afterTest⟩, htest, h⟩
      · exact (readTest_beyond h).of_suffix hblanks
      · have hlater : (accept ',' (skipBlanks afterTest)).2 <:+ s :=
          ((accept_suffix _ _).trans (blanks_skipBlanks afterTest).suffix).trans
            ((readTest_eq_ok_iff.1 htest).shorter.suffix.trans hblanks)
        rcases bind_eq_error h with h | ⟨_, -, h⟩
        · exact (ih h).of_suffix hlater
        · cases h

/-- A description goes beyond a limit only if the text does. -/
theorem readDescription_beyond (h : readDescription s = .error (.beyond limit)) : Overreaches limit s := by
  have hafter := (accept_suffix '!' (skipBlanks s)).trans (blanks_skipBlanks s).suffix
  unfold readDescription at h
  cases haccept : accept '!' (skipBlanks s) with
  | mk negated after =>
    rw [haccept] at h hafter
    rcases bind_eq_error h with h | ⟨inside, hinside, h⟩
    · -- a missing brace is a fault of the pattern and no limit
      exact absurd h expect_ne_beyond
    · have hbrace : (if negated = true then skipBlanks after else after) <:+ s := by
        split
        · exact (blanks_skipBlanks after).suffix.trans hafter
        · exact hafter
      have hopen : (if negated = true then skipBlanks after else after) = '{' :: inside :=
        expect_eq_ok_iff.1 hinside
      rw [hopen] at hbrace
      rcases bind_eq_error h with h | ⟨_, -, h⟩
      · exact (readTests_beyond h).of_suffix ((List.suffix_cons _ _).trans hbrace)
      · rcases bind_eq_error h with h | ⟨_, -, h⟩
        · exact absurd h readName_ne_beyond
        · cases h

/-! ### Relations -/

/-- A label that goes beyond a limit begins with the expression that does. -/
theorem readLabel_beyond (h : readLabel s = .error (.beyond limit)) : BeginsBeyond limit s := by
  unfold readLabel at h
  split at h
  · rcases bind_eq_error h with h | ⟨_, -, h⟩
    · exact readRegex_beyond h
    · cases h
  · split at h <;> cases h

omit [Text.CharacterNames] in
/-- Bounds leave a last part of the text. -/
theorem readDepth_suffix {depth : Option DepthRange} (h : readDepth s = .ok (depth, rest)) :
    rest <:+ s := by
  have hdepth := readDepth_sound h
  cases depth with
  | none =>
    obtain rfl : s = rest := hdepth
    exact List.suffix_refl s
  | some bounds => exact (show DepthLayout bounds s rest from hdepth).shorter.suffix

omit [Text.CharacterNames] in
/-- The last character of an operator is the symbol of its direction. -/
theorem symbol_suffix (direction : Direction) (isFar : Bool) (s : List Char) :
    (Direction.symbol direction :: s) <:+ operatorText direction isFar ++ s := by
  cases isFar with
  | true => exact List.suffix_cons _ _
  | false => exact List.suffix_refl _

/-- A link goes beyond a limit only if the text does. -/
theorem readRelation_beyond (h : readRelation s = .error (.beyond limit)) : Overreaches limit s := by
  have honDepth := accept_suffix '!' s
  unfold readRelation at h
  cases hbefore : accept '!' s with
  | mk before onDepth =>
    rw [hbefore] at h honDepth
    rcases bind_eq_error h with h | ⟨⟨depth, afterDepth⟩, hdepth, h⟩
    · exact absurd h readDepth_ne_beyond
    · -- the second exclamation mark is looked for only after a depth, and takes at most itself away
      have honOperator : (if before || depth.isNone then (false, afterDepth)
          else accept '!' afterDepth).2 <:+ s := by
        have hafterDepth : afterDepth <:+ s := (readDepth_suffix hdepth).trans honDepth
        split
        · exact hafterDepth
        · exact (accept_suffix _ _).trans hafterDepth
      dsimp only at h
      cases hafter : (if before || depth.isNone then (false, afterDepth) else accept '!' afterDepth) with
      | mk after onOperator =>
        rw [hafter] at h honOperator
        rcases bind_eq_error h with h | ⟨⟨⟨direction, isFar⟩, onLabel⟩, hoperator, h⟩
        · exact absurd h readOperator_ne_beyond
        · rw [readOperator_sound hoperator] at honOperator
          have honLabel := (symbol_suffix direction isFar onLabel).trans honOperator
          -- whatever the depth and the operator say together, the label is read the same way
          have hlabel : ∀ {reach : Reach}, (readLabel onLabel >>= fun read =>
              .ok (Link.mk direction reach read.1 (before || after), read.2)) =
              .error (.beyond limit) → Overreaches limit s := by
            intro reach h
            rcases bind_eq_error h with h | ⟨_, -, h⟩
            · exact .label honLabel (readLabel_beyond h)
            · cases h
          dsimp only at h
          split at h
          · exact hlabel h
          · exact hlabel h
          · cases h

/-! ### The grammar -/

/-- A description leaves a last part of the text. -/
theorem readDescription_suffix {d : Description} (h : readDescription s = .ok (d, rest)) : rest <:+ s := by
  obtain ⟨t, ht, hd⟩ := readDescription_sound h
  exact hd.shorter.suffix.trans ht.suffix

/-- A tree leaves a last part of the text. -/
theorem conjunction_suffix {fuel : Nat} {tree : PatternTree} (h : conjunction fuel s = .ok (tree, rest)) :
    rest <:+ s := by
  obtain ⟨t, u, ht, htree, hu⟩ := conjunction_sound fuel h
  exact hu.suffix.trans (htree.shorter.suffix.trans ht.suffix)

/-- Clauses leave a last part of the text. -/
theorem clauses_suffix {fuel : Nat} {cs : List Clause} (h : clauses fuel s = .ok (cs, rest)) :
    rest <:+ s := by
  obtain ⟨u, hcs, hu⟩ := clauses_sound fuel h
  exact hu.suffix.trans (hcs.suffix)

/-- Alternatives leave a last part of the text. -/
theorem alternatives_suffix {fuel : Nat} {bracket : List Char} {as : List (List Clause)}
    (h : alternatives fuel bracket s = .ok (as, rest)) : rest <:+ s := by
  obtain ⟨t, ht, has⟩ := alternatives_sound fuel h
  exact has.suffix.trans ht.suffix

mutual

/-- A tree goes beyond a limit only if the text does. -/
theorem conjunction_beyond : (fuel : Nat) → {s : List Char} →
    conjunction fuel s = .error (.beyond limit) → Overreaches limit s
  | 0, _, h => by cases h
  | fuel + 1, s, h => by
    rw [conjunction] at h
    rcases bind_eq_error h with h | ⟨⟨d, after⟩, hd, h⟩
    · exact readDescription_beyond h
    · rcases bind_eq_error h with h | ⟨_, -, h⟩
      · exact (clauses_beyond fuel h).of_suffix (readDescription_suffix hd)
      · cases h

/-- Clauses go beyond a limit only if the text does. -/
theorem clauses_beyond : (fuel : Nat) → {s : List Char} →
    clauses fuel s = .error (.beyond limit) → Overreaches limit s
  | 0, _, h => by cases h
  | fuel + 1, s, h => by
    have hblanks := (blanks_skipBlanks s).suffix
    rw [clauses] at h
    split at h
    -- a bracket: the limit is met inside or after it
    · next bracket heq =>
      rw [heq] at hblanks
      have hinside := (List.suffix_cons _ _).trans hblanks
      rcases bind_eq_error h with h | ⟨⟨group, after⟩, hgroup, h⟩
      · exact (alternatives_beyond fuel h).of_suffix hinside
      · rcases bind_eq_error h with h | ⟨_, -, h⟩
        · exact (clauses_beyond fuel h).of_suffix ((alternatives_suffix hgroup).trans hinside)
        · cases h
    -- a link: the limit is met in it or after it
    · next c tail _ heq =>
      rw [heq] at hblanks
      split at h
      · rcases bind_eq_error h with h | ⟨⟨clause, after⟩, hclause, h⟩
        · exact (link_beyond fuel h).of_suffix hblanks
        · rcases bind_eq_error h with h | ⟨_, -, h⟩
          · exact (clauses_beyond fuel h).of_suffix
              ((link_sound fuel hclause).shorter.suffix.trans hblanks)
          · cases h
      · cases h
    · cases h

/-- Alternatives go beyond a limit only if the text does. -/
theorem alternatives_beyond : (fuel : Nat) → {bracket s : List Char} →
    alternatives fuel bracket s = .error (.beyond limit) → Overreaches limit s
  | 0, _, _, h => by cases h
  | fuel + 1, bracket, s, h => by
    rw [alternatives] at h
    rcases bind_eq_error h with h | ⟨⟨cs, after⟩, hcs, h⟩
    · exact clauses_beyond fuel h
    · have hafter := clauses_suffix hcs
      -- an alternative without clauses is refused without a limit
      dsimp only at h
      split at h
      · cases h
      · split at h
        · rcases bind_eq_error h with h | ⟨_, -, h⟩
          · exact (alternatives_beyond fuel h).of_suffix ((List.suffix_cons _ _).trans hafter)
          · cases h
        · cases h
        · cases h
        · cases h

/-- A link with its target goes beyond a limit only if the text does. -/
theorem link_beyond : (fuel : Nat) → {s : List Char} →
    link fuel s = .error (.beyond limit) → Overreaches limit s
  | 0, _, h => by cases h
  | fuel + 1, s, h => by
    rw [link] at h
    rcases bind_eq_error h with h | ⟨⟨l, after⟩, hl, h⟩
    · exact readRelation_beyond h
    · have hafter := (readRelation_sound hl).shorter.suffix
      rcases bind_eq_error h with h | ⟨_, -, h⟩
      · exact (target_beyond fuel h).of_suffix ((blanks_skipBlanks after).suffix.trans hafter)
      · cases h

/-- A target goes beyond a limit only if the text does. -/
theorem target_beyond : (fuel : Nat) → {s : List Char} →
    target fuel s = .error (.beyond limit) → Overreaches limit s
  | 0, _, h => by cases h
  | fuel + 1, s, h => by
    unfold target at h
    split at h
    -- a tree in parentheses
    · next inside =>
      rcases bind_eq_error h with h | ⟨⟨tree, after⟩, -, h⟩
      · have hinside := (blanks_skipBlanks inside).suffix.trans (List.suffix_cons '(' inside)
        exact (conjunction_beyond fuel h).of_suffix hinside
      · dsimp only at h
        split at h
        · cases h
        · rcases bind_eq_error h with h | ⟨_, -, h⟩
          · exact absurd h expect_ne_beyond
          · cases h
    · split at h
      · rcases bind_eq_error h with h | ⟨_, -, h⟩
        · exact readDescription_beyond h
        · cases h
      · cases h
    · cases h

end

/-! ### Whole patterns -/

/-- Further trees go beyond a limit only if the text does. -/
theorem moreTrees_beyond {steps fuel : Nat} (h : moreTrees steps fuel s = .error (.beyond limit)) :
    Overreaches limit s := by
  induction fuel generalizing s with
  | zero => cases h
  | succ fuel ih =>
    unfold moreTrees at h
    split at h
    · next tail =>
      have htail := List.suffix_cons ':' tail
      rcases bind_eq_error h with h | ⟨⟨tree, after⟩, htree, h⟩
      · exact (conjunction_beyond steps h).of_suffix htail
      · rcases bind_eq_error h with h | ⟨_, -, h⟩
        · exact (ih h).of_suffix ((conjunction_suffix htree).trans htail)
        · cases h
    · cases h
    · cases h

/-- A pattern goes beyond a limit only if the text does. -/
theorem readPattern_beyond (h : readPattern s = .error (.beyond limit)) : Overreaches limit s := by
  unfold readPattern at h
  rcases bind_eq_error h with h | ⟨⟨first, after⟩, hfirst, h⟩
  · exact conjunction_beyond _ h
  · rcases bind_eq_error h with h | ⟨_, -, h⟩
    · exact (moreTrees_beyond h).of_suffix (conjunction_suffix hfirst)
    · cases h

/-- Compiling goes beyond a limit only if the text does. -/
theorem compile_beyond {text : String} (h : compile text = .error (.beyond limit)) :
    Overreaches limit text.toList := by
  unfold compile at h
  dsimp only at h
  split at h
  · cases h
  · split at h
    · cases h
    · cases h
    · next hread =>
      cases h
      exact readPattern_beyond hread

/-- A text in which no regular expression goes beyond a limit is compiled or malformed, and is told to be
a pattern just if it is compiled. -/
theorem validate_of_not_overreaches {text : String} (h : ∀ limit, ¬Overreaches limit text.toList) :
    ((∃ p, compile text = .ok p) ∨ ∃ e, compile text = .error (.malformed e)) ∧
      (validate text = .ok none ↔ ∃ p, compile text = .ok p) ∧
      ∀ e, validate text = .ok (some e) ↔ compile text = .error (.malformed e) := by
  unfold validate
  cases hcompile : compile text with
  | ok p => simp
  | error refusal =>
    cases refusal with
    | malformed e => simp
    | beyond limit => exact absurd (compile_beyond hcompile) (h limit)

end

/-- A text with two regular expressions, neither of which goes beyond a limit. -/
theorem validate_of_not_overreaches_twoRegexes :
    (∀ limit, ¬Overreaches limit "{word:/a+/} >/nsubj.*/ {}".toList) ∧
      ((∃ p, compile "{word:/a+/} >/nsubj.*/ {}" = .ok p) ∨
        ∃ e, compile "{word:/a+/} >/nsubj.*/ {}" = .error (.malformed e)) := by
  have h : ∀ limit, ¬Overreaches limit "{word:/a+/} >/nsubj.*/ {}".toList := by
    intro limit
    cases limit <;> decide +kernel
  exact ⟨h, (validate_of_not_overreaches h).1⟩

/-- More rounds than can be counted, asked for in a value and in a label: neither text is compiled or told
to be malformed. -/
theorem compile_beyond_tooManyRounds :
    compile "{word:/a{4294967295}/}" = .error (.beyond .tooManyRounds) ∧
      validate "{word:/a{4294967295}/}" = .error .tooManyRounds ∧
      compile "{} >/a{4294967295}/ {}" = .error (.beyond .tooManyRounds) ∧
      validate "{} >/a{4294967295}/ {}" = .error .tooManyRounds := by
  decide +kernel

end DependencyQuery.Pattern
