import DependencyQuery.Proofs.Pattern.Lexemes

namespace DependencyQuery.Pattern

open Steps (bind_eq_ok ok_bind)
open Text (decimalZeros decimalValue digitBlock? isBlank isDecimalDigit skipBlanks)

/-!
# Descriptions and relations are read where the grammar has them

* `Shorter` — what is left after something has been read; `TestLayout.shorter`,
  `DescriptionLayout.shorter`, `LinkLayout.shorter` — descriptions and relations take up a part of the
  text, and `Blanks.suffix`, `LabelLayout.suffix` — other parts may take up none;
* `DescriptionLayout.exists_cons`, `LinkLayout.exists_cons` — what descriptions and relations begin with;
* `readValue_eq_ok_iff`, `readTest_eq_ok_iff`, `readTests_eq_ok_iff` — values and tests are read just
  where they are laid out, and so is a description: `readDescription_sound`, `readDescription_complete`;
* `readRelation_sound`, `readRelation_complete` — and a relation too, which a target has to follow.
-/

variable {s t u rest : List Char}

/-! ### What is left -/

/-- What is left at the end of a text of which something has been read. -/
structure Shorter (rest s : List Char) : Prop where
  suffix : rest <:+ s
  length_lt : rest.length < s.length

namespace Shorter

/-- A text is shorter than one with a character before it. -/
theorem cons {c : Char} (h : rest <:+ s) : Shorter rest (c :: s) :=
  ⟨h.trans (List.suffix_cons c s), Nat.lt_succ_of_le h.length_le⟩

/-- A text is shorter than one with more before it. -/
theorem append {front : List Char} (hfront : front ≠ []) (h : rest <:+ s) : Shorter rest (front ++ s) := by
  have hlength : 0 < front.length := List.length_pos_iff.2 hfront
  refine ⟨h.trans (List.suffix_append front s), ?_⟩
  have := h.length_le
  rw [List.length_append]
  omega

/-- What is left of a text is shorter than whatever the text is shorter than. -/
theorem suffix_trans (h : rest <:+ s) (h' : Shorter s t) : Shorter rest t :=
  ⟨h.trans h'.suffix, Nat.lt_of_le_of_lt h.length_le h'.length_lt⟩

end Shorter

/-- A separator takes up a front part of the text. -/
theorem Separator.suffix (h : Separator s rest) : rest <:+ s := by
  cases h with
  | blanks only => exact only.suffix
  | comma before after => exact after.suffix.trans ((List.suffix_cons _ _).trans before.suffix)

variable [Text.CharacterNames]

/-- A value takes up a front part of the text. -/
theorem ValueLayout.suffix {v : ValueTest} (h : ValueLayout v s rest) : rest <:+ s := by
  cases h with
  | literal _ => exact List.suffix_append _ _
  | quoted _ =>
    exact ((List.suffix_cons _ _).trans (List.suffix_append _ _)).trans (List.suffix_cons _ _)
  | regex _ =>
    exact ((List.suffix_cons _ _).trans (List.suffix_append _ _)).trans (List.suffix_cons _ _)

/-- A test takes up some of the text. -/
theorem TestLayout.shorter {test : AttributeTest} (h : TestLayout test s rest) : Shorter rest s := by
  cases h with
  | @test key v s t u _ beforeColon afterColon value =>
    have hs : rest <:+ s :=
      (value.suffix.trans afterColon.suffix).trans ((List.suffix_cons _ _).trans beforeColon.suffix)
    exact .append (by cases key <;> decide) hs

/-- Tests take up a front part of the text. -/
theorem TestsLayout.suffix {tests : List AttributeTest} (h : TestsLayout tests s rest) : rest <:+ s := by
  induction h with
  | nil => exact List.suffix_cons _ _
  | cons first separator _ ih => exact (ih.trans separator.suffix).trans first.shorter.suffix

omit [Text.CharacterNames] in
/-- A name takes up a front part of the text, if there is one. -/
theorem NameLayout.suffix {name : Option String} (h : NameLayout name s rest) : rest <:+ s := by
  cases h with
  | none => exact List.suffix_refl _
  | some _ => exact (List.suffix_append _ _).trans (List.suffix_cons _ _)

/-- A description takes up some of the text. -/
theorem DescriptionLayout.shorter {d : Description} (h : DescriptionLayout d s rest) :
    Shorter rest s := by
  induction h with
  | plain blanks inside named =>
    exact .cons ((named.suffix.trans inside.suffix).trans blanks.suffix)
  | negated blanks _ ih => exact .cons (ih.suffix.trans blanks.suffix)

/-- A label takes up a front part of the text. -/
theorem LabelLayout.suffix {label : Option LabelFilter} (h : LabelLayout label s rest) : rest <:+ s := by
  cases h with
  | none => exact List.suffix_refl _
  | name _ => exact List.suffix_append _ _
  | regex _ =>
    exact ((List.suffix_cons _ _).trans (List.suffix_append _ _)).trans (List.suffix_cons _ _)

omit [Text.CharacterNames] in
/-- Bounds take up some of the text. -/
theorem DepthLayout.shorter {bounds : DepthRange} (h : DepthLayout bounds s rest) : Shorter rest s := by
  cases h with
  | exactly number => exact .append number.valid.ne_nil (List.suffix_refl _)
  | between least _ _ =>
    exact .append least.valid.ne_nil ((List.suffix_append _ _).trans (List.suffix_cons _ _))
  | atLeast least => exact .append least.valid.ne_nil (List.suffix_cons _ _)

/-- A link takes up some of the text. -/
theorem LinkLayout.shorter {l : Link} (h : LinkLayout l s rest) : Shorter rest s := by
  induction h with
  | direct labels => exact .append (List.cons_ne_nil _ _) labels.suffix
  | far labels => exact .append (List.cons_ne_nil _ _) labels.suffix
  | bounded depth labels =>
    exact .suffix_trans (labels.suffix.trans (List.suffix_append _ _)) depth.shorter
  | negated _ ih => exact .cons ih.suffix
  | boundedNegated depth labels =>
    exact .suffix_trans ((labels.suffix.trans (List.suffix_append _ _)).trans (List.suffix_cons _ _))
      depth.shorter

/-! ### What may come first -/

omit [Text.CharacterNames] in
/-- Letters and digits lie in three runs of code points. -/
theorem toNat_of_isAlphanum {c : Char} (h : c.isAlphanum = true) :
    (48 ≤ c.toNat ∧ c.toNat ≤ 57) ∨ (65 ≤ c.toNat ∧ c.toNat ≤ 90) ∨ (97 ≤ c.toNat ∧ c.toNat ≤ 122) := by
  have hletter : c.isAlpha = (decide (c.val ≥ 'A'.val ∧ c.val ≤ 'Z'.val) ||
      (decide (c.val ≥ 'a'.val) && decide (c.val ≤ 'z'.val))) := rfl
  have hvalue : c.val.toNat = c.toNat := rfl
  have hdigits : '0'.toNat = 48 ∧ '9'.toNat = 57 := by decide
  simp only [Char.isAlphanum, hletter, Bool.or_eq_true, Bool.and_eq_true, decide_eq_true_eq,
    Char.isDigit_iff_toNat, ge_iff_le, UInt32.le_iff_toNat_le, Char.reduceVal, UInt32.reduceToNat] at h
  omega

omit [Text.CharacterNames] in
/-- No name goes on with a blank. -/
theorem continuesName_of_isBlank {c : Char} (h : isBlank c = true) : continuesName c = false := by
  rw [Bool.eq_false_iff]
  intro hname
  rw [continuesName, Bool.or_eq_true, decide_eq_true_eq] at hname
  simp only [isBlank, Bool.or_eq_true, Bool.and_eq_true, decide_eq_true_eq, beq_iff_eq] at h
  rcases hname with hname | rfl
  · have := toNat_of_isAlphanum hname
    omega
  · exact absurd h (by decide)

omit [Text.CharacterNames] in
/-- The blocks of digits lie between the blanks. -/
theorem decimalZeros_apart : ∀ first ∈ decimalZeros, (32 < first ∧ first + 10 ≤ 0x85) ∨
    (0xA0 < first ∧ first + 10 ≤ 0x1680) ∨ (0x1680 < first ∧ first + 10 ≤ 0x2000) ∨ 0x3000 < first := by
  decide

omit [Text.CharacterNames] in
/-- No digit is a blank. -/
theorem isBlank_of_isDecimalDigit {c : Char} (h : isDecimalDigit c = true) : isBlank c = false := by
  rw [isDecimalDigit, Option.isSome_iff_exists] at h
  obtain ⟨first, hfirst⟩ := h
  have hmem := List.mem_of_find?_eq_some hfirst
  have hrange := List.find?_some hfirst
  rw [Bool.and_eq_true, decide_eq_true_eq, decide_eq_true_eq] at hrange
  have hapart := decimalZeros_apart first hmem
  rw [Bool.eq_false_iff]
  intro hblank
  simp only [isBlank, Bool.or_eq_true, Bool.and_eq_true, decide_eq_true_eq, beq_iff_eq] at hblank
  omega

omit [Text.CharacterNames] in
/-- No link begins with a blank. -/
theorem isBlank_of_startsRelation {c : Char} (h : startsRelation c = true) : isBlank c = false := by
  simp only [startsRelation, Bool.or_eq_true, decide_eq_true_eq] at h
  rcases h with ((rfl | rfl) | rfl) | h
  · decide
  · decide
  · decide
  · exact isBlank_of_isDecimalDigit h

/-- A value does not begin with a blank. -/
theorem ValueLayout.exists_cons {v : ValueTest} (h : ValueLayout v s rest) :
    ∃ c tail, s = c :: tail ∧ isBlank c = false := by
  cases h with
  | literal longest =>
    obtain ⟨c, tail, rfl, hc, -⟩ := longest.valid
    simp only [continuesLiteral, Bool.and_eq_true, Bool.not_eq_true'] at hc
    exact ⟨c, tail ++ rest, rfl, hc.1.1.1.1⟩
  | quoted _ => exact ⟨'"', _, rfl, by decide⟩
  | regex _ => exact ⟨'/', _, rfl, by decide⟩

/-- A test begins neither with a blank nor with a closing brace or a comma. -/
theorem TestLayout.exists_cons {test : AttributeTest} (h : TestLayout test s rest) :
    ∃ c tail, s = c :: tail ∧ isBlank c = false ∧ c ≠ '}' ∧ c ≠ ',' := by
  cases h with
  | @test key _ _ _ _ _ _ _ _ => cases key <;> exact ⟨_, _, rfl, by decide⟩

/-- Tests begin neither with a blank nor with a comma. -/
theorem TestsLayout.exists_cons {tests : List AttributeTest} (h : TestsLayout tests s rest) :
    ∃ c tail, s = c :: tail ∧ isBlank c = false ∧ c ≠ ',' := by
  cases h with
  | nil => exact ⟨'}', _, rfl, by decide⟩
  | cons first _ _ =>
    obtain ⟨c, tail, hs, hblank, -, hcomma⟩ := first.exists_cons
    exact ⟨c, tail, hs, hblank, hcomma⟩

/-- A description begins with its brace, or with an exclamation mark. -/
theorem DescriptionLayout.exists_cons {d : Description} (h : DescriptionLayout d s rest) :
    ∃ c tail, s = c :: tail ∧ (c = '{' ∨ c = '!') := by
  cases h with
  | plain _ _ _ => exact ⟨'{', _, rfl, .inl rfl⟩
  | negated _ _ => exact ⟨'!', _, rfl, .inr rfl⟩

omit [Text.CharacterNames] in
/-- Bounds begin with a digit. -/
theorem DepthLayout.exists_cons {bounds : DepthRange} (h : DepthLayout bounds s rest) :
    ∃ c tail, s = c :: tail ∧ isDecimalDigit c = true := by
  cases h with
  | exactly number =>
    obtain ⟨c, tail, rfl, hc, -⟩ := number.valid
    exact ⟨c, _, rfl, hc⟩
  | between least _ _ =>
    obtain ⟨c, tail, rfl, hc, -⟩ := least.valid
    exact ⟨c, _, rfl, hc⟩
  | atLeast least =>
    obtain ⟨c, tail, rfl, hc, -⟩ := least.valid
    exact ⟨c, _, rfl, hc⟩

/-- A link begins with an exclamation mark, with a bound or with its operator. -/
theorem LinkLayout.exists_cons {l : Link} (h : LinkLayout l s rest) :
    ∃ c tail, s = c :: tail ∧ startsRelation c = true := by
  have hdepth : ∀ {bounds : DepthRange} {rest : List Char}, DepthLayout bounds s rest →
      ∃ c tail, s = c :: tail ∧ startsRelation c = true := by
    intro bounds rest depth
    obtain ⟨c, tail, hs, hc⟩ := depth.exists_cons
    exact ⟨c, tail, hs, by rw [startsRelation, hc, Bool.or_true]⟩
  cases h with
  | @direct direction _ _ _ _ => cases direction <;> exact ⟨_, _, rfl, by decide⟩
  | @far direction _ _ _ _ => cases direction <;> exact ⟨_, _, rfl, by decide⟩
  | bounded depth _ => exact hdepth depth
  | negated _ => exact ⟨'!', _, rfl, by decide⟩
  | boundedNegated depth _ => exact hdepth depth

/-! ### Values and tests -/

/-- A regular expression is read just if its written form stands before the closing slash. -/
theorem readRegex_eq_ok_iff {invalid : String → Fault} {slash : List Char} {r : Regex} :
    readRegex invalid slash s = .ok (r, rest) ↔
      ∃ written, RegexText r.source.toList written ∧ s = written ++ '/' :: rest := by
  rw [← regexBody_eq_some_iff]
  constructor
  · intro h
    unfold readRegex at h
    split at h
    · -- no slash closes the body, so nothing was read
      cases h
    · next body after hbody =>
      split at h
      · next regex hregex =>
        cases h
        -- the source is kept as it stands, which the compiled regex gives back
        rw [hbody, Regex.source_of_ofString hregex, String.toList_ofList]
      · cases h
      · cases h
  · intro h
    rw [readRegex, h]
    dsimp only
    rw [String.ofList_toList, Regex.ofString_source]

/-- A value is read just where it is laid out. -/
theorem readValue_eq_ok_iff {key : Attribute} {v : ValueTest} :
    readValue key s = .ok (v, rest) ↔ ValueLayout v s rest := by
  constructor
  · intro h
    unfold readValue at h
    split at h
    · -- a slash: a regular expression
      obtain ⟨⟨r, after⟩, hr, h⟩ := bind_eq_ok h
      cases h
      obtain ⟨written, hwritten, rfl⟩ := readRegex_eq_ok_iff.1 hr
      exact .regex hwritten
    · -- a quote: a text in quotes
      split at h
      · cases h
      · next text after htext =>
        cases h
        obtain ⟨written, hwritten, rfl⟩ := quotedBody_eq_some_iff.1 htext
        exact .quoted hwritten
    · -- anything else: a word without quotes
      split at h
      · cases h
      · next text after htext =>
        cases h
        obtain ⟨rfl, hlongest⟩ := literal?_eq_some_iff.1 htext
        exact .literal hlongest
  · intro h
    cases h with
    | @literal token _ longest =>
      -- a word begins with neither a slash nor a quote, so the other two forms do not apply
      have hread : literal? (token ++ rest) = some (token, rest) := literal?_eq_some_iff.2 ⟨rfl, longest⟩
      obtain ⟨c, tail, rfl, hc, -⟩ := longest.valid
      simp only [continuesLiteral, Bool.and_eq_true, decide_eq_true_eq] at hc
      obtain ⟨⟨-, hquote⟩, hslash⟩ := hc
      rw [List.cons_append] at hread ⊢
      rw [readValue]
      · rw [hread]
      · exact fun _ h => hslash (List.cons.inj h).1
      · exact fun _ h => hquote (List.cons.inj h).1
    | quoted quotes => rw [readValue, quotedBody_eq_some_iff.2 ⟨_, quotes, rfl⟩]
    | regex slashes =>
      rw [readValue, readRegex_eq_ok_iff.2 ⟨_, slashes, rfl⟩]
      rfl

omit [Text.CharacterNames] in
/-- A character is passed just if it comes next. -/
theorem expect_eq_ok_iff {c : Char} {what : Expectation} :
    expect c what s = .ok rest ↔ s = c :: rest := by
  cases s with
  | nil => exact ⟨nofun, nofun⟩
  | cons d s =>
    rw [expect]
    by_cases h : d = c
    · rw [if_pos h, h, List.cons.injEq, Except.ok.injEq]
      simp
    · rw [if_neg h, List.cons.injEq]
      simp [h, failAt]

omit [Text.CharacterNames] in
/-- The attribute with a key has that key. -/
theorem key_eq_of_ofKey? {name : String} {key : Attribute} (h : Attribute.ofKey? name = some key) :
    key.key = name := by
  have := List.find?_some h
  exact of_decide_eq_true this

omit [Text.CharacterNames] in
/-- What blanks lead to begins with a blank or is all of the text. -/
theorem Blanks.head? {c : Char} (h : Blanks s (c :: t)) : ∀ d ∈ s.head?, isBlank d = true ∨ d = c := by
  intro d hd
  cases h with
  | none =>
    cases hd
    exact .inr rfl
  | cons blank _ =>
    cases hd
    exact .inl blank

/-- A test is read just where it is laid out. -/
theorem readTest_eq_ok_iff {test : AttributeTest} :
    readTest s = .ok (test, rest) ↔ TestLayout test s rest := by
  constructor
  · intro h
    unfold readTest at h
    -- no name, and then an unknown one: neither can be read
    split at h
    · cases h
    · next name afterName hname =>
      split at h
      · cases h
      · next key hkey =>
        obtain ⟨afterColon, hcolon, h⟩ := bind_eq_ok h
        obtain ⟨⟨v, after⟩, hv, h⟩ := bind_eq_ok h
        cases h
        -- the key was found by its name, so the name is what the key is written as
        have htext : key.key.toList = name := by
          rw [key_eq_of_ofKey? hkey, String.toList_ofList]
        have hblanks : Blanks afterName (':' :: afterColon) := by
          rw [← expect_eq_ok_iff.1 hcolon]
          exact blanks_skipBlanks afterName
        rw [← (identifier?_eq_some_iff.1 hname).1, ← htext]
        exact .test hblanks (blanks_skipBlanks afterColon) (readValue_eq_ok_iff.1 hv)
  · intro h
    cases h with
    | @test key v s t u _ beforeColon afterColon value =>
      -- neither a blank nor a colon continues a name, so the name ends where the key does
      have hname : identifier? (key.key.toList ++ s) = some (key.key.toList, s) := by
        apply identifier?_append (identifier?_key key)
        intro c hc
        rcases beforeColon.head? c hc with hblank | rfl
        · exact continuesName_of_isBlank hblank
        · decide
      obtain ⟨c, tail, rfl, hc⟩ := value.exists_cons
      rw [readTest, hname]
      dsimp only
      rw [String.ofList_toList, ofKey?_key]
      dsimp only
      rw [beforeColon.skipBlanks_cons_eq (by decide), expect_eq_ok_iff.2 rfl, ok_bind,
        afterColon.skipBlanks_cons_eq hc, readValue_eq_ok_iff.2 value, ok_bind]
      rfl

omit [Text.CharacterNames] in
/-- A character is accepted if it comes next. -/
theorem accept_eq_true_iff {c : Char} : accept c s = (true, rest) ↔ s = c :: rest := by
  cases s with
  | nil => exact ⟨nofun, nofun⟩
  | cons d s =>
    rw [accept]
    by_cases h : d = c <;> simp [h]

omit [Text.CharacterNames] in
/-- Where a character does not come next, nothing is passed. -/
theorem accept_eq_false_iff {c : Char} : accept c s = (false, rest) ↔ s = rest ∧ c ∉ s.head? := by
  cases s with
  | nil => simp [accept]
  | cons d s =>
    rw [accept]
    by_cases h : d = c <;> simp [h]

omit [Text.CharacterNames] in
/-- What is read between two tests separates them. -/
theorem separator_accept {c : Char} (hblank : isBlank c = false) (hcomma : c ≠ ',') :
    Separator s (c :: t) ↔ Blanks (accept ',' (skipBlanks s)).2 (c :: t) := by
  have hblanks := blanks_skipBlanks s
  cases haccept : accept ',' (skipBlanks s) with
  | mk comma after =>
    -- with a comma the blanks are on both sides of it, without one they run on
    cases comma with
    | true =>
      rw [accept_eq_true_iff] at haccept
      rw [haccept] at hblanks
      constructor
      · intro h
        cases h with
        | blanks only =>
          rw [only.skipBlanks_cons_eq hblank] at haccept
          exact absurd (List.cons.inj haccept).1 hcomma
        | comma before more =>
          rw [before.skipBlanks_cons_eq (by decide)] at haccept
          rwa [← (List.cons.inj haccept).2]
      · exact fun h => .comma hblanks h
    | false =>
      rw [accept_eq_false_iff] at haccept
      obtain ⟨rfl, hnone⟩ := haccept
      constructor
      · intro h
        cases h with
        | blanks only =>
          rw [only.skipBlanks_cons_eq hblank]
          exact .none
        | comma before more =>
          rw [before.skipBlanks_cons_eq (by decide)] at hnone
          exact absurd rfl hnone
      · exact fun h => .blanks (hblanks.trans h)

omit [Text.CharacterNames] in
/-- Accepting a character leaves a last part of the text. -/
theorem accept_suffix (c : Char) (s : List Char) : (accept c s).2 <:+ s := by
  cases h : accept c s with
  | mk found after =>
    cases found with
    | true =>
      rw [accept_eq_true_iff.1 h]
      exact List.suffix_cons c after
    | false =>
      obtain ⟨rfl, -⟩ := accept_eq_false_iff.1 h
      exact List.suffix_refl s

/-- Blanks before tests are passed over. -/
theorem readTests_skipBlanks (brace : List Char) (fuel : Nat) (s : List Char) :
    readTests brace (fuel + 1) (skipBlanks s) = readTests brace (fuel + 1) s := by
  rw [readTests, readTests, skipBlanks_skipBlanks]

/-- After a test, less is left than there was before the blanks that stand before it. -/
theorem length_accept_lt {test : AttributeTest} (hs : Blanks s t) (h : TestLayout test t u) :
    (accept ',' (skipBlanks u)).2.length < s.length := by
  have haccept := ((accept_suffix ',' (skipBlanks u)).trans (blanks_skipBlanks u).suffix).length_le
  exact Nat.lt_of_le_of_lt haccept (Nat.lt_of_lt_of_le h.shorter.length_lt hs.suffix.length_le)

/-- Tests are read just where they are laid out, given more steps than there are characters. -/
theorem readTests_eq_ok_iff {brace : List Char} {fuel : Nat} {tests : List AttributeTest}
    (hfuel : s.length < fuel) :
    readTests brace fuel s = .ok (tests, rest) ↔ ∃ t, Blanks s t ∧ TestsLayout tests t rest := by
  induction fuel generalizing s tests with
  | zero => exact absurd hfuel (Nat.not_lt_zero _)
  | succ fuel ih =>
    have hblanks := blanks_skipBlanks s
    constructor
    · -- from what was read to its layout: the closing brace, the end of the text, one more test
      intro h
      unfold readTests at h
      split at h
      · next heq =>
        cases h
        exact ⟨_, heq ▸ hblanks, .nil⟩
      · cases h
      · next c tail hne heq =>
        obtain ⟨⟨test, afterTest⟩, hread, h⟩ := bind_eq_ok h
        obtain ⟨⟨more, after⟩, hmore, h⟩ := bind_eq_ok h
        cases h
        rw [heq] at hblanks
        have htest : TestLayout test (c :: tail) afterTest := readTest_eq_ok_iff.1 hread
        have hlength : (accept ',' (skipBlanks afterTest)).2.length < fuel :=
          Nat.lt_of_lt_of_le (length_accept_lt hblanks htest) (Nat.le_of_lt_succ hfuel)
        obtain ⟨t, ht, hmore⟩ := (ih hlength).1 hmore
        obtain ⟨d, tail', rfl, hd, hcomma⟩ := hmore.exists_cons
        exact ⟨_, hblanks, .cons htest ((separator_accept hd hcomma).2 ht) hmore⟩
    · -- from a layout to what is read, along the tests
      rintro ⟨t, ht, htests⟩
      cases htests with
      | nil =>
        rw [readTests, ht.skipBlanks_cons_eq (by decide)]
        rfl
      | @cons test tests _ afterTest u _ first separator more =>
        have hlength : (accept ',' (skipBlanks afterTest)).2.length < fuel :=
          Nat.lt_of_lt_of_le (length_accept_lt ht first) (Nat.le_of_lt_succ hfuel)
        obtain ⟨c, tail, rfl, hblank, hbrace, -⟩ := first.exists_cons
        obtain ⟨d, tail', rfl, hd, hcomma⟩ := more.exists_cons
        have hmore : readTests brace fuel (accept ',' (skipBlanks afterTest)).2 = .ok (tests, rest) :=
          (ih hlength).2 ⟨_, (separator_accept hd hcomma).1 separator, more⟩
        rw [← readTests_skipBlanks, ht.skipBlanks_cons_eq hblank, readTests_cons hblank hbrace,
          readTest_eq_ok_iff.2 first, ok_bind]
        dsimp only
        rw [hmore, ok_bind]
        rfl

/-! ### Descriptions -/

omit [Text.CharacterNames] in
/-- A name that is read is laid out as one. -/
theorem readName_sound {name : Option String} (h : readName s = .ok (name, rest)) :
    NameLayout name s rest := by
  unfold readName at h
  split at h
  · split at h
    · cases h
    · next text after htext =>
      cases h
      obtain ⟨rfl, hlongest⟩ := identifier?_eq_some_iff.1 htext
      exact .some hlongest
  · cases h
    exact .none

omit [Text.CharacterNames] in
/-- A name is read, unless an equals sign is mistaken for its announcement. -/
theorem readName_complete {name : Option String} (h : NameLayout name s rest) (hrest : '=' ∉ rest.head?) :
    readName s = .ok (name, rest) := by
  cases h with
  | none =>
    unfold readName
    split
    · exact absurd rfl hrest
    · rfl
  | some longest => rw [readName, identifier?_eq_some_iff.2 ⟨rfl, longest⟩]

/-- A description that is read is laid out as one, perhaps after blanks. -/
theorem readDescription_sound {d : Description} (h : readDescription s = .ok (d, rest)) :
    ∃ t, Blanks s t ∧ DescriptionLayout d t rest := by
  unfold readDescription at h
  have hblanks := blanks_skipBlanks s
  cases haccept : accept '!' (skipBlanks s) with
  | mk negated after =>
    rw [haccept] at h
    obtain ⟨inside, hinside, h⟩ := bind_eq_ok h
    obtain ⟨⟨tests, afterTests⟩, htests, h⟩ := bind_eq_ok h
    obtain ⟨⟨name, afterName⟩, hname, h⟩ := bind_eq_ok h
    cases h
    obtain ⟨t, ht, htests⟩ := (readTests_eq_ok_iff (Nat.lt_succ_self _)).1 htests
    have hbraces : DescriptionLayout ⟨tests, false, name⟩ ('{' :: inside) rest :=
      .plain ht htests (readName_sound hname)
    have hopen := expect_eq_ok_iff.1 hinside
    refine ⟨skipBlanks s, hblanks, ?_⟩
    -- only a negated description may have blanks before its brace
    cases negated with
    | false =>
      rw [(accept_eq_false_iff.1 haccept).1, show after = '{' :: inside from hopen]
      exact hbraces
    | true =>
      rw [accept_eq_true_iff.1 haccept]
      refine .negated ?_ hbraces
      rw [← show skipBlanks after = '{' :: inside from hopen]
      exact blanks_skipBlanks after

/-- A description is read where it is laid out, unless an equals sign follows that is none of it. -/
theorem readDescription_complete {d : Description} (h : DescriptionLayout d s rest)
    (hrest : '=' ∉ rest.head?) : readDescription s = .ok (d, rest) := by
  have hbraces : ∀ (negated : Bool) {tests : List AttributeTest} {name : Option String}
      {inside t u : List Char}, Blanks inside t → TestsLayout tests t u → NameLayout name u rest →
      readDescription ((if negated then ['!'] else []) ++ '{' :: inside) =
        .ok (⟨tests, negated, name⟩, rest) := by
    intro negated tests name inside t u hblanks htests hname
    have hread : readTests ('{' :: inside) (inside.length + 1) inside = .ok (tests, u) :=
      (readTests_eq_ok_iff (Nat.lt_succ_self _)).2 ⟨t, hblanks, htests⟩
    rw [readDescription_open, hread, ok_bind]
    dsimp only
    rw [readName_complete hname hrest, ok_bind]
    rfl
  cases h with
  | plain blanks inside named => exact hbraces false blanks inside named
  | @negated tests name s t _ blanks description =>
    cases description with
    | plain blanks' inside named =>
      -- the blanks after the exclamation mark are skipped before the brace is looked for
      have hskip : readDescription ('!' :: s) = readDescription ('!' :: skipBlanks s) := by
        rw [readDescription, readDescription, skipBlanks_cons (by decide), skipBlanks_cons (by decide)]
        simp only [accept, if_true, skipBlanks_skipBlanks]
      rw [hskip, blanks.skipBlanks_cons_eq (by decide)]
      exact hbraces true blanks' inside named

/-! ### Relations -/

omit [Text.CharacterNames] in
/-- Bounds that are read are laid out as such, and where none are read none begin. -/
theorem readDepth_sound {depth : Option DepthRange} (h : readDepth s = .ok (depth, rest)) :
    match depth with
    | some bounds => DepthLayout bounds s rest
    | none => s = rest := by
  unfold readDepth at h
  split at h
  · -- no depth is written
    cases h
    rfl
  · next least after hleast =>
    obtain ⟨digits, rfl, hdigits, rfl⟩ := number?_eq_some_iff.1 hleast
    -- least and comma alone, or both bounds
    split at h
    · cases h
      exact .atLeast hdigits
    · next most after' hmost =>
      obtain ⟨digits', rfl, hdigits', rfl⟩ := number?_eq_some_iff.1 hmost
      split at h
      · cases h
      · next hle =>
        cases h
        exact .between hdigits hdigits' (Nat.le_of_not_lt hle)
  -- one number alone
  · next least after hcomma hleast =>
    cases h
    obtain ⟨digits, rfl, hdigits, rfl⟩ := number?_eq_some_iff.1 hleast
    exact .exactly hdigits

omit [Text.CharacterNames] in
/-- A depth is read where it is laid out, and where neither a comma nor a digit follows that might be
taken for a part of it. -/
theorem readDepth_complete {bounds : DepthRange} (h : DepthLayout bounds s rest)
    (hrest : ∀ c ∈ rest.head?, c ≠ ',' ∧ isDecimalDigit c = false) :
    readDepth s = .ok (some bounds, rest) := by
  cases h with
  | exactly number =>
    rw [readDepth, number?_eq_some_iff.2 ⟨_, rfl, number, rfl⟩]
    split
    -- no number, a comma after it, or the number alone: only the last one can be
    · next heq => cases heq
    · next heq =>
      cases heq
      exact absurd rfl (hrest ',' rfl).1
    · next heq =>
      cases heq
      rfl
  | between least most ordered =>
    rw [readDepth_of_comma (number?_eq_some_iff.2 ⟨_, rfl, least, rfl⟩),
      number?_eq_some_iff.2 ⟨_, rfl, most, rfl⟩]
    dsimp only
    rw [if_neg (Nat.not_lt.2 ordered)]
  | atLeast least =>
    rw [readDepth_of_comma (number?_eq_some_iff.2 ⟨_, rfl, least, rfl⟩),
      number?_eq_none fun c hc => (hrest c hc).2]

omit [Text.CharacterNames] in
/-- An operator that is read is written as one. -/
theorem readOperator_sound {direction : Direction} {isFar : Bool}
    (h : readOperator s = .ok ((direction, isFar), rest)) : s = operatorText direction isFar ++ rest := by
  unfold readOperator at h
  split at h <;> cases h <;> rfl

/-- A label that is read is laid out as one. -/
theorem readLabel_sound {label : Option LabelFilter} (h : readLabel s = .ok (label, rest)) :
    LabelLayout label s rest := by
  unfold readLabel at h
  split at h
  · obtain ⟨⟨r, after⟩, hr, h⟩ := bind_eq_ok h
    cases h
    obtain ⟨written, hwritten, rfl⟩ := readRegex_eq_ok_iff.1 hr
    exact .regex hwritten
  · split at h
    · cases h
      exact .none
    · next name after hname =>
      cases h
      obtain ⟨rfl, hlongest⟩ := labelName?_eq_some_iff.1 hname
      exact .name hlongest

/-- What may follow a relation: blanks, or a target. -/
def BeforeTarget (rest : List Char) : Prop :=
  ∀ c ∈ rest.head?, isBlank c = true ∨ c = '(' ∨ c = '{' ∨ c = '!'

omit [Text.CharacterNames] in
/-- What may stand before a target joins no label and no operator. -/
theorem BeforeTarget.apart (h : BeforeTarget rest) :
    ∀ c ∈ rest.head?, startsName c = false ∧ c ∉ ['/', '<', '>'] := by
  intro c hc
  rcases h c hc with hblank | rfl | rfl | rfl
  · have hname := continuesName_of_isBlank hblank
    refine ⟨?_, ?_⟩
    · rw [Bool.eq_false_iff]
      intro hstarts
      rw [continuesName_of_startsName hstarts] at hname
      cases hname
    · simp only [List.mem_cons, List.not_mem_nil, or_false, not_or]
      refine ⟨?_, ?_, ?_⟩ <;> rintro rfl <;> exact absurd hblank (by decide)
  · decide
  · decide
  · decide

/-- A label that is laid out is read where its link ends. -/
theorem readLabel_complete {label : Option LabelFilter} (h : LabelLayout label s rest)
    (hrest : BeforeTarget rest) : readLabel s = .ok (label, rest) := by
  cases h with
  | none =>
    unfold readLabel
    split
    · exact absurd (by decide) (hrest.apart '/' rfl).2
    · have hnone : labelName? s = none := by
        cases s with
        | nil => rfl
        | cons c s => rw [labelName?, if_neg (by simp [(hrest.apart c rfl).1])]
      rw [hnone]
  | name longest =>
    have hread := labelName?_eq_some_iff.2 ⟨rfl, longest⟩
    rw [readLabel, hread]
    -- no label begins with a slash
    intro after hafter
    rw [hafter] at hread
    cases hread
  | regex slashes =>
    rw [readLabel, readRegex_eq_ok_iff.2 ⟨_, slashes, rfl⟩]
    rfl

/-- What stands after an operator does not double it. -/
theorem LabelLayout.head? {label : Option LabelFilter} (h : LabelLayout label s rest)
    (hrest : BeforeTarget rest) : ∀ c ∈ s.head?, c ≠ '<' ∧ c ≠ '>' := by
  intro c hc
  cases h with
  | none =>
    have := (hrest.apart c hc).2
    simp only [List.mem_cons, List.not_mem_nil, or_false, not_or] at this
    exact this.2
  | name longest =>
    obtain ⟨stem, subtypes, rfl, ⟨d, tail, rfl, hd, -⟩, -⟩ := longest.valid
    cases hc
    constructor <;> rintro rfl <;> exact absurd hd (by decide)
  | regex _ =>
    cases hc
    decide

/-- An exclamation mark turns a relation around. -/
theorem LinkLayout.of_accept {negated : Bool} {direction : Direction} {reach : Reach}
    {label : Option LabelFilter} (h : accept '!' s = (negated, t))
    (hplain : LinkLayout ⟨direction, reach, label, false⟩ t rest) :
    LinkLayout ⟨direction, reach, label, negated⟩ s rest := by
  cases negated with
  | true =>
    rw [accept_eq_true_iff.1 h]
    exact .negated hplain
  | false =>
    rw [(accept_eq_false_iff.1 h).1]
    exact hplain

/-- The parts of a relation lay it out, be an exclamation mark before its depth or after it. -/
theorem LinkLayout.of_parts {before after : Bool} {direction : Direction} (reach : Reach)
    {label : Option LabelFilter} {onDepth afterDepth onOperator onLabel : List Char}
    (hbefore : accept '!' s = (before, onDepth))
    (hdepth : readDepth onDepth = .ok (writtenBounds reach, afterDepth))
    (hafter : (if before || (writtenBounds reach).isNone then (false, afterDepth)
      else accept '!' afterDepth) = (after, onOperator))
    (hoperator : onOperator = operatorText direction (isFar reach) ++ onLabel)
    (hlabel : LabelLayout label onLabel rest) :
    LinkLayout ⟨direction, reach, label, before || after⟩ s rest := by
  have hdepth := readDepth_sound hdepth
  rcases reach with _ | _ | bounds
  · -- without a depth there is one place for the mark only
    rw [writtenBounds, Option.isNone_none, Bool.or_true, if_pos rfl] at hafter
    cases hafter
    rw [Bool.or_false]
    refine .of_accept hbefore ?_
    rw [show onDepth = _ from hdepth.trans hoperator]
    exact .direct hlabel
  · rw [writtenBounds, Option.isNone_none, Bool.or_true, if_pos rfl] at hafter
    cases hafter
    rw [Bool.or_false]
    refine .of_accept hbefore ?_
    rw [show onDepth = _ from hdepth.trans hoperator]
    exact .far hlabel
  · have hdepth : DepthLayout bounds onDepth afterDepth := hdepth
    rw [writtenBounds, Option.isNone_some, Bool.or_false] at hafter
    cases before with
    | true =>
      cases hafter
      rw [hoperator] at hdepth
      exact .of_accept hbefore (.bounded hdepth hlabel)
    | false =>
      rw [if_neg Bool.false_ne_true] at hafter
      rw [(accept_eq_false_iff.1 hbefore).1]
      cases after with
      | true =>
        rw [accept_eq_true_iff.1 hafter, hoperator] at hdepth
        exact .boundedNegated hdepth hlabel
      | false =>
        rw [(accept_eq_false_iff.1 hafter).1, hoperator] at hdepth
        exact .bounded hdepth hlabel

/-- A relation that is read is laid out. -/
theorem readRelation_sound {l : Link} (h : readRelation s = .ok (l, rest)) : LinkLayout l s rest := by
  unfold readRelation at h
  -- the mark before the depth, the depth, the mark after it, the operator, in this order
  cases hbefore : accept '!' s with
  | mk before onDepth =>
    rw [hbefore] at h
    obtain ⟨⟨depth, afterDepth⟩, hdepth, h⟩ := bind_eq_ok h
    dsimp only at h
    cases hafter : (if before || depth.isNone then (false, afterDepth) else accept '!' afterDepth) with
    | mk after onOperator =>
      rw [hafter] at h
      obtain ⟨⟨⟨direction, far⟩, onLabel⟩, hoperator, h⟩ := bind_eq_ok h
      have hoperator := readOperator_sound hoperator
      dsimp only at h
      -- what is written decides the reach: any number of steps, one step, or a depth on one step
      split at h
      · obtain ⟨_, hreach, h⟩ := bind_eq_ok h
        obtain ⟨⟨label, afterLabel⟩, hlabel, h⟩ := bind_eq_ok h
        cases hreach
        cases h
        exact .of_parts (.far depth) hbefore hdepth hafter hoperator (readLabel_sound hlabel)
      · obtain ⟨_, hreach, h⟩ := bind_eq_ok h
        obtain ⟨⟨label, afterLabel⟩, hlabel, h⟩ := bind_eq_ok h
        cases hreach
        cases h
        exact .of_parts .direct hbefore hdepth hafter hoperator (readLabel_sound hlabel)
      · cases h

omit [Text.CharacterNames] in
/-- Bounds do not begin with an exclamation mark. -/
theorem DepthLayout.exclamation_notMem {bounds : DepthRange} (h : DepthLayout bounds s rest) :
    '!' ∉ s.head? := by
  obtain ⟨c, tail, rfl, hc⟩ := h.exists_cons
  intro hmem
  cases hmem
  exact absurd hc (by decide)

/-- A relation with nothing before its depth or operator is read, also after an exclamation mark. -/
theorem readRelation_plain (negated : Bool) {direction : Direction} {reach : Reach}
    {label : Option LabelFilter} (h : LinkLayout ⟨direction, reach, label, false⟩ s rest)
    (hrest : BeforeTarget rest) :
    readRelation ((if negated then ['!'] else []) ++ s) =
      .ok (⟨direction, reach, label, negated⟩, rest) := by
  cases h with
  | @direct _ _ t _ labels =>
    have hoperator := head?_operatorText direction false t
    have hdepth : readDepth (depthText none ++ (operatorText direction false ++ t)) =
        .ok (none, operatorText direction false ++ t) :=
      readDepth_depthText nofun fun c hc => (hoperator c hc).1
    -- neither the depth nor a second mark is written, and the operator begins with no mark
    exact readRelation_of_parts (fun h => (hoperator '!' h).2 rfl)
      hdepth
      (fun h => (hoperator '!' h).2 rfl)
      (readOperator_operatorText direction false (labels.head? hrest))
      (readLabel_complete labels hrest)
  | @far _ _ t _ labels =>
    have hoperator := head?_operatorText direction true t
    have hdepth : readDepth (depthText none ++ (operatorText direction true ++ t)) =
        .ok (none, operatorText direction true ++ t) :=
      readDepth_depthText nofun fun c hc => (hoperator c hc).1
    exact readRelation_of_parts (fun h => (hoperator '!' h).2 rfl)
      hdepth
      (fun h => (hoperator '!' h).2 rfl)
      (readOperator_operatorText direction true (labels.head? hrest))
      (readLabel_complete labels hrest)
  | @bounded _ bounds _ _ t _ depth labels =>
    have hoperator := head?_operatorText direction true t
    -- an operator begins with an arrow, which ends the depth
    have hcomma : ∀ c ∈ (operatorText direction true ++ t).head?, c ≠ ',' ∧ isDecimalDigit c = false := by
      intro c hc
      refine ⟨?_, (hoperator c hc).1⟩
      cases hc
      cases direction <;> decide
    exact readRelation_of_parts depth.exclamation_notMem
      (readDepth_complete depth hcomma) (fun h => (hoperator '!' h).2 rfl)
      (readOperator_operatorText direction true (labels.head? hrest))
      (readLabel_complete labels hrest)

/-- A relation is read where it is laid out, if what follows it is a target. -/
theorem readRelation_complete {l : Link} (h : LinkLayout l s rest) (hrest : BeforeTarget rest) :
    readRelation s = .ok (l, rest) := by
  cases h with
  | direct labels => exact readRelation_plain false (.direct labels) hrest
  | far labels => exact readRelation_plain false (.far labels) hrest
  | bounded depth labels => exact readRelation_plain false (.bounded depth labels) hrest
  | negated relation => exact readRelation_plain true relation hrest
  | @boundedNegated direction bounds label _ t _ depth labels =>
    have hdepth : readDepth s = .ok (some bounds, '!' :: (operatorText direction true ++ t)) :=
      readDepth_complete depth (forall_head?_cons (by decide) _)
    have hoperator : readOperator (operatorText direction true ++ t) = .ok ((direction, true), t) :=
      readOperator_operatorText direction true (labels.head? hrest)
    have hbefore : accept '!' s = (false, s) := accept_eq_false_iff.2 ⟨rfl, depth.exclamation_notMem⟩
    exact readRelation_of_marks hbefore hdepth rfl hoperator (readLabel_complete labels hrest)

end DependencyQuery.Pattern
