import DependencyQuery.Proofs.Pattern.Legible

namespace DependencyQuery.Pattern

open Steps (ok_bind)
open Text (isBlank isDecimalDigit skipBlanks)

/-!
# Reading the parts of a pattern back

What a legible description or relation is written as is read back, whatever follows it, as long as that
begins with a character that ends it.

* `Boundary` — what may follow a description;
* `readValue_render`, `readTest_render`, `readTests_render`, `readDescription_render` — descriptions;
* `readDepth_depthText`, `readOperator_operatorText`, `readLabel_labelText`, `readRelation_render` —
  relations.
-/

variable {s rest : List Char}

/-! ### Blanks -/

/-- Where no blank comes next, none is skipped. -/
theorem skipBlanks_eq_self (h : ∀ c ∈ s.head?, isBlank c = false) : skipBlanks s = s := by
  cases s with
  | nil => rfl
  | cons c s =>
    have hc : ¬isBlank c = true := by simp [h c rfl]
    exact List.dropWhile_cons_of_neg hc

/-- Skipping blanks stops at any other character. -/
theorem skipBlanks_cons {c : Char} (h : isBlank c = false) (s : List Char) :
    skipBlanks (c :: s) = c :: s :=
  skipBlanks_eq_self (forall_head?_cons h s)

/-- A space is skipped. -/
theorem skipBlanks_space (s : List Char) : skipBlanks (' ' :: s) = skipBlanks s :=
  List.dropWhile_cons_of_pos (by decide)

/-- Blanks are skipped all at once. -/
theorem skipBlanks_skipBlanks (s : List Char) : skipBlanks (skipBlanks s) = skipBlanks s := by
  apply skipBlanks_eq_self
  intro c hc
  have := List.head?_dropWhile_not isBlank s
  rw [skipBlanks] at hc
  rw [hc] at this
  exact this

/-- What may follow a description: nothing, a blank, or the end of what it stands in. -/
def Boundary (rest : List Char) : Prop := ∀ c ∈ rest.head?, c ∈ [' ', ')', ']']

/-! ### Values and tests -/

variable [Text.CharacterNames]

/-- A legible expression is read back from between its slashes. -/
theorem readRegex_escapeRegex {invalid : String → Fault} {slash : List Char} {r : Regex} (h : r.Legible) :
    readRegex invalid slash (escapeRegex r.source.toList ++ '/' :: rest) = .ok (r, rest) := by
  have hbody := (regexBody_escapeRegex_iff r.source.toList rest).2 h
  rw [readRegex, hbody]
  dsimp only
  rw [String.ofList_toList, Regex.ofString_source]

/-- An expression is written between slashes. -/
theorem renderRegex_append (r : Regex) :
    renderRegex r ++ rest = '/' :: (escapeRegex r.source.toList ++ '/' :: rest) := by
  simp [renderRegex]

omit [Text.CharacterNames] in
/-- A value without quotes begins with a character that is neither blank nor a mark. -/
theorem exists_cons_of_isLiteral {text : List Char} (h : isLiteral text = true) :
    ∃ c tail, text = c :: tail ∧ isBlank c = false ∧ c ≠ '/' ∧ c ≠ '"' := by
  have hread := literal?_of_isLiteral h
  cases text with
  | nil => cases hread
  | cons c tail =>
    rw [literal?] at hread
    split at hread
    · next hc =>
      simp only [continuesLiteral, Bool.and_eq_true, Bool.not_eq_true', decide_eq_true_eq] at hc
      exact ⟨c, tail, rfl, hc.1.1.1.1, hc.2, hc.1.2⟩
    · cases hread

/-- No blank stands before a value. -/
theorem skipBlanks_value_render (v : ValueTest) : skipBlanks (v.render ++ rest) = v.render ++ rest := by
  apply skipBlanks_eq_self
  intro c hc
  cases v with
  | literal text =>
    rw [ValueTest.render] at hc
    split at hc
    · next h =>
      obtain ⟨d, tail, htext, hblank, -, -⟩ := exists_cons_of_isLiteral h
      rw [htext] at hc
      cases hc
      exact hblank
    · cases hc
      decide
  | regex r =>
    cases hc
    decide

/-- A value is read back where no character follows that continues it. -/
theorem readValue_render {key : Attribute} {v : ValueTest} (hv : v.Legible)
    (hrest : ∀ c ∈ rest.head?, continuesLiteral c = false) :
    readValue key (v.render ++ rest) = .ok (v, rest) := by
  cases v with
  | literal text =>
    rw [ValueTest.render]
    -- a word that needs no quotes is written without them
    by_cases h : isLiteral text.toList = true
    · rw [if_pos h]
      obtain ⟨c, tail, htext, -, hslash, hquote⟩ := exists_cons_of_isLiteral h
      have hread := literal?_append (literal?_of_isLiteral h) hrest
      rw [htext, List.cons_append] at hread ⊢
      rw [readValue]
      · rw [hread]
        dsimp only
        rw [← htext, String.ofList_toList]
      · exact fun _ h => hslash (List.cons.inj h).1
      · exact fun _ h => hquote (List.cons.inj h).1
    · -- any other word is written in quotes, and the escapes are read back
      rw [if_neg h, List.append_assoc, List.cons_append, List.singleton_append, readValue,
        quotedBody_escapeQuoted]
      dsimp only
      rw [String.ofList_toList]
  | regex r =>
    rw [ValueTest.render, renderRegex_append, readValue, readRegex_escapeRegex hv]
    rfl

omit [Text.CharacterNames] in
/-- The key of an attribute is a name. -/
theorem identifier?_key (key : Attribute) :
    identifier? key.key.toList = some (key.key.toList, []) := by
  cases key <;> decide

omit [Text.CharacterNames] in
/-- An attribute is found by its key. -/
theorem ofKey?_key (key : Attribute) : Attribute.ofKey? key.key = some key := by
  cases key <;> decide

/-- A test is read back where no character follows that continues its value. -/
theorem readTest_render {t : AttributeTest} (ht : t.value.Legible)
    (hrest : ∀ c ∈ rest.head?, continuesLiteral c = false) :
    readTest (t.render ++ rest) = .ok (t, rest) := by
  have hkey : identifier? (t.key.key.toList ++ ':' :: (t.value.render ++ rest)) =
      some (t.key.key.toList, ':' :: (t.value.render ++ rest)) := by
    apply identifier?_append (identifier?_key t.key)
    exact forall_head?_cons (by decide) _
  have hcolon : expect ':' .colonAfterKey (skipBlanks (':' :: (t.value.render ++ rest))) =
      .ok (t.value.render ++ rest) := by
    rw [skipBlanks_cons (by decide)]
    rfl
  rw [AttributeTest.render, List.append_assoc, List.cons_append, readTest, hkey]
  dsimp only
  rw [String.ofList_toList, ofKey?_key]
  dsimp only
  rw [hcolon, ok_bind, skipBlanks_value_render, readValue_render ht hrest, ok_bind]
  rfl

omit [Text.CharacterNames] in
/-- No key begins with a blank or a closing brace. -/
theorem exists_cons_of_key (key : Attribute) :
    ∃ c tail, key.key.toList = c :: tail ∧ isBlank c = false ∧ c ≠ '}' := by
  have hhead : key.key.toList.head?.any (fun c => !isBlank c && c ≠ '}') = true := by
    cases key <;> decide
  cases h : key.key.toList with
  | nil =>
    rw [h] at hhead
    cases hhead
  | cons c tail =>
    rw [h] at hhead
    exact ⟨c, tail, rfl, by simpa using hhead⟩

omit [Text.CharacterNames] in
/-- After the first part, each has a separator before it. -/
theorem joinWith_cons (separator first : List Char) (parts : List (List Char)) :
    joinWith separator (first :: parts) = first ++ parts.flatMap (separator ++ ·) := by
  unfold joinWith
  induction parts generalizing first with
  | nil => rw [List.intercalate_singleton, List.flatMap_nil, List.append_nil]
  | cons second parts ih =>
    rw [List.intercalate_cons_cons, ih, List.flatMap_cons, List.append_assoc, List.append_assoc]

omit [Text.CharacterNames] in
/-- There are no more parts than characters, but for the first part, which may be empty. -/
theorem length_le_joinWith {separator : List Char} (h : separator ≠ []) (parts : List (List Char)) :
    parts.length ≤ (joinWith separator parts).length + 1 := by
  cases parts with
  | nil => exact Nat.zero_le _
  | cons first parts =>
    have hparts : parts.length ≤ (parts.flatMap (separator ++ ·)).length := by
      induction parts with
      | nil => exact Nat.le_refl _
      | cons second parts ih =>
        have : 0 < separator.length := List.length_pos_iff.2 h
        simp only [List.flatMap_cons, List.length_append, List.length_cons]
        omega
    rw [joinWith_cons, List.length_append, List.length_cons]
    omega

/-- Tests are read one after another, with a comma after each if there is one. -/
theorem readTests_cons {brace : List Char} {fuel : Nat} {c : Char} (hblank : isBlank c = false)
    (hbrace : c ≠ '}') :
    readTests brace (fuel + 1) (c :: s) = (do
      let (test, rest) ← readTest (c :: s)
      let (tests, rest) ← readTests brace fuel (accept ',' (skipBlanks rest)).2
      return (test :: tests, rest)) := by
  rw [readTests, skipBlanks_cons hblank]
  split
  · next h => exact absurd (List.cons.inj h).1 hbrace
  · next h => cases h
  · next h =>
    cases h
    rfl

/-- What follows the first of several tests ends its value, and leads to the others. -/
theorem exists_after_test (t : AttributeTest) (tests : List AttributeTest) (rest : List Char) :
    ∃ after, joinWith [','] ((t :: tests).map AttributeTest.render) ++ '}' :: rest = t.render ++ after ∧
      (∀ c ∈ after.head?, continuesLiteral c = false) ∧
      (accept ',' (skipBlanks after)).2 =
        joinWith [','] (tests.map AttributeTest.render) ++ '}' :: rest := by
  cases tests with
  | nil =>
    refine ⟨'}' :: rest, ?_, ?_, rfl⟩
    · rw [List.map_cons, joinWith_cons, List.map_nil, List.flatMap_nil, List.append_nil]
    · exact forall_head?_cons (by decide) rest
  | cons u tests =>
    refine ⟨',' :: (joinWith [','] ((u :: tests).map AttributeTest.render) ++ '}' :: rest), ?_, ?_, rfl⟩
    · rw [List.map_cons, joinWith_cons, List.map_cons, joinWith_cons, List.flatMap_cons]
      simp
    · exact forall_head?_cons (by decide) _

/-- Tests are read back from between braces. -/
theorem readTests_render (brace : List Char) {tests : List AttributeTest}
    (h : ∀ t ∈ tests, t.value.Legible) {fuel : Nat} (hfuel : tests.length < fuel) :
    readTests brace fuel (joinWith [','] (tests.map AttributeTest.render) ++ '}' :: rest) =
      .ok (tests, rest) := by
  induction tests generalizing fuel with
  | nil =>
    cases fuel with
    | zero => cases hfuel
    | succ fuel => rfl
  | cons t tests ih =>
    cases fuel with
    | zero => cases hfuel
    | succ fuel =>
      -- the first character is that of a key, so that neither a blank nor the brace is read
      obtain ⟨after, htext, hafter, hnext⟩ := exists_after_test t tests rest
      obtain ⟨c, tail, hkey, hblank, hbrace⟩ := exists_cons_of_key t.key
      have hcons : t.render ++ after = c :: (tail ++ ':' :: t.value.render ++ after) := by
        rw [AttributeTest.render, hkey]
        rfl
      have htest := readTest_render (h t List.mem_cons_self) hafter
      have hmore := ih (fun u hu => h u (List.mem_cons_of_mem _ hu)) (Nat.lt_of_succ_lt_succ hfuel)
      rw [hcons] at htext htest
      rw [htext, readTests_cons hblank hbrace, htest, ok_bind]
      dsimp only
      rw [hnext, hmore, ok_bind]
      rfl

/-! ### Descriptions -/

omit [Text.CharacterNames] in
/-- No name goes on beyond a boundary. -/
theorem Boundary.not_continuesName (hrest : Boundary rest) :
    ∀ c ∈ rest.head?, continuesName c = false := by
  intro c hc
  have hmem := hrest c hc
  simp only [List.mem_cons, List.not_mem_nil, or_false] at hmem
  rcases hmem with rfl | rfl | rfl <;> rfl

/-- What is written of a name. -/
def nameText : Option String → List Char
  | some name => '=' :: name.toList
  | none => []

omit [Text.CharacterNames] in
/-- A name is read back where a character follows that ends it. -/
theorem readName_nameText {name : Option String}
    (h : ∀ text ∈ name, identifier? text.toList = some (text.toList, [])) (hrest : Boundary rest) :
    readName (nameText name ++ rest) = .ok (name, rest) := by
  cases name with
  | none =>
    rw [nameText, List.nil_append]
    unfold readName
    split
    · have : '=' ∉ [' ', ')', ']'] := by decide
      exact (this (hrest '=' rfl)).elim
    · rfl
  | some name =>
    have hname := identifier?_append (h name rfl) hrest.not_continuesName
    rw [nameText, List.cons_append, readName, hname]
    dsimp only
    rw [String.ofList_toList]

/-- A description is written as its mark, its tests in braces, and its name. -/
theorem description_render_append (d : Description) (rest : List Char) :
    d.render ++ rest = (if d.negated then ['!'] else []) ++
      '{' :: (joinWith [','] (d.tests.map AttributeTest.render) ++ '}' :: (nameText d.name ++ rest)) := by
  rw [Description.render, List.append_assoc, List.append_assoc, List.cons_append]
  cases d.name <;> rfl

/-- A description is read from its mark on: its tests, and then its name. -/
theorem readDescription_open (negated : Bool) (inside : List Char) :
    readDescription ((if negated then ['!'] else []) ++ '{' :: inside) = (do
      let (tests, rest) ← readTests ('{' :: inside) (inside.length + 1) inside
      let (name, rest) ← readName rest
      return (⟨tests, negated, name⟩, rest)) := by
  cases negated <;> rfl

/-- A description is read back where a character follows that ends it. -/
theorem readDescription_render {d : Description} (hd : d.Legible) (hrest : Boundary rest) :
    readDescription (d.render ++ rest) = .ok (d, rest) := by
  -- a comma is written between each two tests, so that there are enough steps for all of them
  have hlength : d.tests.length < (joinWith [','] (d.tests.map AttributeTest.render) ++
      '}' :: (nameText d.name ++ rest)).length + 1 := by
    have := length_le_joinWith (List.cons_ne_nil ',' []) (d.tests.map AttributeTest.render)
    rw [List.length_map] at this
    rw [List.length_append, List.length_cons]
    omega
  rw [description_render_append, readDescription_open, readTests_render _ hd.tests hlength, ok_bind]
  dsimp only
  rw [readName_nameText hd.name hrest, ok_bind]
  rfl

/-! ### Relations -/

/-- What is written of the bounds of a depth. -/
def depthText : Option DepthRange → List Char
  | some bounds => bounds.render
  | none => []

/-- What is written of a direction, doubled if it reaches far. -/
def operatorText (direction : Direction) (isFar : Bool) : List Char :=
  Direction.symbol direction :: if isFar then [Direction.symbol direction] else []

/-- What is written of the labels that a relation accepts. -/
def labelText : Option LabelFilter → List Char
  | some label => label.render
  | none => []

/-- The bounds of a depth that are written. -/
def writtenBounds : Reach → Option DepthRange
  | .direct => none
  | .far bounds => bounds

/-- Whether the operator is doubled. -/
def isFar : Reach → Bool
  | .direct => false
  | .far _ => true

/-- A link is written as its mark, its bounds, its operator, and its label. -/
theorem link_render_append (l : Link) (rest : List Char) :
    l.render ++ rest = (if l.negated then ['!'] else []) ++ (depthText (writtenBounds l.reach) ++
      (operatorText l.direction (isFar l.reach) ++ (labelText l.label ++ rest))) := by
  obtain ⟨direction, reach, label, negated⟩ := l
  rw [Link.render, List.append_assoc, List.append_assoc]
  congr 1
  rcases reach with _ | _ | bounds <;> cases label <;>
    simp [depthText, writtenBounds, operatorText, isFar, labelText]

omit [Text.CharacterNames] in
/-- After a comma, the second bound may be left out. -/
theorem readDepth_of_comma {least : Nat} {after : List Char} (h : number? s = some (least, ',' :: after)) :
    readDepth s =
      match number? after with
      | none => .ok (some ⟨least, none⟩, after)
      | some (most, rest) =>
        if most < least then failAt s (.depthBounds least most) else .ok (some ⟨least, some most⟩, rest) := by
  rw [readDepth, h]
  rfl

omit [Text.CharacterNames] in
/-- Legible bounds are read back. -/
theorem readDepth_depthText {depth : Option DepthRange} (h : ∀ bounds ∈ depth, bounds.Legible)
    (hrest : ∀ c ∈ rest.head?, isDecimalDigit c = false) :
    readDepth (depthText depth ++ rest) = .ok (depth, rest) := by
  -- no depth, a depth with one bound, a depth with two
  rcases depth with _ | ⟨least, _ | most⟩
  · rw [depthText, List.nil_append, readDepth, number?_eq_none hrest]
  · have hleast : number? (renderNumber least ++ ',' :: rest) = some (least, ',' :: rest) := by
      apply number?_renderNumber
      exact forall_head?_cons (by decide) _
    rw [depthText, DepthRange.render, List.append_assoc, List.cons_append, List.nil_append,
      readDepth_of_comma hleast, number?_eq_none hrest]
  · have hleast : number? (renderNumber least ++ ',' :: (renderNumber most ++ rest)) =
        some (least, ',' :: (renderNumber most ++ rest)) := by
      apply number?_renderNumber
      exact forall_head?_cons (by decide) _
    have hle : ¬most < least := Nat.not_lt.2 (h _ rfl most rfl)
    rw [depthText, DepthRange.render, List.append_assoc, List.cons_append, readDepth_of_comma hleast,
      number?_renderNumber most hrest]
    dsimp only
    rw [if_neg hle]

omit [Text.CharacterNames] in
/-- An operator is read back where none of its characters comes next. -/
theorem readOperator_operatorText (direction : Direction) (isFar : Bool)
    (hrest : ∀ c ∈ rest.head?, c ≠ '<' ∧ c ≠ '>') :
    readOperator (operatorText direction isFar ++ rest) = .ok ((direction, isFar), rest) := by
  cases isFar with
  | true => cases direction <;> rfl
  | false =>
    cases direction with
    | up =>
      show readOperator ('<' :: rest) = _
      rw [readOperator]
      rintro _ rfl
      exact (hrest '<' rfl).1 rfl
    | down =>
      show readOperator ('>' :: rest) = _
      rw [readOperator]
      rintro _ rfl
      exact (hrest '>' rfl).2 rfl

/-- A legible label is read back where a blank comes next. -/
theorem readLabel_labelText {label : Option LabelFilter} (h : ∀ l ∈ label, l.Legible) :
    readLabel (labelText label ++ ' ' :: rest) = .ok (label, ' ' :: rest) := by
  rcases label with _ | name | r
  · rfl
  · have hread : labelName? (name.toList ++ ' ' :: rest) = some (name.toList, ' ' :: rest) := by
      apply labelName?_append (h _ rfl)
      exact forall_head?_cons (by decide) rest
    rw [labelText, LabelFilter.render, readLabel, hread]
    · dsimp only
      rw [String.ofList_toList]
    · -- no label begins with a slash
      intro after hafter
      rw [hafter] at hread
      cases hread
  · rw [labelText, LabelFilter.render, renderRegex_append, readLabel, readRegex_escapeRegex (h _ rfl)]
    rfl

omit [Text.CharacterNames] in
/-- A mark is read back before anything that does not begin with one. -/
theorem accept_exclamation (negated : Bool) (h : '!' ∉ s.head?) :
    accept '!' ((if negated then ['!'] else []) ++ s) = (negated, s) := by
  cases negated with
  | true => rfl
  | false =>
    cases s with
    | nil => rfl
    | cons c s =>
      have hc : c ≠ '!' := fun hc => h (by rw [hc]; rfl)
      exact if_neg hc

omit [Text.CharacterNames] in
/-- After an exclamation mark, a relation begins with a digit or an operator. -/
theorem head?_depthText (depth : Option DepthRange) (direction : Direction) (isFar : Bool)
    (rest : List Char) :
    ∃ c, (depthText depth ++ (operatorText direction isFar ++ rest)).head? = some c ∧
      (c.isDigit = true ∨ c = '<' ∨ c = '>') := by
  cases depth with
  | none =>
    -- without a depth the relation begins with its operator
    refine ⟨Direction.symbol direction, rfl, .inr ?_⟩
    cases direction
    · exact .inl rfl
    · exact .inr rfl
  | some bounds =>
    -- a number has at least one digit, and it begins with it
    cases h : renderNumber bounds.least with
    | nil => exact (renderNumber_ne_nil _ h).elim
    | cons c tail =>
      have hc : c ∈ renderNumber bounds.least := by rw [h]; exact List.mem_cons_self
      refine ⟨c, ?_, .inl (Nat.isDigit_of_mem_toDigits (by decide) (by decide) hc)⟩
      rw [depthText, DepthRange.render, h]
      rfl

/-- A label does not begin like an operator. -/
theorem head?_labelText {label : Option LabelFilter} (h : ∀ l ∈ label, l.Legible) :
    ∀ c ∈ (labelText label ++ ' ' :: rest).head?, c ≠ '<' ∧ c ≠ '>' := by
  intro c hc
  rcases label with _ | name | r
  · cases hc
    decide
  · -- a name that is read as a label begins with no arrow, as no label does
    have hname : labelName? name.toList = some (name.toList, []) := h _ rfl
    rw [labelText, LabelFilter.render] at hc
    cases htext : name.toList with
    | nil =>
      rw [htext] at hname
      cases hname
    | cons d text =>
      rw [htext] at hc hname
      cases hc
      constructor <;> rintro rfl <;> cases hname
  · cases hc
    decide

omit [Text.CharacterNames] in
/-- An operator begins neither with a digit nor with a mark. -/
theorem head?_operatorText (direction : Direction) (isFar : Bool) (rest : List Char) :
    ∀ c ∈ (operatorText direction isFar ++ rest).head?, isDecimalDigit c = false ∧ c ≠ '!' := by
  intro c hc
  cases hc
  cases direction <;> decide

/-- A relation is read part by part, with an exclamation mark before its depth, after it or nowhere. -/
theorem readRelation_of_marks {before after : Bool} {direction : Direction} {reach : Reach}
    {label : Option LabelFilter} {depthOn afterDepth operatorOn labelOn : List Char}
    (hbefore : accept '!' s = (before, depthOn))
    (hdepth : readDepth depthOn = .ok (writtenBounds reach, afterDepth))
    (hafter : (if (before || (writtenBounds reach).isNone) = true then (false, afterDepth)
      else accept '!' afterDepth) = (after, operatorOn))
    (hoperator : readOperator operatorOn = .ok ((direction, isFar reach), labelOn))
    (hlabel : readLabel labelOn = .ok (label, rest)) :
    readRelation s = .ok (⟨direction, reach, label, before || after⟩, rest) := by
  unfold readRelation
  rw [hbefore]
  dsimp only
  rw [hdepth, ok_bind]
  dsimp only
  rw [hafter]
  dsimp only
  rw [hoperator, ok_bind]
  -- the label is read the same way in both cases of the reach
  have hfinish : ∀ reach : Reach, (readLabel labelOn >>= fun read =>
      .ok (Link.mk direction reach read.1 (before || after), read.2)) =
      .ok (⟨direction, reach, label, before || after⟩, rest) := by
    intro reach
    rw [hlabel, ok_bind]
  cases reach with
  | direct => exact hfinish .direct
  | far bounds => exact hfinish (.far bounds)

/-- A relation is read part by part, with an exclamation mark in front or none. -/
theorem readRelation_of_parts {negated : Bool} {direction : Direction} {reach : Reach}
    {label : Option LabelFilter} {depthOn operatorOn labelOn : List Char}
    (hexclamation : '!' ∉ depthOn.head?)
    (hdepth : readDepth depthOn = .ok (writtenBounds reach, operatorOn))
    (hexclamation' : '!' ∉ operatorOn.head?)
    (hoperator : readOperator operatorOn = .ok ((direction, isFar reach), labelOn))
    (hlabel : readLabel labelOn = .ok (label, rest)) :
    readRelation ((if negated then ['!'] else []) ++ depthOn) =
      .ok (⟨direction, reach, label, negated⟩, rest) := by
  -- the exclamation mark is not looked for again, or not found
  have hafter : (if (negated || (writtenBounds reach).isNone) = true then (false, operatorOn)
      else accept '!' operatorOn) = (false, operatorOn) := by
    split
    · rfl
    · exact accept_exclamation false hexclamation'
  have hread := readRelation_of_marks (accept_exclamation negated hexclamation) hdepth hafter hoperator hlabel
  rwa [Bool.or_false] at hread

/-- A relation is read back where a blank follows. -/
theorem readRelation_render {l : Link} (hl : l.Legible) :
    readRelation (l.render ++ ' ' :: rest) = .ok (l, ' ' :: rest) := by
  -- only a reach of any length has bounds, and they are those that are written
  have hlegible : ∀ bounds ∈ writtenBounds l.reach, bounds.Legible := by
    intro bounds hbounds
    cases hreach : l.reach with
    | direct =>
      rw [hreach] at hbounds
      cases hbounds
    | far depth =>
      rw [hreach] at hbounds
      exact hl.reach bounds (hreach.trans (congrArg Reach.far hbounds))
  have hoperator := head?_operatorText l.direction (isFar l.reach) (labelText l.label ++ ' ' :: rest)
  rw [link_render_append]
  apply readRelation_of_parts
  · -- what begins the relation is a digit or an arrow, and so no mark
    intro h
    obtain ⟨c, hc, hcases⟩ := head?_depthText (writtenBounds l.reach) l.direction (isFar l.reach)
      (labelText l.label ++ ' ' :: rest)
    rw [hc] at h
    cases h
    revert hcases
    decide
  · exact readDepth_depthText hlegible fun c hc => (hoperator c hc).1
  · exact fun h => (hoperator '!' h).2 rfl
  · exact readOperator_operatorText _ _ (head?_labelText hl.label)
  · exact readLabel_labelText hl.label

end DependencyQuery.Pattern
