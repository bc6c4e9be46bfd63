import DependencyQuery.Proofs.Pattern.Acceptance

namespace DependencyQuery.Pattern

open Text (decimalValue isBlank isDecimalDigit)

/-!
# Where a text ceases to be a pattern

The grammar read from the left: what may stand at a place of a text, given all that stands before it, and what is wrong
with a text where nothing of the kind stands there.

* `Part` — the parts of a pattern that are looked for, and `Due` — that a part is due at a place;
* `Fits` — that a fault is what is wrong at a place: what is due there, and what stands there instead;
* `Fault.Names` — the character that a fault is about is the first one at the place;
* `Due.suffix`, `Fits.suffix` — places lie within the text, and `Fits.names` — a fault that fits a place names what
  stands there.
-/

/-! ### What is due -/

/-- The parts of a pattern that are looked for.  Tests and alternatives come with the text after the brace or bracket
that opens them. -/
inductive Part where
  | tree
  | description
  | tests (inside : List Char)
  | value (key : Attribute)
  | name
  | clauses
  | alternative (inside : List Char)
  | link
  | label
  | target
  | trees

/-- What is left of a text after an exclamation mark, if there is one at its front. -/
inductive Mark : List Char → List Char → Prop
  | absent {s : List Char} (unmarked : '!' ∉ s.head?) : Mark s s
  | present {s : List Char} : Mark ('!' :: s) s

/-- What is left of a text where the opening brace of a description should stand. -/
inductive BeforeBrace : List Char → List Char → Prop
  | plain {s t : List Char} (blanks : Blanks s t) (unmarked : '!' ∉ t.head?) : BeforeBrace s t
  | marked {s t u : List Char} (blanks : Blanks s ('!' :: t)) (more : Blanks t u) : BeforeBrace s u

/-- A depth, and what is left of a text where the operator of a relation should stand. -/
inductive BeforeOperator : Option DepthRange → List Char → List Char → Prop
  | plain {s t : List Char} (mark : Mark s t) (noDepth : ∀ c ∈ t.head?, isDecimalDigit c = false) :
      BeforeOperator none s t
  | depth {bounds : DepthRange} {s t u : List Char} (depth : DepthLayout bounds s t) (mark : Mark t u) :
      BeforeOperator (some bounds) s u
  | markedDepth {bounds : DepthRange} {s t : List Char} (depth : DepthLayout bounds s t) :
      BeforeOperator (some bounds) ('!' :: s) t

variable [Text.CharacterNames]

/-- Whether a part is due at a place of a text, to judge by what stands before the place. -/
inductive Due (text : List Char) : Part → List Char → Prop
  | first : Due text .tree text
  | firstEnd {tree : PatternTree} {s t : List Char} (blanks : Blanks text s) (tree : TreeLayout tree s t) :
      Due text .trees t
  | next {s t : List Char} (trees : Due text .trees s) (colon : Blanks s (':' :: t)) : Due text .tree t
  | nextEnd {tree : PatternTree} {s t u v : List Char} (trees : Due text .trees s) (colon : Blanks s (':' :: t))
      (blanks : Blanks t u) (tree : TreeLayout tree u v) : Due text .trees v
  | description {s : List Char} (tree : Due text .tree s) : Due text .description s
  | tests {s inside t : List Char} (description : Due text .description s) (brace : BeforeBrace s ('{' :: inside))
      (blanks : Blanks inside t) : Due text (.tests inside) t
  | moreTests {test : AttributeTest} {inside s t u : List Char} (tests : Due text (.tests inside) s)
      (test : TestLayout test s t) (separator : Separator t u) : Due text (.tests inside) u
  | value {key : Attribute} {inside s t u : List Char} (tests : Due text (.tests inside) (key.key.toList ++ s))
      (colon : Blanks s (':' :: t)) (blanks : Blanks t u) : Due text (.value key) u
  | name {inside s : List Char} (tests : Due text (.tests inside) ('}' :: '=' :: s)) : Due text .name s
  | clauses {d : Description} {s t u : List Char} (tree : Due text .tree s) (blanks : Blanks s t)
      (description : DescriptionLayout d t u) : Due text .clauses u
  | moreClauses {c : Clause} {s t u : List Char} (clauses : Due text .clauses s) (blanks : Blanks s t)
      (clause : ClauseLayout c t u) : Due text .clauses u
  | group {s inside : List Char} (clauses : Due text .clauses s) (bracket : Blanks s ('[' :: inside)) :
      Due text (.alternative inside) inside
  | within {inside s : List Char} (alternative : Due text (.alternative inside) s) : Due text .clauses s
  | nextAlternative {c : Clause} {cs : List Clause} {inside s t u : List Char}
      (alternative : Due text (.alternative inside) s) (clauses : ClausesLayout (c :: cs) s t)
      (bar : Blanks t ('|' :: u)) : Due text (.alternative inside) u
  | link {s t : List Char} (clauses : Due text .clauses s) (blanks : Blanks s t)
      (starts : ∃ c ∈ t.head?, startsRelation c = true) : Due text .link t
  | label {depth : Option DepthRange} {direction : Direction} {isFar : Bool} {s t : List Char}
      (link : Due text .link s) (operator : BeforeOperator depth s (operatorText direction isFar ++ t))
      (fits : isFar = true ∨ depth = none) : Due text .label t
  | target {l : Link} {s t u : List Char} (link : Due text .link s) (relation : LinkLayout l s t)
      (blanks : Blanks t u) : Due text .target u
  | bare {s : List Char} (target : Due text .target s) (starts : ∃ c ∈ s.head?, c = '{' ∨ c = '!') :
      Due text .description s
  | parenthesized {s : List Char} (target : Due text .target ('(' :: s)) : Due text .tree s

/-! ### What is wrong -/

/-- Whether no closing character ends what is written at the front of a text. -/
def Unclosed (kind : List Char → List Char → Prop) (closing : Char) (s : List Char) : Prop :=
  ∀ body written rest, kind body written → s ≠ written ++ closing :: rest

/-- Whether clauses end before a character, which is no blank and begins none. -/
def endsClauses (c : Char) : Bool := !isBlank c && c ≠ '[' && !startsRelation c

/-- Whether a fault is what is wrong at a place of a text: a part is due there, and something else stands there, or
the part begins there and is faulty or does not end. -/
inductive Fits (text : List Char) : Fault → List Char → Prop
  | blank (all : text.all isBlank = true) : Fits text .blank text
  | unexpected {s rest : List Char} {c : Char} (due : Due text .trees s) (blanks : Blanks s (c :: rest))
      (other : endsClauses c = true ∧ c ≠ ':') : Fits text (.unexpected c) (c :: rest)
  | openBrace {s t : List Char} (due : Due text .description s) (before : BeforeBrace s t)
      (other : ∀ c ∈ t.head?, isBlank c = false ∧ c ≠ '{') : Fits text (.expected .openBrace t.head?) t
  | key {inside rest : List Char} {c : Char} (due : Due text (.tests inside) (c :: rest))
      (other : isBlank c = false ∧ c ≠ '}' ∧ startsName c = false) : Fits text (.expected .key (some c)) (c :: rest)
  | colon {key : Attribute} {inside s t : List Char} (due : Due text (.tests inside) (key.key.toList ++ s))
      (longest : Longest IsName key.key.toList s) (blanks : Blanks s t)
      (other : ∀ c ∈ t.head?, isBlank c = false ∧ c ≠ ':') : Fits text (.expected .colonAfterKey t.head?) t
  | parenthesis {tree : PatternTree} {s t u rest : List Char} {c : Char} (due : Due text .target ('(' :: s))
      (blanks : Blanks s t) (tree : TreeLayout tree t u) (after : Blanks u (c :: rest))
      (other : endsClauses c = true ∧ c ≠ ')') : Fits text (.expected .closeParenthesis (some c)) (c :: rest)
  | barOrBracket {d : Clause} {ds : List Clause} {inside s t rest : List Char} {c : Char}
      (due : Due text (.alternative inside) s) (clauses : ClausesLayout (d :: ds) s t) (after : Blanks t (c :: rest))
      (other : endsClauses c = true ∧ c ≠ '|' ∧ c ≠ ']') : Fits text (.expected .barOrBracket (some c)) (c :: rest)
  | openTests {inside s : List Char} (due : Due text (.tests inside) s) (all : Blanks s []) :
      Fits text (.unbalanced '{') ('{' :: inside)
  | openTarget {tree : PatternTree} {s t u : List Char} (due : Due text .target ('(' :: s)) (blanks : Blanks s t)
      (tree : TreeLayout tree t u) (all : Blanks u []) : Fits text (.unbalanced '(') ('(' :: s)
  | openGroup {c : Clause} {cs : List Clause} {inside s t : List Char} (due : Due text (.alternative inside) s)
      (clauses : ClausesLayout (c :: cs) s t) (all : Blanks t []) : Fits text (.unbalanced '[') ('[' :: inside)
  | noRelationInGroup {inside s t : List Char} (due : Due text (.alternative inside) s) (blanks : Blanks s t)
      (other : ∀ c ∈ t.head?, endsClauses c = true) : Fits text .noRelationInGroup t
  | noOperator {depth : Option DepthRange} {s t : List Char} (due : Due text .link s)
      (before : BeforeOperator depth s t) (other : ∀ c ∈ t.head?, c ≠ '<' ∧ c ≠ '>') : Fits text .noOperator t
  | depthOnDirect {bounds : DepthRange} {direction : Direction} {s t : List Char} (due : Due text .link s)
      (before : BeforeOperator (some bounds) s (Direction.symbol direction :: t))
      (single : Direction.symbol direction ∉ t.head?) : Fits text (.depthOnDirect direction) s
  | depthBounds {s n m rest : List Char} (due : Due text .link s) (mark : Mark s (n ++ ',' :: (m ++ rest)))
      (least : Longest IsNumber n (',' :: (m ++ rest))) (most : Longest IsNumber m rest)
      (crossed : decimalValue m < decimalValue n) :
      Fits text (.depthBounds (decimalValue n) (decimalValue m)) (n ++ ',' :: (m ++ rest))
  | noTarget {s : List Char} (due : Due text .target s)
      (other : ∀ c ∈ s.head?, isBlank c = false ∧ c ∉ ['(', '{', '!']) : Fits text .noTarget s
  | noName {s : List Char} (due : Due text .name s) (other : ∀ c ∈ s.head?, startsName c = false) :
      Fits text .noName s
  | unknownKey {inside name rest : List Char} (due : Due text (.tests inside) (name ++ rest))
      (longest : Longest IsName name rest) (unknown : ∀ key : Attribute, key.key.toList ≠ name) :
      Fits text (.unknownKey (String.ofList name)) (name ++ rest)
  | noValue {key : Attribute} {s : List Char} (due : Due text (.value key) s)
      (other : ∀ c ∈ s.head?, c = ',' ∨ c = '}') : Fits text (.noValue key.key) s
  | openValueRegex {key : Attribute} {s : List Char} (due : Due text (.value key) ('/' :: s))
      (unclosed : Unclosed RegexText '/' s) : Fits text .unterminatedRegex ('/' :: s)
  | openLabelRegex {s : List Char} (due : Due text .label ('/' :: s)) (unclosed : Unclosed RegexText '/' s) :
      Fits text .unterminatedRegex ('/' :: s)
  | openQuote {key : Attribute} {s : List Char} (due : Due text (.value key) ('"' :: s))
      (unclosed : Unclosed QuotedText '"' s) : Fits text .unterminatedQuote ('"' :: s)
  | valueRegex {key : Attribute} {body written rest : List Char} {e : Regex.SyntaxError}
      (due : Due text (.value key) ('/' :: (written ++ '/' :: rest))) (slashes : RegexText body written)
      (malformed : Regex.ofString (String.ofList body) = .error (.malformed e)) :
      Fits text (.invalidRegex (e.text body)) ('/' :: (written ++ '/' :: rest))
  | labelRegex {body written rest : List Char} {e : Regex.SyntaxError}
      (due : Due text .label ('/' :: (written ++ '/' :: rest))) (slashes : RegexText body written)
      (malformed : Regex.ofString (String.ofList body) = .error (.malformed e)) :
      Fits text (.invalidLabelRegex (e.text body)) ('/' :: (written ++ '/' :: rest))

/-- Whether what a fault names stands at the front of a text. -/
def Fault.Names : Fault → List Char → Prop
  | .unexpected found, s => s.head? = some found
  | .expected _ found, s => s.head? = found
  | .unbalanced opening, s => s.head? = some opening
  | .unterminatedRegex, s => s.head? = some '/'
  | .invalidRegex _, s => s.head? = some '/'
  | .invalidLabelRegex _, s => s.head? = some '/'
  | .unterminatedQuote, s => s.head? = some '"'
  | .unknownKey key, s => key.toList ≠ [] ∧ key.toList <+: s
  | .depthBounds _ _, s => ∃ c ∈ s.head?, isDecimalDigit c = true
  | .depthOnDirect _, s => ∃ c ∈ s.head?, c = '!' ∨ isDecimalDigit c = true
  | .blank, _ | .noRelationInGroup, _ | .noOperator, _ | .noTarget, _ | .noName, _ | .noValue _, _ => True

/-! ### Places lie within the text -/

variable {text s t rest : List Char}

omit [Text.CharacterNames] in
/-- What comes after a mark is a last part of the text. -/
theorem Mark.suffix (h : Mark s t) : t <:+ s := by
  cases h with
  | absent _ => exact List.suffix_refl _
  | present => exact List.suffix_cons _ _

omit [Text.CharacterNames] in
/-- What comes after what stands before a brace is a last part of the text. -/
theorem BeforeBrace.suffix (h : BeforeBrace s t) : t <:+ s := by
  cases h with
  | plain blanks _ => exact blanks.suffix
  | marked blanks more => exact more.suffix.trans ((List.suffix_cons _ _).trans blanks.suffix)

omit [Text.CharacterNames] in
/-- What comes after what stands before an operator is a last part of the text. -/
theorem BeforeOperator.suffix {depth : Option DepthRange} (h : BeforeOperator depth s t) : t <:+ s := by
  cases h with
  | plain mark _ => exact mark.suffix
  | depth depth mark => exact mark.suffix.trans depth.shorter.suffix
  | markedDepth depth => exact depth.shorter.suffix.trans (List.suffix_cons _ _)

/-- The place at which a part is due, or its opening character if there is one. -/
def Part.start : Part → List Char → List Char
  | .tests inside, _ => '{' :: inside
  | .alternative inside, _ => '[' :: inside
  | _, s => s

/-- A part is due within the text, and so is where it was opened. -/
theorem Due.suffix {part : Part} (h : Due text part s) : s <:+ text ∧ part.start s <:+ text := by
  induction h with
  | first => exact ⟨List.suffix_refl _, List.suffix_refl _⟩
  -- after a tree: behind the blanks and the tree
  | firstEnd blanks tree =>
    have hs := (TreeLayout.shorter _ tree).suffix.trans blanks.suffix
    exact ⟨hs, hs⟩
  | next _ colon ih =>
    have hs := ((List.suffix_cons _ _).trans colon.suffix).trans ih.1
    exact ⟨hs, hs⟩
  | nextEnd _ colon blanks tree ih =>
    have htree := (TreeLayout.shorter _ tree).suffix.trans blanks.suffix
    have hs := (htree.trans ((List.suffix_cons _ _).trans colon.suffix)).trans ih.1
    exact ⟨hs, hs⟩
  | description _ ih => exact ih
  -- inside the braces the part begins at the brace, which a fault for the whole may name
  | tests _ brace blanks ih =>
    have hbrace := brace.suffix.trans ih.1
    exact ⟨blanks.suffix.trans ((List.suffix_cons _ _).trans hbrace), hbrace⟩
  | moreTests _ test separator ih =>
    exact ⟨(separator.suffix.trans test.shorter.suffix).trans ih.1, ih.2⟩
  | value _ colon blanks ih =>
    have hkey := (List.suffix_append _ _).trans ih.1
    have hs := blanks.suffix.trans (((List.suffix_cons _ _).trans colon.suffix).trans hkey)
    exact ⟨hs, hs⟩
  | name _ ih =>
    have hs := ((List.suffix_cons _ _).trans (List.suffix_cons _ _)).trans ih.1
    exact ⟨hs, hs⟩
  | clauses _ blanks description ih =>
    have hs := (description.shorter.suffix.trans blanks.suffix).trans ih.1
    exact ⟨hs, hs⟩
  | moreClauses _ blanks clause ih =>
    have hs := ((ClauseLayout.shorter _ clause).suffix.trans blanks.suffix).trans ih.1
    exact ⟨hs, hs⟩
  -- inside a bracket the part begins at the bracket
  | group _ bracket ih =>
    have hbracket := bracket.suffix.trans ih.1
    exact ⟨(List.suffix_cons _ _).trans hbracket, hbracket⟩
  | within _ ih => exact ⟨ih.1, ih.1⟩
  | nextAlternative _ clauses bar ih =>
    have hbar := ((List.suffix_cons _ _).trans bar.suffix).trans (ClausesLayout.suffix _ clauses)
    exact ⟨hbar.trans ih.1, ih.2⟩
  | link _ blanks _ ih =>
    have hs := blanks.suffix.trans ih.1
    exact ⟨hs, hs⟩
  | label _ operator _ ih =>
    have hs := ((List.suffix_append _ _).trans operator.suffix).trans ih.1
    exact ⟨hs, hs⟩
  | target _ relation blanks ih =>
    have hs := (blanks.suffix.trans relation.shorter.suffix).trans ih.1
    exact ⟨hs, hs⟩
  | bare _ _ ih => exact ih
  | parenthesized _ ih =>
    have hs := (List.suffix_cons _ _).trans ih.1
    exact ⟨hs, hs⟩

/-- A fault fits within the text only. -/
theorem Fits.suffix {fault : Fault} (h : Fits text fault s) : s <:+ text := by
  cases h with
  | blank _ => exact List.suffix_refl _
  -- where something follows the part that is due, it is passed over first
  | unexpected due blanks _ => exact blanks.suffix.trans due.suffix.1
  | openBrace due before _ => exact before.suffix.trans due.suffix.1
  | key due _ => exact due.suffix.1
  | colon due _ blanks _ => exact blanks.suffix.trans ((List.suffix_append _ _).trans due.suffix.1)
  | parenthesis due blanks tree after _ =>
    have hinside := (TreeLayout.shorter _ tree).suffix.trans blanks.suffix
    exact ((after.suffix.trans hinside).trans (List.suffix_cons _ _)).trans due.suffix.1
  | barOrBracket due clauses after _ =>
    exact (after.suffix.trans (ClausesLayout.suffix _ clauses)).trans due.suffix.1
  | openTests due _ => exact due.suffix.2
  | openTarget due _ _ _ => exact due.suffix.1
  | openGroup due _ _ => exact due.suffix.2
  | noRelationInGroup due blanks _ => exact blanks.suffix.trans due.suffix.1
  | noOperator due before _ => exact before.suffix.trans due.suffix.1
  | depthOnDirect due _ _ => exact due.suffix.1
  | depthBounds due mark _ _ _ => exact mark.suffix.trans due.suffix.1
  | noTarget due _ => exact due.suffix.1
  | noName due _ => exact due.suffix.1
  | unknownKey due _ _ => exact due.suffix.1
  | noValue due _ => exact due.suffix.1
  | openValueRegex due _ => exact due.suffix.1
  | openLabelRegex due _ => exact due.suffix.1
  | openQuote due _ => exact due.suffix.1
  | valueRegex due _ _ => exact due.suffix.1
  | labelRegex due _ _ => exact due.suffix.1

/-! ### Places show what faults name -/

omit [Text.CharacterNames] in
/-- Bounds begin with a digit. -/
theorem DepthLayout.exists_digit {bounds : DepthRange} (h : DepthLayout bounds s rest) :
    ∃ c ∈ s.head?, isDecimalDigit c = true := by
  obtain ⟨c, tail, rfl, hc⟩ := h.exists_cons
  exact ⟨c, rfl, hc⟩

/-- What a fault names stands where it fits. -/
theorem Fits.names {fault : Fault} (h : Fits text fault s) : fault.Names s := by
  cases h with
  | depthOnDirect due before single =>
    cases before with
    | depth depth _ =>
      obtain ⟨c, hc, hdigit⟩ := depth.exists_digit
      exact ⟨c, hc, .inr hdigit⟩
    | markedDepth _ => exact ⟨'!', rfl, .inl rfl⟩
  | depthBounds due mark least most crossed =>
    obtain ⟨c, tail, rfl, hc, -⟩ := least.valid
    exact ⟨c, rfl, hc⟩
  | unknownKey due longest unknown =>
    rw [Fault.Names, String.toList_ofList]
    exact ⟨longest.valid.ne_nil, List.prefix_append _ _⟩
  | _ => simp [Fault.Names]

end DependencyQuery.Pattern
