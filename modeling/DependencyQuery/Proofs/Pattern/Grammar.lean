import DependencyQuery.Proofs.Pattern.Parts

namespace DependencyQuery.Pattern

open Text (decimalValue isBlank isDecimalDigit)

/-!
# The grammar of patterns

What a text looks like that is a pattern, said without a word on how it is read.  Each relation holds
between a part of a pattern, a text that begins with the part, and what follows it in the text.

* `Blanks` — any number of blanks, none included;
* `Run`, `IsName`, `IsLiteral`, `IsLabel`, `IsNumber` — the tokens, and `Longest` — that a token goes on
  for as long as it can;
* `RegexText`, `QuotedText` — what is written between slashes and between quotes;
* `DescriptionLayout`, `LinkLayout` — a description, and a relation up to its target;
* `TreeLayout`, `ClausesLayout`, `ClauseLayout`, `AlternativesLayout` — the grammar proper;
* `PatternLayout` — a whole pattern: trees with colons between them, and nothing after the last.

One pattern has many layouts: blanks may stand between most parts, a value may be written with or without
quotes, and an exclamation mark before or after a depth.
-/

/-! ### Blanks and tokens -/

/-- What is left of a text after blanks at its front, be it all of them, some or none. -/
inductive Blanks : List Char → List Char → Prop
  | none {s : List Char} : Blanks s s
  | cons {c : Char} {s rest : List Char} (blank : isBlank c = true) (more : Blanks s rest) :
      Blanks (c :: s) rest

/-- A character that starts a token, and characters that continue it. -/
def Run (starts continues : Char → Bool) (s : List Char) : Prop :=
  ∃ c tail, s = c :: tail ∧ starts c = true ∧ ∀ d ∈ tail, continues d = true

/-- An identifier. -/
def IsName : List Char → Prop := Run startsName continuesName

/-- A value without quotes. -/
def IsLiteral : List Char → Prop := Run (fun c => continuesLiteral c && c ≠ '/') continuesLiteral

/-- Decimal digits of any script. -/
def IsNumber : List Char → Prop := Run isDecimalDigit isDecimalDigit

/-- An edge label: an identifier that may hold hyphens, then subtypes, each after a colon. -/
def IsLabel (s : List Char) : Prop :=
  ∃ (stem : List Char) (subtypes : List (List Char)), s = stem ++ subtypes.flatMap (':' :: ·) ∧
    Run startsName continuesLabel stem ∧ ∀ subtype ∈ subtypes, Run continuesName continuesName subtype

/-- A token that cannot be made longer by what follows it. -/
structure Longest (kind : List Char → Prop) (token rest : List Char) : Prop where
  valid : kind token
  maximal : ∀ more tail, more ++ tail = rest → more ≠ [] → ¬kind (token ++ more)

/-! ### Values -/

/-- The body of a regular expression, and what is written of it between slashes: a slash has a
backslash before it, and a backslash stands as it is together with the character after it. -/
inductive RegexText : List Char → List Char → Prop
  | nil : RegexText [] []
  | slash {body written : List Char} (more : RegexText body written) :
      RegexText ('/' :: body) ('\\' :: '/' :: written)
  | pair {c : Char} {body written : List Char} (other : c ≠ '/') (more : RegexText body written) :
      RegexText ('\\' :: c :: body) ('\\' :: c :: written)
  | plain {c : Char} {body written : List Char} (noBackslash : c ≠ '\\') (noSlash : c ≠ '/')
      (more : RegexText body written) : RegexText (c :: body) (c :: written)

/-- A text, and what is written of it between quotes: any character may have a backslash before it,
and a quote or a backslash has to. -/
inductive QuotedText : List Char → List Char → Prop
  | nil : QuotedText [] []
  | escaped {c : Char} {text written : List Char} (more : QuotedText text written) :
      QuotedText (c :: text) ('\\' :: c :: written)
  | plain {c : Char} {text written : List Char} (noBackslash : c ≠ '\\') (noQuote : c ≠ '"')
      (more : QuotedText text written) : QuotedText (c :: text) (c :: written)

variable [Text.CharacterNames]

/-- A value: a literal, a text between quotes, or a regular expression between slashes. -/
inductive ValueLayout : ValueTest → List Char → List Char → Prop
  | literal {token rest : List Char} (longest : Longest IsLiteral token rest) :
      ValueLayout (.literal (String.ofList token)) (token ++ rest) rest
  | quoted {text written rest : List Char} (quotes : QuotedText text written) :
      ValueLayout (.literal (String.ofList text)) ('"' :: (written ++ '"' :: rest)) rest
  | regex {r : Regex} {written rest : List Char} (slashes : RegexText r.source.toList written) :
      ValueLayout (.regex r) ('/' :: (written ++ '/' :: rest)) rest

/-! ### Descriptions -/

/-- A test: a key, a colon and a value. -/
inductive TestLayout : AttributeTest → List Char → List Char → Prop
  | test {key : Attribute} {v : ValueTest} {s t u rest : List Char} (beforeColon : Blanks s (':' :: t))
      (afterColon : Blanks t u) (value : ValueLayout v u rest) :
      TestLayout ⟨key, v⟩ (key.key.toList ++ s) rest

/-- What may stand after a test: blanks, and among them one comma at most. -/
inductive Separator : List Char → List Char → Prop
  | blanks {s rest : List Char} (only : Blanks s rest) : Separator s rest
  | comma {s t rest : List Char} (before : Blanks s (',' :: t)) (after : Blanks t rest) :
      Separator s rest

/-- Tests up to the closing brace. -/
inductive TestsLayout : List AttributeTest → List Char → List Char → Prop
  | nil {rest : List Char} : TestsLayout [] ('}' :: rest) rest
  | cons {test : AttributeTest} {tests : List AttributeTest} {s t u rest : List Char}
      (first : TestLayout test s t) (separator : Separator t u) (more : TestsLayout tests u rest) :
      TestsLayout (test :: tests) s rest

/-- A name after an equals sign, or nothing. -/
inductive NameLayout : Option String → List Char → List Char → Prop
  | none {rest : List Char} : NameLayout none rest rest
  | some {name rest : List Char} (longest : Longest IsName name rest) :
      NameLayout (some (String.ofList name)) ('=' :: (name ++ rest)) rest

/-- A description: tests between braces, perhaps after an exclamation mark, and perhaps a name. -/
inductive DescriptionLayout : Description → List Char → List Char → Prop
  | plain {tests : List AttributeTest} {name : Option String} {s t u rest : List Char}
      (blanks : Blanks s t) (inside : TestsLayout tests t u) (named : NameLayout name u rest) :
      DescriptionLayout ⟨tests, false, name⟩ ('{' :: s) rest
  | negated {tests : List AttributeTest} {name : Option String} {s t rest : List Char}
      (blanks : Blanks s t) (description : DescriptionLayout ⟨tests, false, name⟩ t rest) :
      DescriptionLayout ⟨tests, true, name⟩ ('!' :: s) rest

/-! ### Relations -/

/-- Bounds of a depth: one number for both, two that do not cross, or one before a comma. -/
inductive DepthLayout : DepthRange → List Char → List Char → Prop
  | exactly {n rest : List Char} (number : Longest IsNumber n rest) :
      DepthLayout ⟨decimalValue n, some (decimalValue n)⟩ (n ++ rest) rest
  | between {n m rest : List Char} (least : Longest IsNumber n (',' :: (m ++ rest)))
      (most : Longest IsNumber m rest) (ordered : decimalValue n ≤ decimalValue m) :
      DepthLayout ⟨decimalValue n, some (decimalValue m)⟩ (n ++ ',' :: (m ++ rest)) rest
  | atLeast {n rest : List Char} (least : Longest IsNumber n (',' :: rest)) :
      DepthLayout ⟨decimalValue n, none⟩ (n ++ ',' :: rest) rest

/-- The labels that a relation accepts, right after its operator. -/
inductive LabelLayout : Option LabelFilter → List Char → List Char → Prop
  | none {rest : List Char} : LabelLayout none rest rest
  | name {label rest : List Char} (longest : Longest IsLabel label rest) :
      LabelLayout (some (.name (String.ofList label))) (label ++ rest) rest
  | regex {r : Regex} {written rest : List Char} (slashes : RegexText r.source.toList written) :
      LabelLayout (some (.regex r)) ('/' :: (written ++ '/' :: rest)) rest

/-- A relation up to its target.  Only a doubled operator takes a depth, and an exclamation mark may
stand before all of it or between depth and operator. -/
inductive LinkLayout : Link → List Char → List Char → Prop
  | direct {direction : Direction} {label : Option LabelFilter} {s rest : List Char}
      (labels : LabelLayout label s rest) :
      LinkLayout ⟨direction, .direct, label, false⟩ (operatorText direction false ++ s) rest
  | far {direction : Direction} {label : Option LabelFilter} {s rest : List Char}
      (labels : LabelLayout label s rest) :
      LinkLayout ⟨direction, .far none, label, false⟩ (operatorText direction true ++ s) rest
  | bounded {direction : Direction} {bounds : DepthRange} {label : Option LabelFilter}
      {s t rest : List Char} (depth : DepthLayout bounds s (operatorText direction true ++ t))
      (labels : LabelLayout label t rest) :
      LinkLayout ⟨direction, .far (some bounds), label, false⟩ s rest
  | negated {direction : Direction} {reach : Reach} {label : Option LabelFilter} {s rest : List Char}
      (relation : LinkLayout ⟨direction, reach, label, false⟩ s rest) :
      LinkLayout ⟨direction, reach, label, true⟩ ('!' :: s) rest
  | boundedNegated {direction : Direction} {bounds : DepthRange} {label : Option LabelFilter}
      {s t rest : List Char}
      (depth : DepthLayout bounds s ('!' :: (operatorText direction true ++ t)))
      (labels : LabelLayout label t rest) :
      LinkLayout ⟨direction, .far (some bounds), label, true⟩ s rest

/-! ### The grammar -/

mutual

/-- A description and the clauses after it. -/
inductive TreeLayout : PatternTree → List Char → List Char → Prop
  | node {d : Description} {cs : List Clause} {s t rest : List Char}
      (description : DescriptionLayout d s t) (clauses : ClausesLayout cs t rest) :
      TreeLayout (.node d cs) s rest

/-- Clauses, each after blanks. -/
inductive ClausesLayout : List Clause → List Char → List Char → Prop
  | nil {rest : List Char} : ClausesLayout [] rest rest
  | cons {c : Clause} {cs : List Clause} {s t u rest : List Char} (blanks : Blanks s t)
      (first : ClauseLayout c t u) (more : ClausesLayout cs u rest) : ClausesLayout (c :: cs) s rest

/-- A relation and its target, which stands in parentheses if clauses hang off it; or alternatives
between brackets. -/
inductive ClauseLayout : Clause → List Char → List Char → Prop
  | bare {l : Link} {d : Description} {s t u rest : List Char} (relation : LinkLayout l s t)
      (blanks : Blanks t u) (target : DescriptionLayout d u rest) :
      ClauseLayout (.link l (.node d [])) s rest
  | parenthesized {l : Link} {tree : PatternTree} {s t u v w rest : List Char}
      (relation : LinkLayout l s t) (blanks : Blanks t ('(' :: u)) (afterOpening : Blanks u v)
      (target : TreeLayout tree v w) (beforeClosing : Blanks w (')' :: rest)) :
      ClauseLayout (.link l tree) s rest
  | group {as : List (List Clause)} {s t rest : List Char} (blanks : Blanks s t)
      (alternatives : AlternativesLayout as t rest) : ClauseLayout (.group as) ('[' :: s) rest

/-- Alternatives up to the closing bracket, with bars between them; each has one clause at least. -/
inductive AlternativesLayout : List (List Clause) → List Char → List Char → Prop
  | last {c : Clause} {cs : List Clause} {s t u rest : List Char} (first : ClauseLayout c s t)
      (more : ClausesLayout cs t u) (blanks : Blanks u (']' :: rest)) :
      AlternativesLayout [c :: cs] s rest
  | cons {c : Clause} {cs : List Clause} {as : List (List Clause)} {s t u v w rest : List Char}
      (first : ClauseLayout c s t) (more : ClausesLayout cs t u) (beforeBar : Blanks u ('|' :: v))
      (afterBar : Blanks v w) (alternatives : AlternativesLayout as w rest) :
      AlternativesLayout ((c :: cs) :: as) s rest

end

/-- Further trees, each after a colon, up to the end of the text. -/
inductive TreesLayout : List PatternTree → List Char → Prop
  | nil {s : List Char} (blanks : Blanks s []) : TreesLayout [] s
  | cons {tree : PatternTree} {trees : List PatternTree} {s t u v : List Char}
      (beforeColon : Blanks s (':' :: t)) (afterColon : Blanks t u) (first : TreeLayout tree u v)
      (more : TreesLayout trees v) : TreesLayout (tree :: trees) s

/-- A whole pattern. -/
inductive PatternLayout : Pattern → List Char → Prop
  | pattern {tree : PatternTree} {trees : List PatternTree} {s t u : List Char} (blanks : Blanks s t)
      (first : TreeLayout tree t u) (more : TreesLayout trees u) : PatternLayout ⟨tree, trees⟩ s

end DependencyQuery.Pattern
