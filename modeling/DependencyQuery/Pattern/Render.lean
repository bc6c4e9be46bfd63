import DependencyQuery.Pattern.Reader

namespace DependencyQuery

open Pattern (literal?)

/-!
# Writing patterns

The canonical text of a pattern: one blank between the parts, both bounds of a depth, and
parentheses around a target just when clauses hang off it.

* `escapeRegex`, `escapeQuoted` — what stands between slashes and between quotes;
* `Description.render`, `Link.render`, `PatternTree.render`, `Clause.render`, `Pattern.render`.
-/

/-- The characters of a regular expression between slashes. -/
def escapeRegex : List Char → List Char
  | [] => []
  | c :: rest => if c = '/' then '\\' :: '/' :: escapeRegex rest else c :: escapeRegex rest

/-- The characters of a text between quotes. -/
def escapeQuoted : List Char → List Char
  | [] => []
  | c :: rest => if c = '\\' ∨ c = '"' then '\\' :: c :: escapeQuoted rest else c :: escapeQuoted rest

variable [Text.CharacterNames]

/-- A regular expression between slashes. -/
def renderRegex (r : Regex) : List Char := '/' :: escapeRegex r.source.toList ++ ['/']

/-- Whether a value can stand without quotes. -/
def isLiteral (s : List Char) : Bool :=
  match literal? s with
  | some (_, []) => true
  | _ => false

/-- A value, between quotes only where it needs them. -/
def ValueTest.render : ValueTest → List Char
  | literal text =>
    if isLiteral text.toList then text.toList else '"' :: escapeQuoted text.toList ++ ['"']
  | regex expression => renderRegex expression

/-- A test. -/
def AttributeTest.render (t : AttributeTest) : List Char := t.key.key.toList ++ ':' :: t.value.render

/-- Parts with a separator between them. -/
def joinWith (separator : List Char) (parts : List (List Char)) : List Char :=
  separator.intercalate parts

/-- A node description. -/
def Description.render (d : Description) : List Char :=
  (if d.negated then ['!'] else []) ++ '{' :: joinWith [','] (d.tests.map AttributeTest.render) ++
    '}' ::
      match d.name with
      | some name => '=' :: name.toList
      | none => []

/-- The digits of a number. -/
def renderNumber (n : Nat) : List Char := Nat.toDigits 10 n

/-- Bounds for a depth. -/
def DepthRange.render (r : DepthRange) : List Char :=
  renderNumber r.least ++ ',' ::
    match r.most with
    | some most => renderNumber most
    | none => []

/-- The labels that a relation accepts. -/
def LabelFilter.render : LabelFilter → List Char
  | name label => label.toList
  | regex expression => renderRegex expression

/-- A relation up to its target. -/
def Link.render (l : Link) : List Char :=
  let symbol := Pattern.Direction.symbol l.direction
  (if l.negated then ['!'] else []) ++
    (match l.reach with
    -- a depth stands before the operator, which is doubled
    | .direct => [symbol]
    | .far none => [symbol, symbol]
    | .far (some bounds) => bounds.render ++ [symbol, symbol]) ++
    match l.label with
    | some label => label.render
    | none => []

mutual

/-- A tree. -/
def PatternTree.render : PatternTree → List Char
  | .node description clauses => description.render ++ renderFollowing clauses

/-- A clause. -/
def Clause.render : Clause → List Char
  | .link relation (.node description []) => relation.render ++ ' ' :: description.render
  | .link relation target => relation.render ++ ' ' :: '(' :: target.render ++ [')']
  | .group [] => ['[', ']']
  | .group (clauses :: more) => '[' :: renderSequence clauses ++ renderAlternatives more ++ [']']

/-- Clauses with a blank before each. -/
def renderFollowing : List Clause → List Char
  | [] => []
  | clause :: rest => ' ' :: clause.render ++ renderFollowing rest

/-- Clauses with a blank between each two. -/
def renderSequence : List Clause → List Char
  | [] => []
  | clause :: rest => clause.render ++ renderFollowing rest

/-- Further alternatives, each after a bar. -/
def renderAlternatives : List (List Clause) → List Char
  | [] => []
  | clauses :: rest => [' ', '|', ' '] ++ renderSequence clauses ++ renderAlternatives rest

end

/-- The canonical text of a pattern. -/
def Pattern.render (p : Pattern) : String :=
  String.ofList (joinWith [' ', ':', ' '] (p.trees.map PatternTree.render))

end DependencyQuery
