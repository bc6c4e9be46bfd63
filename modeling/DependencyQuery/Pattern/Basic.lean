import DependencyQuery.Regex.Basic

namespace DependencyQuery

/-!
# Patterns over dependency graphs

A pattern describes a node of a dependency graph and, clause by clause, the nodes around it.

* `Description` — tests on a node's attributes, and the name that the node is bound to;
* `Link` — one relation between two nodes: its direction, how far it reaches, and the labels it
  accepts;
* `PatternTree`, `Clause` — a description with the clauses that hang off it; a clause is a link to
  another tree, or a choice between sequences of clauses;
* `Pattern` — one or more trees that describe the same node.
-/

/-- The attributes of a node that a pattern may test. -/
inductive Attribute where
  | word
  | value
  /-- The dictionary form of the word. -/
  | base
  | tag
  /-- The kind of thing that the word names. -/
  | entity
deriving DecidableEq, Repr

namespace Attribute

/-- The key under which a graph keeps the attribute, and by which a pattern names it. -/
def key : Attribute → String
  | word => "word"
  | value => "value"
  | base => "lemma"
  | tag => "tag"
  | entity => "ner"

/-- All attributes. -/
def all : List Attribute := [word, value, base, tag, entity]

/-- The attribute with the given key. -/
def ofKey? (key : String) : Option Attribute := all.find? fun a => a.key = key

end Attribute

variable [Text.CharacterNames]

/-- What a value has to be: a given text, or one that a regular expression matches from end to end. -/
inductive ValueTest where
  | literal (text : String)
  | regex (expression : Regex)
deriving DecidableEq, Repr

/-- Whether a value passes. -/
def ValueTest.accepts : ValueTest → String → Bool
  | literal text, value => value = text
  | regex expression, value => expression.fullMatches value

/-- A test on one attribute of a node. -/
structure AttributeTest where
  key : Attribute
  value : ValueTest
deriving DecidableEq, Repr

/-- A condition on one node. -/
structure Description where
  /-- All of these have to pass. -/
  tests : List AttributeTest := []
  /-- Turns the outcome of the tests around. -/
  negated : Bool := false
  /-- The name that the node is bound to. -/
  name : Option String := none
deriving DecidableEq, Repr

/-- Bounds for the number of edges between two nodes; without `most` there is no upper one. -/
structure DepthRange where
  least : Nat
  most : Option Nat
deriving DecidableEq, Repr

namespace DepthRange

/-- Whether a depth lies within an optional upper bound. -/
def atMost (depth : Nat) : Option Nat → Bool
  | none => true
  | some most => depth ≤ most

/-- Whether a depth lies within the bounds; depth zero never does. -/
def contains (r : DepthRange) (depth : Nat) : Bool := max r.least 1 ≤ depth && atMost depth r.most

/-- Bounds given as integers, of which a negative one counts as zero. -/
def ofInts (least : Int) (most : Option Int) : DepthRange := ⟨least.toNat, most.map Int.toNat⟩

/-- Exactly one edge. -/
def one : DepthRange := ⟨1, some 1⟩

/-- Any number of edges but none. -/
def any : DepthRange := ⟨1, none⟩

end DepthRange

/-- Along which edges a link leads. -/
inductive Direction where
  /-- From a node to what governs it. -/
  | up
  /-- From a node to what depends on it. -/
  | down
deriving DecidableEq, Repr

/-- How far a link reaches. -/
inductive Reach where
  /-- Over one edge. -/
  | direct
  /-- Over any number of edges, within bounds if there are some. -/
  | far (bounds : Option DepthRange)
deriving DecidableEq, Repr

/-- The depths that a link covers. -/
def Reach.range : Reach → DepthRange
  | direct => .one
  | far none => .any
  | far (some bounds) => bounds

/-- Which edge labels a link accepts. -/
inductive LabelFilter where
  /-- A label, and whatever the label taxonomy holds for a kind of it. -/
  | name (label : String)
  /-- Labels that a regular expression matches from end to end. -/
  | regex (expression : Regex)
deriving DecidableEq, Repr

/-- The text of a filter, in which slashes mark a regular expression. -/
def LabelFilter.text : LabelFilter → String
  | name label => label
  | regex expression => "/" ++ expression.source ++ "/"

/-- A relation between two nodes. -/
structure Link where
  direction : Direction
  reach : Reach
  /-- Accepts every label if there is none. -/
  label : Option LabelFilter := none
  /-- Requires that there is no such relation. -/
  negated : Bool := false
deriving DecidableEq, Repr

/-- The depths that a link covers. -/
def Link.range (l : Link) : DepthRange := l.reach.range

mutual

/-- A description of a node and the clauses that hold for it. -/
inductive PatternTree where
  | node (description : Description) (clauses : List Clause)
deriving Repr

/-- A condition on the nodes around a node. -/
inductive Clause where
  /-- A node that is related in the given way and fits the target. -/
  | link (relation : Link) (target : PatternTree)
  /-- One of the alternatives, each of them a sequence of clauses. -/
  | group (alternatives : List (List Clause))
deriving Repr

end

namespace PatternTree

/-- The description at the root of the tree. -/
def description : PatternTree → Description
  | node description _ => description

/-- The clauses at the root of the tree. -/
def clauses : PatternTree → List Clause
  | node _ clauses => clauses

end PatternTree

/-- Trees that describe the same node, one at least. -/
structure Pattern where
  first : PatternTree
  rest : List PatternTree := []
deriving Repr

/-- The trees of a pattern. -/
def Pattern.trees (p : Pattern) : List PatternTree := p.first :: p.rest

/-! ### Names -/

mutual

/-- The descriptions in a tree, those at the top first, from left to right. -/
def PatternTree.descriptions : PatternTree → List Description
  | .node description clauses => description :: descriptionsOfClauses clauses

/-- The descriptions in a clause. -/
def Clause.descriptions : Clause → List Description
  | .link _ target => target.descriptions
  | .group alternatives => descriptionsOfAlternatives alternatives

/-- The descriptions in a sequence of clauses. -/
def descriptionsOfClauses : List Clause → List Description
  | [] => []
  | clause :: rest => clause.descriptions ++ descriptionsOfClauses rest

/-- The descriptions in alternative sequences of clauses. -/
def descriptionsOfAlternatives : List (List Clause) → List Description
  | [] => []
  | clauses :: rest => descriptionsOfClauses clauses ++ descriptionsOfAlternatives rest

end

/-- The names in a pattern, in the order in which they first appear. -/
def Pattern.names (p : Pattern) : List String :=
  ((p.trees.flatMap PatternTree.descriptions).filterMap (·.name)).eraseDups

/-! ### Equality -/

mutual

/-- Decides whether two trees are equal. -/
def PatternTree.decEq : (s t : PatternTree) → Decidable (s = t)
  | .node d cs, .node e ds =>
    match decEq d e, clausesDecEq cs ds with
    | isTrue h, isTrue k => isTrue (by rw [h, k])
    | isFalse h, _ => isFalse fun h' => h (PatternTree.node.inj h').1
    | _, isFalse h => isFalse fun h' => h (PatternTree.node.inj h').2

/-- Decides whether two clauses are equal. -/
def Clause.decEq : (a b : Clause) → Decidable (a = b)
  | .link r s, .link q t =>
    match decEq r q, PatternTree.decEq s t with
    | isTrue h, isTrue k => isTrue (by rw [h, k])
    | isFalse h, _ => isFalse fun h' => h (Clause.link.inj h').1
    | _, isFalse h => isFalse fun h' => h (Clause.link.inj h').2
  | .group as, .group bs =>
    match alternativesDecEq as bs with
    | isTrue h => isTrue (by rw [h])
    | isFalse h => isFalse fun h' => h (Clause.group.inj h')
  | .link _ _, .group _ => isFalse nofun
  | .group _, .link _ _ => isFalse nofun

/-- Decides whether two sequences of clauses are equal. -/
def clausesDecEq : (as bs : List Clause) → Decidable (as = bs)
  | [], [] => isTrue rfl
  | a :: as, b :: bs =>
    match Clause.decEq a b, clausesDecEq as bs with
    | isTrue h, isTrue k => isTrue (by rw [h, k])
    | isFalse h, _ => isFalse fun h' => h (List.cons.inj h').1
    | _, isFalse h => isFalse fun h' => h (List.cons.inj h').2
  | [], _ :: _ => isFalse nofun
  | _ :: _, [] => isFalse nofun

/-- Decides whether two lists of alternatives are equal. -/
def alternativesDecEq : (as bs : List (List Clause)) → Decidable (as = bs)
  | [], [] => isTrue rfl
  | a :: as, b :: bs =>
    match clausesDecEq a b, alternativesDecEq as bs with
    | isTrue h, isTrue k => isTrue (by rw [h, k])
    | isFalse h, _ => isFalse fun h' => h (List.cons.inj h').1
    | _, isFalse h => isFalse fun h' => h (List.cons.inj h').2
  | [], _ :: _ => isFalse nofun
  | _ :: _, [] => isFalse nofun

end

/-- Trees are compared from their roots on. -/
instance : DecidableEq PatternTree := PatternTree.decEq

/-- Clauses are compared like the trees below them. -/
instance : DecidableEq Clause := Clause.decEq

deriving instance DecidableEq for Pattern

end DependencyQuery
