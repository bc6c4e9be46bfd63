/-!
# Regular expressions: syntax trees

* `Term` — what a regular expression is made of, sequences and alternatives as binary nodes;
* `Modes` — the switches that inline flags turn on and off;
* `Term.width` — the fewest and the most characters that a term can take up.

Characters stand as code points, for an expression may name one that no text holds.
-/

namespace DependencyQuery.Regex

/-- The switches that govern how a term is read and matched. -/
structure Modes where
  /-- Letters match in either case. -/
  ignoreCase : Bool := false
  /-- `^` and `$` also match at line ends inside the text. -/
  multiline : Bool := false
  /-- `.` also matches a line feed. -/
  dotAll : Bool := false
  /-- Blanks and comments in the expression are skipped. -/
  verbose : Bool := false
  /-- Character classes and case mapping cover ASCII only. -/
  ascii : Bool := false
  /-- Character classes and case mapping cover all of Unicode. -/
  unicode : Bool := false
  /-- The expression is a template, in which nothing may be repeated. -/
  template : Bool := false
deriving DecidableEq, Repr

namespace Modes

/-- Whether one of the switches that choose a character set is on. -/
def choosesCharacters (m : Modes) : Bool := m.ascii || m.unicode

/-- The switches on in one of the two. -/
def union (a b : Modes) : Modes where
  ignoreCase := a.ignoreCase || b.ignoreCase
  multiline := a.multiline || b.multiline
  dotAll := a.dotAll || b.dotAll
  verbose := a.verbose || b.verbose
  ascii := a.ascii || b.ascii
  unicode := a.unicode || b.unicode
  template := a.template || b.template

/-- The switches on in both. -/
def inter (a b : Modes) : Modes where
  ignoreCase := a.ignoreCase && b.ignoreCase
  multiline := a.multiline && b.multiline
  dotAll := a.dotAll && b.dotAll
  verbose := a.verbose && b.verbose
  ascii := a.ascii && b.ascii
  unicode := a.unicode && b.unicode
  template := a.template && b.template

/-- The switches on in the first and off in the second. -/
def diff (a b : Modes) : Modes where
  ignoreCase := a.ignoreCase && !b.ignoreCase
  multiline := a.multiline && !b.multiline
  dotAll := a.dotAll && !b.dotAll
  verbose := a.verbose && !b.verbose
  ascii := a.ascii && !b.ascii
  unicode := a.unicode && !b.unicode
  template := a.template && !b.template

/-- The modes inside a group that turns `on` and `off` switches; a choice of the character set there
replaces the one outside. -/
def within (m on off : Modes) : Modes :=
  let kept := if on.choosesCharacters then { m with ascii := false, unicode := false } else m
  (kept.union on).diff off

end Modes

/-- The classes of characters that have an escape of their own. -/
inductive Category where
  | digit
  | space
  | word
deriving DecidableEq, Repr

/-- A member of a character set. -/
inductive SetItem where
  | one (point : Nat)
  | range (first last : Nat)
  | category (kind : Category) (negated : Bool)
deriving DecidableEq, Repr

/-- A condition on a place in the text. -/
inductive Anchor where
  /-- `^` -/
  | lineStart
  /-- `$` -/
  | lineEnd
  /-- `\A` -/
  | textStart
  /-- `\Z` -/
  | textEnd
  /-- `\b` -/
  | wordEdge
  /-- `\B` -/
  | noWordEdge
deriving DecidableEq, Repr

/-- How a repetition chooses its number of rounds. -/
inductive Greed where
  /-- As many rounds as can be, fewer on the way back. -/
  | greedy
  /-- As few rounds as can be, more on the way back. -/
  | lazy
  /-- As many rounds as can be, with no way back. -/
  | possessive
deriving DecidableEq, Repr

/-- A regular expression. -/
inductive Term where
  | empty
  | char (point : Nat)
  | notChar (point : Nat)
  | any
  | set (negated : Bool) (items : List SetItem)
  | anchor (place : Anchor)
  | cat (first second : Term)
  | alt (first second : Term)
  /-- A group that captures under a number, or one that only turns switches. -/
  | group (number : Option Nat) (on off : Modes) (body : Term)
  | atomic (body : Term)
  | look (ahead negated : Bool) (body : Term)
  /-- From `least` to `most` rounds of `body`; without `most` there is no limit. -/
  | rounds (greed : Greed) (least : Nat) (most : Option Nat) (body : Term)
  | backref (number : Nat)
  | conditional (number : Nat) (yes no : Term)
deriving Repr

/-- The fewest and the most characters that a term takes up, both cut off at `Width.unbounded`. -/
structure Width where
  least : Nat
  most : Nat
deriving DecidableEq, Repr

/-- The width that stands for "without limit". -/
def Width.unbounded : Nat := Nat.pow 2 64

/-- The width within the cut-off. -/
def Width.capped (w : Width) : Width := ⟨min w.least unbounded, min w.most unbounded⟩

/-- The width of a term, given the widths of the captured groups. -/
def Term.width (groups : Nat → Width) : Term → Width
  | empty => ⟨0, 0⟩
  | char _ => ⟨1, 1⟩
  | notChar _ => ⟨1, 1⟩
  | any => ⟨1, 1⟩
  | set _ _ => ⟨1, 1⟩
  | anchor _ => ⟨0, 0⟩
  | cat a b =>
    let x := a.width groups
    let y := b.width groups
    Width.capped ⟨x.least + y.least, x.most + y.most⟩
  | alt a b =>
    let x := a.width groups
    let y := b.width groups
    ⟨min x.least y.least, max x.most y.most⟩
  | group _ _ _ body => body.width groups
  | atomic body => body.width groups
  | look _ _ _ => ⟨0, 0⟩
  | rounds _ least most body =>
    let x := body.width groups
    Width.capped
      ⟨x.least * least,
        -- an unlimited number of rounds of nothing is still nothing
        match most with
        | some n => x.most * n
        | none => if x.most = 0 then 0 else Width.unbounded⟩
  | backref n => groups n
  | conditional _ yes no =>
    let x := yes.width groups
    let y := no.width groups
    ⟨min x.least y.least, max x.most y.most⟩

end DependencyQuery.Regex
