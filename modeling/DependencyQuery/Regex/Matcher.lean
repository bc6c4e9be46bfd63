import DependencyQuery.Regex.CharClass
import DependencyQuery.Regex.Program

namespace DependencyQuery.Regex

/-!
# Matching

A term is matched at a place of the text by trying its ways of matching in order of preference.  What
comes after the term is passed along as a continuation, so a later failure makes an earlier choice go
on to its next way; the answer is the first way in which everything succeeds.

* `Marks` — where the captured groups begin and end;
* `greedy`, `lazy`, `possessive` — repetition, with a bound on the number of rounds: a round that may
  be left out is entered only if the one before it has moved on, so there are at most as many of them
  as characters are left, and one more;
* `Term.run` — a term;
* `Program.fullMatches` — whether a whole text matches.
-/

/-- Where the groups begin and end; the marks of group `n` are at `2 * n` and `2 * n + 1`. -/
abbrev Marks := Array (Option Nat)

/-- The text of a group that has been captured, as its two ends. -/
def Marks.group? (marks : Marks) (number : Nat) : Option (Nat × Nat) :=
  match (marks[2 * number]?).join, (marks[2 * number + 1]?).join with
  | some first, some last => if first ≤ last then some (first, last) else none
  | _, _ => none

/-- A place in the text and the marks at it. -/
structure Place where
  pos : Nat
  marks : Marks

/-- What remains to be matched after a term. -/
abbrev Continuation := Place → Option Place

/-- A way of matching a term. -/
abbrev Step := Place → Continuation → Option Place

/-- The first success of a step on its own. -/
def Step.once (step : Step) (p : Place) : Option Place := step p some

/-- Whether another round is allowed by an upper limit. -/
def belowLimit (count : Nat) : Option Nat → Bool
  | none => true
  | some most => count < most

section Repetition

variable (body : Step) (least : Nat) (most : Option Nat)

/-- As many rounds as can be; `last` is where the round before began. -/
def greedy : (fuel count : Nat) → (last : Option Nat) → Step
  | 0, _, _, _, _ => none
  | fuel + 1, count, last, p, next =>
    if count < least then
      body p fun q => greedy fuel (count + 1) last q next
    else
      -- a round that begins where the last one began would change nothing
      match
        if belowLimit count most && last ≠ some p.pos then
          body p fun q => greedy fuel (count + 1) (some p.pos) q next
        else none
      with
      | some done => some done
      | none => next p

/-- As few rounds as can be; `last` is where the round before began. -/
def lazy : (fuel count : Nat) → (last : Option Nat) → Step
  | 0, _, _, _, _ => none
  | fuel + 1, count, last, p, next =>
    if count < least then
      body p fun q => lazy fuel (count + 1) last q next
    else
      -- going on comes first, another round only after that
      match next p with
      | some done => some done
      | none =>
        if belowLimit count most && last ≠ some p.pos then
          body p fun q => lazy fuel (count + 1) (some p.pos) q next
        else none

/-- As many rounds as can be, each at its first success; the place after them. -/
def possessive : (fuel count : Nat) → (last : Option Nat) → Place → Option Place
  | 0, _, _, _ => none
  | fuel + 1, count, last, p =>
    -- the rounds that are demanded must all be possible
    if count < least then
      match Step.once body p with
      | none => none
      | some q => possessive fuel (count + 1) last q
    -- each further round is taken as it matches first, and none is taken back
    else if belowLimit count most && last ≠ some p.pos then
      match Step.once body p with
      | none => some p
      | some q => possessive fuel (count + 1) (some p.pos) q
    else some p

end Repetition

/-- One character that a test accepts. -/
def oneChar (text : Array Char) (test : Char → Bool) : Step := fun p next =>
  match text[p.pos]? with
  | some c => if test c then next { p with pos := p.pos + 1 } else none
  | none => none

/-- Whether a condition on a place holds. -/
def Anchor.holds (text : Array Char) (modes : Modes) (place : Nat) : Anchor → Bool
  | lineStart => place = 0 || (modes.multiline && text[place - 1]? = some '\n')
  | lineEnd =>
    place = text.size ||
      (text[place]? = some '\n' && (modes.multiline || place + 1 = text.size))
  | textStart => place = 0
  | textEnd => place = text.size
  | wordEdge => text.size ≠ 0 && isWordBefore != isWordAfter
  | noWordEdge => text.size ≠ 0 && isWordBefore == isWordAfter
where
  /-- Whether the character before the place belongs to a word. -/
  isWordBefore : Bool := place ≠ 0 && (text[place - 1]?).any (isWordChar modes)
  /-- Whether the character after the place belongs to a word. -/
  isWordAfter : Bool := (text[place]?).any (isWordChar modes)

/-- The text between two places once more, up to case if that is ignored. -/
def sameAgain (text : Array Char) (modes : Modes) : (count source place : Nat) → Bool
  | 0, _, _ => true
  | count + 1, source, place =>
    match text[source]?, text[place]? with
    | some a, some b =>
      (if modes.ignoreCase then modes.small a = modes.small b else a = b) &&
        sameAgain text modes count (source + 1) (place + 1)
    | _, _ => false

/-- Matches a term; `groups` are the widths of the captured groups. -/
def Term.run (text : Array Char) (groups : Nat → Width) : Term → Modes → Step
  | empty, _ => fun p next => next p
  | char point, modes => oneChar text (acceptsPoint modes point)
  | notChar point, modes => oneChar text fun c => !acceptsPoint modes point c
  | any, modes => oneChar text (acceptsAny modes)
  | set negated items, modes => oneChar text (acceptsSet modes negated items)
  | anchor place, modes => fun p next => if place.holds text modes p.pos then next p else none
  | cat a b, modes => fun p next => a.run text groups modes p fun q => b.run text groups modes q next
  | alt a b, modes => fun p next =>
    match a.run text groups modes p next with
    | some done => some done
    | none => b.run text groups modes p next
  | group none on off body, modes => body.run text groups (modes.within on off)
  | group (some number) _ _ body, modes => fun p next =>
    -- the opening mark is set before the body, the closing one after it
    let opened := { p with marks := p.marks.setIfInBounds (2 * number) (some p.pos) }
    body.run text groups modes opened fun q =>
      next { q with marks := q.marks.setIfInBounds (2 * number + 1) (some q.pos) }
  | atomic body, modes => fun p next =>
    match Step.once (body.run text groups modes) p with
    | some q => next q
    | none => none
  | look ahead negated body, modes => fun p next =>
    -- looking back starts as far before the place as the body is wide
    let back := if ahead then 0 else (body.width groups).least
    let found :=
      if p.pos < back then none
      else Step.once (body.run text groups modes) { p with pos := p.pos - back }
    match found, negated with
    -- the place stays, and the groups inside are kept
    | some q, false => next { p with marks := q.marks }
    | none, true => next p
    | _, _ => none
  | rounds greed least most body, modes => fun p next =>
    -- a round without progress is the last, so that this many are enough
    let fuel := least + (text.size - p.pos) + 3
    match greed with
    | .greedy => greedy (body.run text groups modes) least most fuel 0 none p next
    | .lazy => lazy (body.run text groups modes) least most fuel 0 none p next
    | .possessive =>
      match possessive (body.run text groups modes) least most fuel 0 none p with
      | some q => next q
      | none => none
  | backref number, modes => fun p next =>
    match p.marks.group? number with
    | some (first, last) =>
      if sameAgain text modes (last - first) first p.pos then
        next { p with pos := p.pos + (last - first) }
      else none
    | none => none
  | conditional number yes no, modes => fun p next =>
    if (p.marks.group? number).isSome then yes.run text groups modes p next
    else no.run text groups modes p next

/-- Whether the whole text matches. -/
def Program.fullMatches (program : Program) (text : String) : Bool :=
  let chars := text.toList.toArray
  let start : Place := ⟨0, (List.replicate (2 * program.groups) none).toArray⟩
  (program.term.run chars program.width program.modes start fun p =>
    if p.pos = chars.size then some p else none).isSome

end DependencyQuery.Regex
