import DependencyQuery.Regex.Reader

namespace DependencyQuery.Regex

/-!
# Regular expressions made ready

* `Modes.settled` — the modes of a whole expression;
* `Term.check` — what the grammar allows and a matcher cannot do;
* `Program`, `read` — a whole expression with the switches turned on for all of it and the widths of
  its groups.
-/

/-- The modes of a whole expression: without a choice of the character set it is all of Unicode. -/
def Modes.settled (m : Modes) : Modes := if m.ascii then m else { m with unicode := true }

/-- The form of a repetition that its refusal names. -/
def Greed.operator : Greed → String
  | .greedy => "MAX_REPEAT"
  | .lazy => "MIN_REPEAT"
  | .possessive => "POSSESSIVE_REPEAT"

/-- The largest width of a lookbehind. -/
def lookbehindLimit : Nat := 4294967295

/-- Refuses a lookbehind whose width varies or is too large, and repetition in a template. -/
def Term.check (groups : Nat → Width) (modes : Modes) : Term → Except Refusal Unit
  | empty => .ok ()
  | char _ => .ok ()
  | notChar _ => .ok ()
  | any => .ok ()
  | set _ _ => .ok ()
  | anchor _ => .ok ()
  | cat a b => do
    a.check groups modes
    b.check groups modes
  | alt a b => do
    a.check groups modes
    b.check groups modes
  | group _ on off body => body.check groups (modes.within on off)
  | atomic body => body.check groups modes
  | look ahead _ body => do
    if !ahead then
      let width := body.width groups
      if lookbehindLimit < width.least then throw (.malformed ⟨.lookbehindTooWide, none⟩)
      if width.least ≠ width.most then throw (.malformed ⟨.lookbehindWidth, none⟩)
    body.check groups modes
  | rounds greed _ _ body => do
    if modes.template then throw (.malformed ⟨.repeatInTemplate greed.operator, none⟩)
    body.check groups modes
  | backref _ => .ok ()
  | conditional _ yes no => do
    yes.check groups modes
    no.check groups modes

/-- A regular expression made ready: its term, the modes of the whole, and its groups' widths. -/
structure Program where
  term : Term
  modes : Modes
  groups : Nat
  width : Nat → Width

/-- Reads a regular expression. -/
def read [Text.CharacterNames] (source : List Char) : Except Refusal Program := do
  let (term, p) ← readTerm source
  let modes := p.modes.settled
  term.check (widthOf p.widths) modes
  return ⟨term, modes, p.groups, widthOf p.widths⟩

end DependencyQuery.Regex
