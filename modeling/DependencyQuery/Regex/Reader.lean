import DependencyQuery.Regex.Opening

namespace DependencyQuery.Regex

/-!
# The grammar of regular expressions

* `repeated` — repetition of an item;
* `alternatives`, `sequence`, `parenthesized` — the grammar, which descends into parentheses;
* `readTerm` — a whole expression as a term, together with what has been met on the way.
-/

/-! ### Repetition -/

/-- The number of rounds that stands for "without limit", and may not be written. -/
def tooMany : Nat := 4294967295

/-- The bounds of a repetition in braces, after the opening brace; `none` where the brace stands for
itself. -/
def bounds? : Reading (Option (Nat × Option Nat)) := do
  let saved ← get
  let start ← position
  -- empty braces are plain characters
  if (← peek) = some (.plain '}') then return none
  let low ← takeAll isAsciiDigit
  let high ← if ← accept ',' then takeAll isAsciiDigit else pure low
  -- braces around anything else are plain characters, and are read as such
  if !(← accept '}') then
    set saved
    return none
  let least := valueIn 10 low
  -- each bound is checked as it is read, their order last
  if tooMany ≤ least then throw (.beyond .tooManyRounds)
  if high.isEmpty then return some (least, none)
  let most := valueIn 10 high
  if tooMany ≤ most then throw (.beyond .tooManyRounds)
  if most < least then failAt .repeatBounds start
  return some (least, some most)

/-- How often the item before is repeated, if the token asks for it. -/
def quantifier? (t : Token) : Reading (Option (Nat × Option Nat)) := do
  match t with
  | .plain '?' => return some (0, some 1)
  | .plain '*' => return some (0, none)
  | .plain '+' => return some (1, none)
  | .plain '{' => bounds?
  | _ => return none

/-- Which number of rounds a repetition tries first, as a character after its quantifier tells. -/
def greed : Reading Greed := do
  if ← accept '?' then return .lazy
  if ← accept '+' then return .possessive
  return .greedy

/-- Repeats the last item; `start` is the place of the quantifier. -/
def repeated (start least : Nat) (most : Option Nat) (items : List Term) : Reading (List Term) := do
  match items with
  | [] => failAt .nothingToRepeat start
  | .anchor _ :: _ => failAt .nothingToRepeat start
  | .rounds .. :: _ => failAt .multipleRepeat start
  | last :: before =>
    return .rounds (← greed) least most last :: before

/-! ### The grammar -/

/-- Skips a comment up to the end of its line. -/
def skipLine : (fuel : Nat) → Reading Unit
  | 0 => return
  | fuel + 1 => do
    match ← take with
    | none => return
    | some t => if t = .plain '\n' then return else skipLine fuel

/-- Skipped between tokens when blanks do not count. -/
def isSkipped (c : Char) : Bool :=
  c = ' ' || c = '\t' || c = '\n' || c = '\r' || c = '\x0b' || c = '\x0c'

/-- The items, the last of them first, as one term. -/
def sequenceOf (items : List Term) : Term :=
  items.foldl (fun after item => .cat item after) .empty

variable [Text.CharacterNames]

mutual

/-- Alternatives separated by bars.  Each may turn flags on for the whole expression only at the
very start of it, and where the alternatives are not inside a group such flags take effect on the
next one. -/
def alternatives : (fuel : Nat) → (verbose nested isFirst : Bool) → Reading Term
  | 0, _, _, _ => return .empty
  | fuel + 1, verbose, nested, isFirst => do
    let first ← sequence fuel verbose (!nested && isFirst) []
    if ← accept '|' then
      let turnedOn := (← get).modes.verbose
      return .alt first (← alternatives fuel (if nested then verbose else turnedOn) nested false)
    else
      return first

/-- The items up to a bar, a closing parenthesis or the end, after those already read, the last of
them first. -/
def sequence : (fuel : Nat) → (verbose isFirst : Bool) → (items : List Term) → Reading Term
  | 0, _, _, items => return sequenceOf items
  | fuel + 1, verbose, isFirst, items => do
    match ← peek with
    | none => return sequenceOf items
    | some t =>
      if t = .plain '|' ∨ t = .plain ')' then return sequenceOf items
      let start ← position
      let _ ← take
      match t with
      | .escaped c => sequence fuel verbose isFirst ((← termEscape c) :: items)
      | .plain c =>
        -- in verbose mode blanks and comments are passed over
        if verbose && isSkipped c then
          sequence fuel verbose isFirst items
        else if verbose && c = '#' then
          skipLine ((← get).rest.length + 1)
          sequence fuel verbose isFirst items
        else if c = '[' then
          sequence fuel verbose isFirst ((← readSet) :: items)
        else if c = '.' then
          sequence fuel verbose isFirst (.any :: items)
        else if c = '^' then
          sequence fuel verbose isFirst (.anchor .lineStart :: items)
        else if c = '$' then
          sequence fuel verbose isFirst (.anchor .lineEnd :: items)
        else if c = '(' then
          match ← opening start with
          | .comment => sequence fuel verbose isFirst items
          | .done term => sequence fuel verbose isFirst (term :: items)
          | .flags =>
            -- flags of the whole expression stand before everything else in it
            if !isFirst || !items.isEmpty then failAt .globalFlagsInside start
            let verbose := (← get).modes.verbose
            sequence fuel verbose isFirst items
          -- the other forms have a body, which ends at their closing parenthesis
          | form => sequence fuel verbose isFirst ((← parenthesized fuel verbose start form) :: items)
        else
          match ← quantifier? t with
          | some (least, most) =>
            sequence fuel verbose isFirst (← repeated start least most items)
          | none => sequence fuel verbose isFirst (.char c.toNat :: items)

/-- The contents of a parenthesis opened at `start`, and its closing. -/
def parenthesized : (fuel : Nat) → (verbose : Bool) → (start : Nat) → Opening → Reading Term
  | 0, _, _, _ => return .empty
  | fuel + 1, verbose, start, form => do
    match form with
    | .capture name =>
      let number ← openGroup name
      let body ← alternatives fuel verbose true false
      close start
      closeGroup number body
      return .group (some number) {} {} body
    -- verbose mode is turned on or off for the body only
    | .plain on off =>
      let body ← alternatives fuel ((verbose || on.verbose) && !off.verbose) true false
      close start
      return .group none on off body
    | .atomic =>
      let body ← alternatives fuel verbose true false
      close start
      return .atomic body
    | .look ahead negated =>
      -- the outermost lookbehind is the one that groups are compared with
      let outer := (← get).lookbehind
      if !ahead && outer.isNone then
        modify fun p => { p with lookbehind := some p.groups }
      let body ← alternatives fuel verbose true false
      if !ahead && outer.isNone then
        modify fun p => { p with lookbehind := none }
      close start
      return .look ahead negated body
    | .condition number =>
      -- a conditional group has at most two branches
      let yes ← sequence fuel verbose false []
      let branches ← accept '|'
      let no ← if branches then sequence fuel verbose false [] else pure .empty
      if branches && (← peek) = some (.plain '|') then fail .conditionalBranches
      close start
      return .conditional number yes no
    | _ => return .empty

end

/-- A whole expression before its switches are settled: its term, and what has been met on the way. -/
def readTerm (source : List Char) : Except Refusal (Term × Progress) :=
  StateT.run
    (do
      checkEnd
      -- each character takes at most three steps: the alternatives, a sequence, a group
      let term ← alternatives (3 * source.length + 3) false false true
      let p ← get
      if p.modes.ascii && p.modes.unicode then throw (.beyond .twoCharacterSets)
      if !p.rest.isEmpty then fail .unbalancedParenthesis
      -- the groups that were asked for must be there at the end
      match p.conditions.find? fun condition => p.groups ≤ condition.1 with
      | some (number, place) => failAt (.noSuchGroup number) place
      | none => return term)
    ⟨source.length, source, {}, [], [], none, []⟩

end DependencyQuery.Regex
