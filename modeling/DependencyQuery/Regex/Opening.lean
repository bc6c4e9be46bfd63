import DependencyQuery.Regex.Escape
import DependencyQuery.Text.Digits
import DependencyQuery.Text.Identifier

namespace DependencyQuery.Regex

open Text (isIdentifier integer? isLetter)

/-!
# Openings of parentheses

* `inlineFlags` — flags for what follows, or for the whole expression;
* `namedReference`, `conditionGroup` — references to groups by name or number;
* `Opening`, `opening` — what a parenthesis begins with: a group, a look around, a condition, or
  something that is complete already.
-/

/-! ### Inline flags -/

/-- The switch that a flag letter names; the letter for the locale is refused apart. -/
def flag? : Token → Option Modes
  | .plain 'i' => some { ignoreCase := true }
  | .plain 'm' => some { multiline := true }
  | .plain 's' => some { dotAll := true }
  | .plain 'x' => some { verbose := true }
  | .plain 'a' => some { ascii := true }
  | .plain 'u' => some { unicode := true }
  | .plain 't' => some { template := true }
  | .plain 'L' => some {}
  | _ => none

/-- Stops at a token that is no flag. -/
def notAFlag {α : Type} (t : Token) (expected : String) : Reading α :=
  match t with
  | .plain c => failBack (if isLetter c then .unknownFlag else .missing expected) t.length
  | .escaped _ => failBack (.missing expected) t.length

/-- Flags that are turned on, beginning with `t`, and the token after them. -/
def flagsOn : (fuel : Nat) → (t : Token) → (on : Modes) → Reading (Modes × Token)
  | 0, t, on => return (on, t)
  | fuel + 1, t, on => do
    -- the fault of a flag is met in the order in which the flags are read
    if t = .plain 'L' then fail .localeFlag
    let on := on.union ((flag? t).getD {})
    if on.ascii && on.unicode && (t = .plain 'a' || t = .plain 'u') then fail .incompatibleFlags
    match ← take with
    | none => fail (.missing "-, : or )")
    | some next =>
      -- a closing parenthesis, a minus or a colon ends the flags to be turned on
      if next = .plain ')' ∨ next = .plain '-' ∨ next = .plain ':' then return (on, next)
      if (flag? next).isNone then notAFlag next "-, : or )"
      flagsOn fuel next on

/-- Flags that are turned off, beginning with `t`, up to the colon. -/
def flagsOff : (fuel : Nat) → (t : Token) → (off : Modes) → Reading Modes
  | 0, _, off => return off
  | fuel + 1, t, off => do
    let flag := (flag? t).getD {}
    if t = .plain 'L' || flag.choosesCharacters then fail .characterFlagOff
    let off := off.union flag
    match ← take with
    | none => fail (.missing ":")
    | some next =>
      if next = .plain ':' then return off
      if (flag? next).isNone then notAFlag next ":"
      flagsOff fuel next off

/-- Inline flags, beginning with `t`: the switches turned on and off for a group, or `none` after
flags for the whole expression. -/
def inlineFlags (t : Token) : Reading (Option (Modes × Modes)) := do
  let fuel := (← get).rest.length + 1
  let (on, next) ← if t = .plain '-' then pure ({}, t) else flagsOn fuel t {}
  -- without a colon the flags are those of the whole expression
  if next = .plain ')' then
    modify fun p => { p with modes := p.modes.union on }
    return none
  -- a flag of the whole expression may not be turned on or off for a part of it
  if on.template then failBack .globalFlagOn 1
  let off ← if next = .plain '-' then
      match ← take with
      | none => fail (.missing "flag")
      | some first =>
        if (flag? first).isNone then notAFlag first "flag"
        flagsOff fuel first {}
    else pure {}
  if off.template then failBack .globalFlagOff 1
  if on.inter off ≠ {} then failBack .flagOnAndOff 1
  return some (on, off)

/-! ### Names of groups -/

/-- The number of the group with the name that has just been read. -/
def namedGroup (name : List Char) : Reading Nat := do
  let text := String.ofList name
  match (← get).names.lookup text with
  | some number => return number
  | none => failBack (.unknownGroupName text) (name.length + 1)

/-- Refuses a group name that is no identifier. -/
def checkGroupName (name : List Char) : Reading Unit := do
  if !isIdentifier name then
    failBack (.badGroupName (String.ofList name)) (name.length + 1)

/-- A reference by name, after its opening. -/
def namedReference : Reading Term := do
  let name ← takeName ')' "group name"
  checkGroupName name
  let number ← namedGroup name
  if !(← get).isClosed number then failBack .openGroup (name.length + 1)
  checkLookbehind number
  return .backref number

/-- The largest number that a condition may ask for, and one more. -/
def groupLimit : Nat := 1073741823

/-- The group that a condition asks for, by name or number. -/
def conditionGroup : Reading Nat := do
  let name ← takeName ')' "group name"
  let back := name.length + 1
  let number ← if isIdentifier name then namedGroup name else
    match integer? name with
    -- zero is the whole match, and no group of its own
    | some (Int.ofNat 0) => failBack .badGroupNumber back
    | some (Int.ofNat number) =>
      if groupLimit ≤ number then failBack (.noSuchGroup number) back
      let place := (← position) - back
      -- the group may still come, so that its number is checked at the end
      modify fun p =>
        if (p.conditions.lookup number).isSome then p
        else { p with conditions := p.conditions ++ [(number, place)] }
      pure number
    | _ => failBack (.badGroupName (String.ofList name)) back
  checkLookbehind number
  return number

/-! ### Forms of parentheses -/

/-- Skips a comment in parentheses; `start` is the place of the opening one. -/
def skipComment (start : Nat) : (fuel : Nat) → Reading Unit
  | 0 => return
  | fuel + 1 => do
    match ← take with
    | none => failAt .unterminatedComment start
    | some t => if t = .plain ')' then return else skipComment start fuel

/-- How a parenthesis goes on after its opening. -/
inductive Opening where
  /-- A group, with its name if it captures under one. -/
  | capture (name : Option (List Char))
  | plain (on off : Modes)
  | atomic
  | look (ahead negated : Bool)
  | condition (number : Nat)
  /-- Complete already: a reference to a group. -/
  | done (term : Term)
  | comment
  /-- Flags for the whole expression. -/
  | flags

/-- Reads what stands between an opening parenthesis, at `start`, and the group's contents. -/
def opening (start : Nat) : Reading Opening := do
  -- without a question mark it is a group that captures
  if !(← accept '?') then return .capture none
  match ← take with
  | none => fail .unexpectedEnd
  | some (.plain 'P') =>
    if ← accept '<' then
      let name ← takeName '>' "group name"
      checkGroupName name
      return .capture (some name)
    if ← accept '=' then return .done (← namedReference)
    -- the two forms above are the only ones that begin with this letter
    match ← take with
    | none => fail .unexpectedEnd
    | some t => failBack (.unknownExtension ("?P" ++ t.text)) (t.length + 2)
  | some (.plain ':') => return .plain {} {}
  | some (.plain '#') =>
    skipComment start ((← get).rest.length + 1)
    return .comment
  | some (.plain '=') => return .look true false
  | some (.plain '!') => return .look true true
  | some (.plain '<') =>
    match ← take with
    | none => fail .unexpectedEnd
    | some (.plain '=') => return .look false false
    | some (.plain '!') => return .look false true
    | some t => failBack (.unknownExtension ("?<" ++ t.text)) (t.length + 2)
  | some (.plain '(') => return .condition (← conditionGroup)
  | some (.plain '>') => return .atomic
  -- anything else is a flag or unknown
  | some t =>
    if (flag? t).isSome || t = .plain '-' then
      match ← inlineFlags t with
      | none => return .flags
      | some (on, off) => return .plain on off
    else
      failBack (.unknownExtension ("?" ++ t.text)) (t.length + 1)

/-- Reads the closing parenthesis of the group opened at `start`. -/
def close (start : Nat) : Reading Unit := do
  if !(← accept ')') then failAt .unterminatedGroup start

end DependencyQuery.Regex
