import DependencyQuery.Regex.Progress
import DependencyQuery.Text.Names

namespace DependencyQuery.Regex

open Text (CharacterNames)

/-!
# Escapes and sets

* `termEscape` — what a backslash and the character after it stand for: a character, a category, an
  anchor, or a reference to a group;
* `setEscape` — the same inside a set, `readSet` — a set in square brackets.
-/

/-! ### Digits of escapes -/

/-- The digits up to seven. -/
def isOctalDigit (c : Char) : Bool := '0' ≤ c && c ≤ '7'

/-- The digits up to nine, and no digits of other scripts. -/
def isAsciiDigit (c : Char) : Bool := '0' ≤ c && c ≤ '9'

/-- The digits up to fifteen, in either case. -/
def isHexDigit (c : Char) : Bool :=
  isAsciiDigit c || ('a' ≤ c && c ≤ 'f') || ('A' ≤ c && c ≤ 'F')

/-- The value of a hexadecimal digit. -/
def hexDigitValue (c : Char) : Nat :=
  if isAsciiDigit c then c.toNat - '0'.toNat
  else if 'a' ≤ c then c.toNat - 'a'.toNat + 10
  else c.toNat - 'A'.toNat + 10

/-- The value of a run of digits in a base up to sixteen. -/
def valueIn (base : Nat) (digits : List Char) : Nat :=
  digits.foldl (fun total c => base * total + hexDigitValue c) 0

/-! ### Escapes -/

/-- A character written by a fixed number of hexadecimal digits. -/
def hexEscape (lead : Char) (count : Nat) : Reading Nat := do
  let digits ← takeKind isHexDigit count
  let escape := '\\' :: lead :: digits
  if digits.length ≠ count then
    failBack (.incompleteEscape (String.ofList escape)) escape.length
  let value := valueIn 16 digits
  if 0x10FFFF < value then failBack (.badEscape (String.ofList escape)) escape.length
  return value

variable [CharacterNames]

/-- A character written by its name. -/
def namedEscape : Reading Nat := do
  if !(← accept '\x7b') then fail (.missing "\x7b")
  let name ← takeName '\x7d' "character name"
  match CharacterNames.named? (String.ofList name) with
  | some c => return c.toNat
  | none => failBack (.undefinedCharacter (String.ofList name)) (name.length + 4)

/-- A control character written by a letter. -/
def letterEscape? : Char → Option Nat
  | 'a' => some 7
  | 'b' => some 8
  | 't' => some 9
  | 'n' => some 10
  | 'v' => some 11
  | 'f' => some 12
  | 'r' => some 13
  | '\\' => some 92
  | _ => none

/-- A character class written by a letter. -/
def categoryEscape? : Char → Option (Category × Bool)
  | 'd' => some (.digit, false)
  | 'D' => some (.digit, true)
  | 's' => some (.space, false)
  | 'S' => some (.space, true)
  | 'w' => some (.word, false)
  | 'W' => some (.word, true)
  | _ => none

/-- A condition on a place written by a letter. -/
def anchorEscape? : Char → Option Anchor
  | 'A' => some .textStart
  | 'b' => some .wordEdge
  | 'B' => some .noWordEdge
  | 'Z' => some .textEnd
  | _ => none

/-- The letters from `a` to `z`, in either case. -/
def isAsciiLetter (c : Char) : Bool := ('a' ≤ c && c ≤ 'z') || ('A' ≤ c && c ≤ 'Z')

/-- Refuses an octal escape above the largest byte. -/
def octalValue (escape digits : List Char) : Reading Nat := do
  let value := valueIn 8 digits
  if 0o377 < value then failBack (.octalTooLarge (String.ofList escape)) escape.length
  return value

/-- The escapes that mean one character both inside and outside of sets; `none` for a digit. -/
def pointEscape (c : Char) : Reading (Option Nat) := do
  match letterEscape? c with
  | some point => return some point
  | none =>
    -- the number of digits is fixed by the letter
    if c = 'x' then return some (← hexEscape c 2)
    if c = 'u' then return some (← hexEscape c 4)
    if c = 'U' then return some (← hexEscape c 8)
    if c = 'N' then return some (← namedEscape)
    -- a digit is left to the caller, which knows what it may refer to
    if isAsciiDigit c then return none
    -- a letter without a meaning is refused, any other character stands for itself
    if isAsciiLetter c then failBack (.badEscape (String.ofList ['\\', c])) 2
    return some c.toNat

/-- An escape inside a set, after its backslash and first character. -/
def setEscape (c : Char) : Reading SetItem := do
  match categoryEscape? c with
  | some (kind, negated) => return .category kind negated
  | none =>
    match ← pointEscape c with
    | some point => return .one point
    | none =>
      -- in a set three octal digits are a code point, and no digit refers to a group
      if isOctalDigit c then
        let digits := c :: (← takeKind isOctalDigit 2)
        return .one (← octalValue ('\\' :: digits) digits)
      else
        failBack (.badEscape (String.ofList ['\\', c])) 2

/-- A reference to a group, after its digits. -/
def groupReference (digits : List Char) : Reading Term := do
  let number := valueIn 10 digits
  let p ← get
  if number < p.groups then
    if !p.isClosed number then failBack .openGroup (digits.length + 1)
    checkLookbehind number
    return .backref number
  else
    failBack (.noSuchGroup number) digits.length

/-- An escape outside of sets whose first character is a digit. -/
def digitEscape (c : Char) : Reading Term := do
  -- a zero always begins an octal code
  if c = '0' then
    return .char (valueIn 8 (← takeKind isOctalDigit 2))
  match ← takeKind isAsciiDigit 1 with
  | [] => groupReference [c]
  | second =>
    let digits := c :: second
    -- three octal digits are a code point, anything less refers to a group
    if digits.all isOctalDigit then
      match ← takeKind isOctalDigit 1 with
      | [] => groupReference digits
      | third =>
        let digits := digits ++ third
        return .char (← octalValue ('\\' :: digits) digits)
    else
      groupReference digits

/-- An escape outside of sets, after its backslash and first character. -/
def termEscape (c : Char) : Reading Term := do
  match anchorEscape? c, categoryEscape? c with
  | some place, _ => return .anchor place
  | none, some (kind, negated) => return .set false [.category kind negated]
  | none, none =>
    match ← pointEscape c with
    | some point => return .char point
    | none => digitEscape c

/-! ### Sets -/

/-- One end of a range in a set. -/
def setMember : Token → Reading SetItem
  | .plain c => return .one c.toNat
  | .escaped c => setEscape c

/-- The items of a set up to its closing bracket; `start` is the place of the opening one. -/
def setItems (start : Nat) : (fuel : Nat) → (items : List SetItem) → Reading (List SetItem)
  | 0, items => return items
  | fuel + 1, items => do
    match ← take with
    | none => failAt .unterminatedSet start
    | some first =>
      -- a bracket right after the opening one is a member
      if first = .plain ']' ∧ items ≠ [] then return items
      let low ← setMember first
      if ← accept '-' then
        match ← take with
        | none => failAt .unterminatedSet start
        | some second =>
          -- a minus before the closing bracket is a member
          if second = .plain ']' then return items ++ [low, .one '-'.toNat]
          let high ← setMember second
          let fault := Fault.badRange first.text second.text
          let back := first.length + 1 + second.length
          -- only single characters bound a range
          match low, high with
          | .one a, .one b =>
            if b < a then failBack fault back
            setItems start fuel (items ++ [.range a b])
          | _, _ => failBack fault back
      else
        setItems start fuel (items ++ [low])

/-- A set, after its opening bracket. -/
def readSet : Reading Term := do
  let start := (← position) - 1
  let negated ← accept '^'
  let items ← setItems start ((← get).rest.length + 1) []
  match items.eraseDups with
  | [.one point] => return if negated then .notChar point else .char point
  | items => return .set negated items
end DependencyQuery.Regex
