import DependencyQuery.Regex.Error
import DependencyQuery.Regex.Syntax

namespace DependencyQuery.Regex

/-!
# Progress through a regular expression

An expression is read from left to right, one token at a time: a token is a character, or a
backslash with the character after it.  A backslash with nothing after it is refused as soon as the
token before it has been read.

* `Progress` — what is left to read, and what has been met so far;
* `Reading` — a step of the reader; `fail`, `failAt`, `failBack` — how it stops;
* `peek`, `take`, `accept`, `takeAll`, `takeName` — looking at tokens and taking them;
* `openGroup`, `closeGroup` — the numbers, names and widths of groups.
-/

/-- A character, or a backslash and the character after it. -/
inductive Token where
  | plain (c : Char)
  | escaped (c : Char)
deriving DecidableEq

namespace Token

/-- The characters of the token. -/
def chars : Token → List Char
  | plain c => [c]
  | escaped c => ['\\', c]

/-- The token as text. -/
def text (t : Token) : String := String.ofList t.chars

/-- The number of characters of the token. -/
def length (t : Token) : Nat := t.chars.length

end Token

/-- What the reader has left to read, and what it has met so far. -/
structure Progress where
  /-- The length of the whole expression. -/
  size : Nat
  /-- The characters still to be read. -/
  rest : List Char
  /-- The switches turned on for the whole expression. -/
  modes : Modes
  /-- The named groups and their numbers. -/
  names : List (String × Nat)
  /-- The widths of the groups from number one on; a group that is still open has none yet. -/
  widths : List (Option Width)
  /-- Inside a lookbehind, the number of the first group opened in it. -/
  lookbehind : Option Nat
  /-- The group numbers that conditions ask for, each with the place where it first does. -/
  conditions : List (Nat × Nat)

/-- A step of the reader. -/
abbrev Reading := StateT Progress (Except Refusal)

/-- The number of characters read so far. -/
def position : Reading Nat := do
  let p ← get
  return p.size - p.rest.length

/-- Stops with a fault at a given place. -/
def failAt {α : Type} (fault : Fault) (place : Nat) : Reading α :=
  throw (.malformed ⟨fault, some place⟩)

/-- Stops with a fault `back` characters before the place that has been reached. -/
def failBack {α : Type} (fault : Fault) (back : Nat) : Reading α := do
  failAt fault ((← position) - back)

/-- Stops with a fault at the place that has been reached. -/
def fail {α : Type} (fault : Fault) : Reading α := failBack fault 0

/-! ### Tokens -/

/-- The next token, which stays unread. -/
def peek : Reading (Option Token) := do
  match (← get).rest with
  | [] => return none
  | '\\' :: c :: _ => return some (.escaped c)
  | c :: _ => return some (.plain c)

/-- Refuses a backslash with nothing after it. -/
def checkEnd : Reading Unit := do
  let p ← get
  if p.rest = ['\\'] then failAt .escapeAtEnd (p.size - 1)

/-- Reads one token. -/
def take : Reading (Option Token) := do
  let t ← peek
  match t with
  | none => return none
  | some t =>
    modify fun p => { p with rest := p.rest.drop t.length }
    checkEnd
    return some t

/-- Reads the character `c` if it comes next. -/
def accept (c : Char) : Reading Bool := do
  if (← peek) = some (.plain c) then
    let _ ← take
    return true
  else
    return false

/-- Reads at most `limit` characters of a kind. -/
def takeKind (kind : Char → Bool) : (limit : Nat) → Reading (List Char)
  | 0 => return []
  | limit + 1 => do
    match ← peek with
    | some (.plain c) =>
      if kind c then
        let _ ← take
        return c :: (← takeKind kind limit)
      else
        return []
    | _ => return []

/-- Reads all characters of a kind that come next. -/
def takeAll (kind : Char → Bool) : Reading (List Char) := do
  takeKind kind (← get).rest.length

/-- Reads on to a terminator; `fuel` bounds the number of tokens. -/
def takeUntil (terminator : Char) (what : String) : (fuel : Nat) → (read : List Char) →
    Reading (List Char)
  | 0, read => return read
  | fuel + 1, read => do
    match ← take with
    | none =>
      -- nothing before the end: the name is missing, and else what terminates it
      if read.isEmpty then fail (.missing what)
      else failBack (.unterminatedName terminator) read.length
    | some t =>
      if t = .plain terminator then
        if read.isEmpty then failBack (.missing what) 1 else return read
      else
        takeUntil terminator what fuel (read ++ t.chars)

/-- Reads a name and the terminator after it. -/
def takeName (terminator : Char) (what : String) : Reading (List Char) := do
  takeUntil terminator what ((← get).rest.length + 1) []

/-! ### Groups -/

/-- The number that the next group gets. -/
def Progress.groups (p : Progress) : Nat := p.widths.length + 1

/-- Whether the group of that number has been closed. -/
def Progress.isClosed (p : Progress) : (number : Nat) → Bool
  | 0 => false
  | number + 1 =>
    match p.widths[number]? with
    | some (some _) => true
    | _ => false

/-- Inside a lookbehind, refuses a reference to a group that is open or was opened there. -/
def checkLookbehind (number : Nat) : Reading Unit := do
  let p ← get
  match p.lookbehind with
  | none => return
  | some first =>
    if !p.isClosed number then fail .openGroup
    if first ≤ number then fail .groupOfSameLookbehind

/-- Opens the next group. -/
def openGroup (name : Option (List Char)) : Reading Nat := do
  let p ← get
  let number := p.groups
  match name with
  | none => modify fun p => { p with widths := p.widths ++ [none] }
  | some name =>
    -- the name of a group is its only one
    let text := String.ofList name
    match p.names.lookup text with
    | some earlier => failBack (.groupNameTwice text number earlier) (name.length + 1)
    | none =>
      modify fun p => { p with widths := p.widths ++ [none], names := (text, number) :: p.names }
  return number

/-- The width of a closed group. -/
def widthOf (widths : List (Option Width)) : (number : Nat) → Width
  | 0 => ⟨0, 0⟩
  | number + 1 => ((widths[number]?).join).getD ⟨0, 0⟩

/-- Closes a group, whose width is known from now on. -/
def closeGroup (number : Nat) (body : Term) : Reading Unit :=
  modify fun p =>
    { p with widths := p.widths.set (number - 1) (some (body.width (widthOf p.widths))) }
end DependencyQuery.Regex
