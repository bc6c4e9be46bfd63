import DependencyQuery.Regex.Syntax
import DependencyQuery.Text.Blank
import DependencyQuery.Text.Casing
import DependencyQuery.Text.Digits
import DependencyQuery.Text.Letters

namespace DependencyQuery.Regex

open Text (isAlphanumeric isBlank isDecimalDigit sameCapital)

/-!
# Which characters a term accepts

* `Category.contains` — the character classes, over Unicode or over ASCII alone;
* `Modes.small`, `Modes.cased`, `Modes.partners` — how letters are compared when case is ignored;
* `acceptsPoint`, `acceptsOther`, `acceptsSet` — a single character, any other, a set.
-/

/-- Whether a character is in a class.  Without Unicode the classes hold ASCII characters only. -/
def Category.contains (kind : Category) (modes : Modes) (c : Char) : Bool :=
  (modes.unicode || c.toNat < 128) &&
    match kind with
    | .digit => isDecimalDigit c
    | .space =>
      if modes.unicode then isBlank c else c = ' ' || (9 ≤ c.toNat && c.toNat ≤ 13)
    | .word => isAlphanumeric c || c = '_'

namespace Modes

/-- The small form of a letter. -/
def small (m : Modes) (c : Char) : Char :=
  if m.unicode then Text.lower c
  else if 'A' ≤ c && c ≤ 'Z' then Char.ofNat (c.toNat + 32) else c

/-- Whether a letter has a form in the other case. -/
def cased (m : Modes) (c : Char) : Bool :=
  if m.unicode then Text.isCased c
  else ('A' ≤ c && c ≤ 'Z') || ('a' ≤ c && c ≤ 'z')

/-- The other small letters with the same capital. -/
def partners (m : Modes) (c : Char) : List Char :=
  if m.unicode then sameCapital c else []

end Modes

/-- The first code point beyond those of the basic plane. -/
def basicPlaneEnd : Nat := 0x10000

/-- Whether `c` is the character of the code point, up to case if that is ignored. -/
def acceptsPoint (modes : Modes) (point : Nat) (c : Char) : Bool :=
  let wanted := Char.ofNat point
  if wanted.toNat ≠ point then false
  else if modes.ignoreCase && modes.cased wanted then
    let small := modes.small wanted
    modes.small c = small || (modes.partners small).contains (modes.small c)
  else c = wanted

/-- The characters of a closed range of code points. -/
def charsBetween (first last : Nat) : List Char :=
  ((List.range (last + 1 - first)).map fun i => first + i).filterMap fun point =>
    let c := Char.ofNat point
    if c.toNat = point then some c else none

/-- Whether ignoring case makes a difference to a set's item. -/
def SetItem.isCased (modes : Modes) : SetItem → Bool
  | one point =>
    basicPlaneEnd ≤ point || ((charsBetween point point).any modes.cased)
  | range first last =>
    basicPlaneEnd ≤ last || ((charsBetween first last).any modes.cased)
  | category _ _ => false

/-- Whether a set's item holds the character as it stands. -/
def SetItem.contains (modes : Modes) (c : Char) : SetItem → Bool
  | one point => c.toNat = point
  | range first last => first ≤ c.toNat && c.toNat ≤ last
  | category kind negated => kind.contains modes c != negated

/-- Whether a set's item holds the small letter `c` when case is ignored.  In the basic plane that is
so if some character of the item has `c`, or another small letter with the same capital, as its small
form; beyond it, a range also holds the capitals of its letters. -/
def SetItem.containsSmall (modes : Modes) (c : Char) : SetItem → Bool
  | one point =>
    -- beyond the basic plane a single code point is compared as it is
    if basicPlaneEnd ≤ point then c.toNat = point else acceptsSmall point point
  | range first last =>
    acceptsSmall first (min last (basicPlaneEnd - 1)) ||
      (basicPlaneEnd ≤ last &&
        -- a range is looked up for the character and for its capital form
        (let capital := (Text.upper c).toNat
         (first ≤ c.toNat && c.toNat ≤ last) || (first ≤ capital && capital ≤ last)))
  | category kind negated => kind.contains modes c != negated
where
  /-- Whether `c` is a small form of a character between the two code points. -/
  acceptsSmall (first last : Nat) : Bool :=
    (charsBetween first last).any fun d =>
      let small := modes.small d
      small = c || (modes.partners small).contains c

/-- Whether a set holds the character. -/
def acceptsSet (modes : Modes) (negated : Bool) (items : List SetItem) (c : Char) : Bool :=
  let found :=
    if modes.ignoreCase && items.any (·.isCased modes) then
      items.any (·.containsSmall modes (modes.small c))
    else items.any (·.contains modes c)
  found != negated

/-- Whether `.` accepts the character. -/
def acceptsAny (modes : Modes) (c : Char) : Bool := modes.dotAll || c ≠ '\n'

/-- Whether the character is one that words are made of. -/
def isWordChar (modes : Modes) (c : Char) : Bool := Category.word.contains modes c

end DependencyQuery.Regex
