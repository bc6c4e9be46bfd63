import DependencyQuery.Datum.Basic

namespace DependencyQuery.Yaml

/-!
# Scalars of a document

* `plain?` — the datum that an unquoted scalar stands for: nothing, a truth value, a number or a text;
* `singleQuoted?`, `doubleQuoted?` — the text between quotes, and what follows it.

Lines of a quoted text are folded: a line break stands for a blank, and each further one for itself;
blanks around line breaks do not count.
-/

/-! ### Unquoted scalars -/

/-- The digits of a number, between which underscores do not count. -/
def withoutUnderscores (s : List Char) : List Char := s.filter (· ≠ '_')

/-- The value of a digit in bases up to sixteen. -/
def digit? (base : Nat) (c : Char) : Option Nat :=
  let value :=
    if c.isDigit then c.toNat - '0'.toNat
    else if 'a' ≤ c && c ≤ 'f' then c.toNat - 'a'.toNat + 10
    else if 'A' ≤ c && c ≤ 'F' then c.toNat - 'A'.toNat + 10
    else base
  if value < base then some value else none

/-- Digits of a base, underscores among them; one digit at least. -/
def natural? (base : Nat) (s : List Char) : Option Nat :=
  match withoutUnderscores s with
  | [] => none
  | digits => digits.foldlM (fun total c => (digit? base c).map (base * total + ·)) 0

/-- Whether digits with underscores begin with a digit. -/
def beginsWithDigit (s : List Char) : Bool := s.head?.any Char.isDigit

/-- The parts of a text between colons. -/
def colonParts : List Char → List (List Char)
  | [] => [[]]
  | c :: rest =>
    if c = ':' then [] :: colonParts rest
    else
      match colonParts rest with
      | part :: parts => (c :: part) :: parts
      | [] => [[c]]

/-- A number of base sixty: after its first place, each is below sixty and has at most two digits. -/
def sexagesimal? (s : List Char) : Option Nat :=
  match colonParts s with
  | first :: rest@(_ :: _) => do
    -- a zero at the front makes it an octal number or a text
    if !beginsWithDigit first || first.head? = some '0' then none
    else
      let first ← natural? 10 first
      let places ← rest.mapM fun place =>
        -- each place has at most two digits and stays below sixty
        (if place.length ≤ 2 && !place.contains '_' then natural? 10 place else none).filter (· < 60)
      return places.foldl (60 * · + ·) first
  | _ => none

/-- A natural number, written in base two, eight, ten, sixteen or sixty. -/
def unsigned? : List Char → Option Nat
  | ['0'] => some 0
  | '0' :: 'b' :: rest => natural? 2 rest
  | '0' :: 'x' :: rest => natural? 16 rest
  | '0' :: rest => natural? 8 ('0' :: rest)
  | s => if beginsWithDigit s then (natural? 10 s).or (sexagesimal? s) else none

/-- The exponent of ten after a decimal fraction; it needs a sign. -/
def exponent? : List Char → Option Int
  | [] => some 0
  | e :: sign :: digits =>
    -- the sign is not optional
    if (e = 'e' || e = 'E') && !digits.contains '_' then
      match sign with
      | '+' => (natural? 10 digits).map fun n => (n : Int)
      | '-' => (natural? 10 digits).map fun n => -(n : Int)
      | _ => none
    else none
  | _ => none

/-- A decimal fraction without a sign. -/
def fraction? (s : List Char) : Option Decimal := do
  match s.span (· ≠ '.') with
  | (_, []) => none
  | (whole, _ :: rest) =>
    let (places, exponent) := rest.span fun c => c.isDigit || c = '_'
    if !beginsWithDigit (whole ++ places) then none
    else
      let exponent ← exponent? exponent
      let places := withoutUnderscores places
      let digits ← natural? 10 (whole ++ places)
      -- the exponent moves the point, to either side
      let scale := (places.length : Int) - exponent
      return ⟨(digits * Nat.pow 10 (-scale).toNat : Nat), scale.toNat⟩

/-- A number; after a sign it begins with a digit. -/
def number? (s : List Char) : Option Datum :=
  let times (factor : Int) (rest : List Char) : Option Datum :=
    ((unsigned? rest).map fun n => Datum.int (factor * n)).or
      ((fraction? rest).map fun d => Datum.decimal { d with mantissa := factor * d.mantissa })
  match s with
  | '-' :: rest => if beginsWithDigit rest then times (-1) rest else none
  | '+' :: rest => if beginsWithDigit rest then times 1 rest else none
  | rest => times 1 rest

/-- Whether a text is a word in lower case, with a capital, or in capitals. -/
def isWordOf (words : List String) (s : List Char) : Bool :=
  words.any fun word =>
    s = word.toList || s = word.toList.modifyHead Char.toUpper || s = word.toList.map Char.toUpper

/-- The datum that an unquoted scalar stands for; there are a few that stand for none. -/
def plain? (s : List Char) : Option Datum :=
  if s = [] || s = ['~'] || isWordOf ["null"] s then some .null
  else if isWordOf ["true", "yes", "on"] s then some (.bool true)
  else if isWordOf ["false", "no", "off"] s then some (.bool false)
  else if s = ['='] || s = ['<', '<'] then none
  else some ((number? s).getD (.text (String.ofList s)))

/-! ### Quoted scalars -/

/-- White space that has been read but is not yet known to count. -/
structure Pending where
  /-- Blanks since the last character or line break. -/
  blanks : List Char := []
  /-- The number of line breaks, not counting the first, if there is one. -/
  breaks : Option Nat := none
  /-- What the first line break stands for if it stays the only one. -/
  glue : List Char := [' ']

namespace Pending

/-- What the white space stands for. -/
def folded (p : Pending) : List Char :=
  match p.breaks with
  | none => p.blanks
  | some 0 => p.glue
  | some more => List.replicate more '\n'

/-- White space with a further blank. -/
def blank (p : Pending) (c : Char) : Pending :=
  match p.breaks with
  | none => { p with blanks := p.blanks ++ [c] }
  | some _ => p

/-- White space with a further line break. -/
def lineBreak (p : Pending) : Pending :=
  { p with breaks := some (p.breaks.elim 0 (· + 1)) }

end Pending

/-- Whether a character ends a word of an unquoted scalar. -/
def endsWord (c : Char) : Bool := c = ' ' || c = '\t' || c = '\n'

/-- Whether a line begins with a marker that ends the document. -/
def isMarker : List Char → Bool
  | '-' :: '-' :: '-' :: rest => rest.head?.all endsWord
  | '.' :: '.' :: '.' :: rest => rest.head?.all endsWord
  | _ => false

/-- The text up to a single quote, which is doubled within it, and what follows. -/
def singleQuoted? : (pending : Pending) → List Char → Option (List Char × List Char)
  | _, [] => none
  | p, '\'' :: '\'' :: rest =>
    (singleQuoted? {} rest).map fun (text, rest) => (p.folded ++ '\'' :: text, rest)
  | p, c :: rest =>
    if c = '\'' then some (p.folded, rest)
    else if c = '\n' then if isMarker rest then none else singleQuoted? p.lineBreak rest
    else if endsWord c then singleQuoted? (p.blank c) rest
    else (singleQuoted? {} rest).map fun (text, rest) => (p.folded ++ c :: text, rest)

/-- The character that a backslash and a letter stand for. -/
def escaped? : Char → Option Char
  | '0' => some '\x00'
  | 'a' => some '\x07'
  | 'b' => some '\x08'
  | 't' => some '\t'
  | '\t' => some '\t'
  | 'n' => some '\n'
  | 'v' => some '\x0b'
  | 'f' => some '\x0c'
  | 'r' => some '\r'
  | 'e' => some '\x1b'
  | ' ' => some ' '
  | '"' => some '"'
  | '/' => some '/'
  | '\\' => some '\\'
  | 'N' => some '\u0085'
  | '_' => some '\u00a0'
  | 'L' => some '\u2028'
  | 'P' => some '\u2029'
  | _ => none

/-- The number of hexadecimal digits that follow a backslash and a letter. -/
def hexLength? : Char → Option Nat
  | 'x' => some 2
  | 'u' => some 4
  | 'U' => some 8
  | _ => none

/-- The character with a code. -/
def charOf? (code : Nat) : Option Char :=
  if code.isValidChar then some (Char.ofNat code) else none

/-- The text up to a double quote, with backslashes before what cannot stand for itself, and what
follows.  The first argument bounds the number of steps. -/
def doubleQuoted? : (fuel : Nat) → (pending : Pending) → List Char → Option (List Char × List Char)
  | 0, _, _ => none
  | _ + 1, _, [] => none
  | fuel + 1, p, '\\' :: c :: rest =>
    let goOn (d : Char) (rest : List Char) :=
      (doubleQuoted? fuel {} rest).map fun (text, rest) => (p.folded ++ d :: text, rest)
    -- an escaped line break joins the lines, without the blanks that begin the next one
    if c = '\n' then
      if isMarker rest then none
      else (doubleQuoted? fuel { breaks := some 0, glue := [] } rest).map fun (text, rest) =>
        (p.folded ++ text, rest)
    else
      match escaped? c, hexLength? c with
      | some d, _ => goOn d rest
      -- a code point in hexadecimal digits
      | none, some count => do
        let digits := rest.take count
        if digits.length < count || digits.contains '_' then none
        else goOn (← (natural? 16 digits).bind charOf?) (rest.drop count)
      | none, none => none
  | fuel + 1, p, c :: rest =>
    if c = '"' then some (p.folded, rest)
    -- a marker of a document may not stand inside a text
    else if c = '\n' then if isMarker rest then none else doubleQuoted? fuel p.lineBreak rest
    else if endsWord c then doubleQuoted? fuel (p.blank c) rest
    else
      (doubleQuoted? fuel {} rest).map fun (text, rest) => (p.folded ++ c :: text, rest)

end DependencyQuery.Yaml
