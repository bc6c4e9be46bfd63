import DependencyQuery.Text.Printable

namespace DependencyQuery.Text

/-!
# Quoted text in messages

Messages show a piece of text between quotes, on one line and with nothing invisible in it.

* The quotes are single, except around a text that holds a single quote and no double one.
* The backslash and the quote in use get a backslash before them; tab, line feed and carriage return
  are `\t`, `\n`, `\r`.
* Any other character that is not printable is written by its code point, with the fewest of two
  (`\x`), four (`\u`) or eight (`\U`) hexadecimal digits that hold it.
-/

/-- The lowest `width` hexadecimal digits of `n`, the highest of them first. -/
def hexDigits : (width : Nat) → (n : Nat) → List Char
  | 0, _ => []
  | width + 1, n => hexDigits width (n / 16) ++ [Nat.digitChar (n % 16)]

/-- One character of a quoted text, between quotes of the form `quote`. -/
def escape (quote c : Char) : List Char :=
  if c = quote ∨ c = '\\' then ['\\', c]
  else if c = '\t' then ['\\', 't']
  else if c = '\n' then ['\\', 'n']
  else if c = '\r' then ['\\', 'r']
  else if isPrintable c then [c]
  else if c.toNat < 0x100 then '\\' :: 'x' :: hexDigits 2 c.toNat
  else if c.toNat < 0x10000 then '\\' :: 'u' :: hexDigits 4 c.toNat
  else '\\' :: 'U' :: hexDigits 8 c.toNat

/-- The quote that stands around `s`. -/
def quoteFor (s : List Char) : Char :=
  if '\'' ∈ s ∧ '"' ∉ s then '"' else '\''

/-- `s` between quotes. -/
def quotedChars (s : List Char) : List Char :=
  let quote := quoteFor s
  quote :: s.flatMap (escape quote) ++ [quote]

/-- A text between quotes. -/
def quoted (s : String) : String := String.ofList (quotedChars s.toList)

end DependencyQuery.Text
