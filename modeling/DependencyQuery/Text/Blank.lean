/-!
# Blank characters

* `isBlank` — the characters that separate words;
* `skipBlanks` — a text without the blanks at its front;
* `trim` — a text without the blanks at both ends.
-/

namespace DependencyQuery.Text

/-- Spaces, the control characters that move the writing position, and the separators for words,
lines, paragraphs and records. -/
def isBlank (c : Char) : Bool :=
  let n := c.toNat
  (9 ≤ n && n ≤ 13) || (28 ≤ n && n ≤ 32) || n == 0x85 || n == 0xA0 || n == 0x1680 ||
    (0x2000 ≤ n && n ≤ 0x200A) || n == 0x2028 || n == 0x2029 || n == 0x202F || n == 0x205F ||
    n == 0x3000

/-- What is left after the blanks at the front. -/
def skipBlanks (s : List Char) : List Char := s.dropWhile isBlank

/-- What is left after the blanks at the front and at the end. -/
def trim (s : List Char) : List Char := (skipBlanks (skipBlanks s).reverse).reverse

end DependencyQuery.Text
