import DependencyQuery.Pattern.Basic

namespace DependencyQuery.Pattern

open Text (quoted)

/-!
# Patterns: what can be wrong with one

* `Fault` — the ways in which a text is no pattern, and `Fault.message`, how each is worded;
* `Malformed` — a fault with the number of characters before the place it points at;
* `Refusal` — why a text is not compiled: it is malformed, or a regular expression in it asks for
  what cannot be carried out.
-/

/-- What the reader waits for at a place. -/
inductive Expectation where
  | openBrace
  | colonAfterKey
  | closeParenthesis
  | barOrBracket
  | key
deriving DecidableEq, Repr

/-- The wording of an expectation. -/
def Expectation.message : Expectation → String
  | openBrace => "'\x7b'"
  | colonAfterKey => "':' after attribute key"
  | closeParenthesis => "')'"
  | barOrBracket => "'|' or ']'"
  | key => "attribute key"

/-- The ways in which a text is no pattern. -/
inductive Fault where
  | blank
  | unexpected (found : Char)
  | expected (what : Expectation) (found : Option Char)
  | unbalanced (opening : Char)
  | noRelationInGroup
  | noOperator
  | depthOnDirect (direction : Direction)
  | depthBounds (least most : Nat)
  | noTarget
  | noName
  | unknownKey (key : String)
  | noValue (key : String)
  | unterminatedRegex
  | unterminatedQuote
  | invalidRegex (reason : String)
  | invalidLabelRegex (reason : String)
deriving DecidableEq, Repr

/-- The character that stands for a link over one edge. -/
def Direction.symbol : Direction → Char
  | .up => '<'
  | .down => '>'

/-- A character between quotes. -/
def quotedChar (c : Char) : String := quoted c.toString

/-- The wording of a fault. -/
def Fault.message : Fault → String
  | blank => "Pattern must be a non-empty string"
  | unexpected found => "Unexpected " ++ quotedChar found
  | expected what found =>
    "Expected " ++ what.message ++ ", found " ++
      match found with
      | some c => quotedChar c
      | none => "end of pattern"
  | unbalanced opening => "Unbalanced '" ++ opening.toString ++ "'"
  | noRelationInGroup => "Expected relation in group"
  | noOperator => "Expected relation operator ('<', '>', '<<' or '>>')"
  | depthOnDirect direction =>
    "Depth range not allowed on '" ++ (Direction.symbol direction).toString ++ "'"
  | depthBounds least most =>
    "Invalid depth range " ++ toString least ++ "," ++ toString most ++ ": minimum exceeds maximum"
  | noTarget => "Expected node description or '(' after relation"
  | noName => "Expected node name after '='"
  | unknownKey key => "Unknown attribute key " ++ quoted key
  | noValue key => "Expected value for attribute " ++ quoted key
  | unterminatedRegex => "Unterminated regex"
  | unterminatedQuote => "Unterminated quoted value"
  | invalidRegex reason => "Invalid regex: " ++ reason
  | invalidLabelRegex reason => "Invalid relation regex: " ++ reason

/-- A fault in a pattern and its place. -/
structure Malformed where
  fault : Fault
  /-- The number of characters before the place. -/
  position : Nat
deriving DecidableEq, Repr

namespace Malformed

/-- The wording of the fault. -/
def message (e : Malformed) : String := e.fault.message

/-- The pattern with a mark below it that points at the place. -/
def context (e : Malformed) (pattern : String) : String :=
  pattern ++ "\n" ++ String.ofList (List.replicate e.position ' ') ++ "^"

/-- The fault and its place in one line. -/
def summary (e : Malformed) : String := e.message ++ " at offset " ++ toString e.position

end Malformed

/-- Why a text is not compiled. -/
inductive Refusal where
  | malformed (error : Malformed)
  /-- A regular expression goes beyond what can be carried out. -/
  | beyond (limit : Regex.Limit)
deriving DecidableEq, Repr

end DependencyQuery.Pattern
