import DependencyQuery.Text.Quoted

namespace DependencyQuery.Regex

open Text (quoted)

/-!
# Regular expressions: what can be wrong with one

* `Fault` — the ways in which a text is no regular expression;
* `Fault.message` — how each is worded;
* `SyntaxError` — a fault with the place where it shows; `SyntaxError.text` adds the place to the
  message, and line and column too where the expression runs over several lines;
* `Refusal` — a syntax error, or one of the limits that are reported apart from syntax.
-/

/-- The ways in which a text is no regular expression. -/
inductive Fault where
  | escapeAtEnd
  | incompleteEscape (escape : String)
  | badEscape (escape : String)
  | octalTooLarge (escape : String)
  | missing (what : String)
  | unterminatedName (terminator : Char)
  | undefinedCharacter (name : String)
  | openGroup
  | groupOfSameLookbehind
  | noSuchGroup (number : Nat)
  | badGroupNumber
  | badGroupName (name : String)
  | unknownGroupName (name : String)
  | groupNameTwice (name : String) (number earlier : Nat)
  | unterminatedSet
  | badRange (first last : String)
  | repeatBounds
  | nothingToRepeat
  | multipleRepeat
  | unexpectedEnd
  | unknownExtension (text : String)
  | unterminatedComment
  | unterminatedGroup
  | conditionalBranches
  | globalFlagsInside
  | localeFlag
  | incompatibleFlags
  | unknownFlag
  | globalFlagOn
  | globalFlagOff
  | characterFlagOff
  | flagOnAndOff
  | unbalancedParenthesis
  | lookbehindTooWide
  | lookbehindWidth
  | repeatInTemplate (operator : String)
deriving DecidableEq, Repr

/-- The wording of a fault. -/
def Fault.message : Fault → String
  | escapeAtEnd => "bad escape (end of pattern)"
  | incompleteEscape escape => "incomplete escape " ++ escape
  | badEscape escape => "bad escape " ++ escape
  | octalTooLarge escape => "octal escape value " ++ escape ++ " outside of range 0-0o377"
  | missing what => "missing " ++ what
  | unterminatedName terminator => "missing " ++ terminator.toString ++ ", unterminated name"
  | undefinedCharacter name => "undefined character name " ++ quoted name
  | openGroup => "cannot refer to an open group"
  | groupOfSameLookbehind => "cannot refer to group defined in the same lookbehind subpattern"
  | noSuchGroup number => "invalid group reference " ++ toString number
  | badGroupNumber => "bad group number"
  | badGroupName name => "bad character in group name " ++ quoted name
  | unknownGroupName name => "unknown group name " ++ quoted name
  | groupNameTwice name number earlier =>
    "redefinition of group name " ++ quoted name ++ " as group " ++ toString number ++
      "; was group " ++ toString earlier
  | unterminatedSet => "unterminated character set"
  | badRange first last => "bad character range " ++ first ++ "-" ++ last
  | repeatBounds => "min repeat greater than max repeat"
  | nothingToRepeat => "nothing to repeat"
  | multipleRepeat => "multiple repeat"
  | unexpectedEnd => "unexpected end of pattern"
  | unknownExtension text => "unknown extension " ++ text
  | unterminatedComment => "missing ), unterminated comment"
  | unterminatedGroup => "missing ), unterminated subpattern"
  | conditionalBranches => "conditional backref with more than two branches"
  | globalFlagsInside => "global flags not at the start of the expression"
  | localeFlag => "bad inline flags: cannot use 'L' flag with a str pattern"
  | incompatibleFlags => "bad inline flags: flags 'a', 'u' and 'L' are incompatible"
  | unknownFlag => "unknown flag"
  | globalFlagOn => "bad inline flags: cannot turn on global flag"
  | globalFlagOff => "bad inline flags: cannot turn off global flag"
  | characterFlagOff => "bad inline flags: cannot turn off flags 'a', 'u' and 'L'"
  | flagOnAndOff => "bad inline flags: flag turned on and off"
  | unbalancedParenthesis => "unbalanced parenthesis"
  | lookbehindTooWide => "looks too much behind"
  | lookbehindWidth => "look-behind requires fixed-width pattern"
  | repeatInTemplate operator => "internal: unsupported template operator " ++ operator

/-- A fault and, where it has one, its place: the number of characters before it. -/
structure SyntaxError where
  fault : Fault
  position : Option Nat
deriving DecidableEq, Repr

/-- The message of a syntax error in the expression `source`. -/
def SyntaxError.text (e : SyntaxError) (source : List Char) : String :=
  match e.position with
  | none => e.fault.message
  | some p =>
    -- lines and columns count from one, up to the position
    let before := source.take p
    let line := before.count '\n' + 1
    let column := (before.reverse.takeWhile (· != '\n')).length + 1
    e.fault.message ++ " at position " ++ toString p ++
      -- a line is told only where there is more than one
      if '\n' ∈ source then
        " (line " ++ toString line ++ ", column " ++ toString column ++ ")"
      else ""

/-- What is asked for can be written but not carried out. -/
inductive Limit where
  /-- More rounds than can be counted. -/
  | tooManyRounds
  /-- Two character sets for the whole expression. -/
  | twoCharacterSets
deriving DecidableEq, Repr

/-- The wording of a limit. -/
def Limit.message : Limit → String
  | tooManyRounds => "the repetition number is too large"
  | twoCharacterSets => "ASCII and UNICODE flags are incompatible"

/-- Why a text is not accepted as a regular expression. -/
inductive Refusal where
  /-- It breaks the rules of the notation. -/
  | malformed (error : SyntaxError)
  /-- It goes beyond what can be carried out. -/
  | beyond (limit : Limit)
deriving DecidableEq, Repr

end DependencyQuery.Regex
