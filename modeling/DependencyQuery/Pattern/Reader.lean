import DependencyQuery.Pattern.Error

namespace DependencyQuery.Pattern

open Text (decimalValue isBlank isDecimalDigit skipBlanks)

/-!
# Reading patterns

Every step takes the text still to be read and returns what it has read with the rest.  A step that
fails returns the rest at the place it points at, so that a place is always a suffix of the text.

* `literal?`, `identifier?`, `labelName?` — the tokens;
* `regexBody`, `quotedBody` — what stands between slashes and between quotes;
* `readDescription`, `readRelation` — a node description, and a relation up to its target;
* `conjunction`, `clauses`, `alternatives`, `link`, `target` — the grammar; their first argument
  bounds the number of steps;
* `compile` — a whole pattern, `validate` — whether there is one.
-/

/-- Why a step fails. -/
inductive Failure where
  /-- A fault at the place before the given rest of the text. -/
  | fault (fault : Fault) (rest : List Char)
  /-- A regular expression that goes beyond what can be carried out. -/
  | beyond (limit : Regex.Limit)

/-- Fails at the place before `rest`. -/
def failAt {α : Type} (rest : List Char) (fault : Fault) : Except Failure α :=
  .error (.fault fault rest)

/-! ### Tokens -/

/-- Whether an identifier may start with the character. -/
def startsName (c : Char) : Bool := c.isAlpha || c = '_'

/-- Whether the character may stand in an identifier. -/
def continuesName (c : Char) : Bool := c.isAlphanum || c = '_'

/-- An identifier. -/
def identifier? : List Char → Option (List Char × List Char)
  | c :: rest => if startsName c then some ((c :: rest).span continuesName) else none
  | [] => none

/-- Whether the character may stand in a value without quotes. -/
def continuesLiteral (c : Char) : Bool := !isBlank c && c ≠ ',' && c ≠ '}' && c ≠ '"'

/-- A value without quotes. -/
def literal? : List Char → Option (List Char × List Char)
  | c :: rest =>
    if continuesLiteral c && c ≠ '/' then some ((c :: rest).span continuesLiteral) else none
  | [] => none

/-- The subtypes of a label: parts of identifier characters, each after a colon. -/
def labelSuffix : List Char → List Char × List Char
  | [] => ([], [])
  -- a colon belongs to the label only with a character of a name after it
  | ':' :: c :: rest =>
    if continuesName c then
      let (name, rest) := labelSuffix rest
      (':' :: c :: name, rest)
    else ([], ':' :: c :: rest)
  | c :: rest =>
    if continuesName c then
      let (name, rest) := labelSuffix rest
      (c :: name, rest)
    else ([], c :: rest)

/-- An edge label without slashes: an identifier that may hold hyphens, then subtypes. -/
def labelName? : List Char → Option (List Char × List Char)
  | c :: rest =>
    if startsName c then
      let (head, rest) := (c :: rest).span fun c => continuesName c || c = '-'
      let (suffix, rest) := labelSuffix rest
      some (head ++ suffix, rest)
    else none
  | [] => none

/-- A number, in decimal digits of any script. -/
def number? (s : List Char) : Option (Nat × List Char) :=
  match s.span isDecimalDigit with
  | ([], _) => none
  | (digits, rest) => some (decimalValue digits, rest)

/-- Reads the character `c` if it comes next. -/
def accept (c : Char) : List Char → Bool × List Char
  | d :: rest => if d = c then (true, rest) else (false, d :: rest)
  | [] => (false, [])

/-- Reads the character `c`, which has to come next. -/
def expect (c : Char) (what : Expectation) : List Char → Except Failure (List Char)
  | d :: rest => if d = c then .ok rest else failAt (d :: rest) (.expected what (some d))
  | [] => failAt [] (.expected what none)

/-! ### Values -/

/-- A regular expression up to its closing slash.  A backslash makes a slash part of it; before any
other character the two stand as they are. -/
def regexBody : List Char → Option (List Char × List Char)
  | [] => none
  | '\\' :: c :: rest =>
    match regexBody rest with
    -- of all pairs only an escaped slash loses its backslash
    | some (body, rest) => some (if c = '/' then ('/' :: body, rest) else ('\\' :: c :: body, rest))
    | none => none
  | '/' :: rest => some ([], rest)
  | c :: rest =>
    match regexBody rest with
    | some (body, rest) => some (c :: body, rest)
    | none => none

/-- A text up to its closing quote.  A backslash takes the character after it as it is. -/
def quotedBody : List Char → Option (List Char × List Char)
  | [] => none
  | '\\' :: c :: rest =>
    match quotedBody rest with
    -- in quotes a backslash keeps the next character, whichever it is
    | some (body, rest) => some (c :: body, rest)
    | none => none
  | '"' :: rest => some ([], rest)
  | c :: rest =>
    match quotedBody rest with
    | some (body, rest) => some (c :: body, rest)
    | none => none

variable [Text.CharacterNames]

/-- A regular expression after its opening slash; `slash` is the text from that slash on. -/
def readRegex (invalid : String → Fault) (slash rest : List Char) : Except Failure (Regex × List Char) :=
  match regexBody rest with
  | none => failAt slash .unterminatedRegex
  | some (body, rest) =>
    match Regex.ofString (String.ofList body) with
    | .ok regex => .ok (regex, rest)
    | .error (.malformed e) => failAt slash (invalid (e.text body))
    | .error (.beyond limit) => .error (.beyond limit)

/-! ### Node descriptions -/

/-- A value of the attribute `key`. -/
def readValue (key : Attribute) : List Char → Except Failure (ValueTest × List Char)
  | '/' :: rest => do
    let (regex, rest) ← readRegex .invalidRegex ('/' :: rest) rest
    return (.regex regex, rest)
  | '"' :: rest =>
    match quotedBody rest with
    | none => failAt ('"' :: rest) .unterminatedQuote
    | some (text, rest) => .ok (.literal (String.ofList text), rest)
  -- what begins with neither a slash nor a quote is read as a word
  | s =>
    match literal? s with
    | none => failAt s (.noValue key.key)
    | some (text, rest) => .ok (.literal (String.ofList text), rest)

/-- A test: a key, a colon and a value. -/
def readTest (s : List Char) : Except Failure (AttributeTest × List Char) :=
  match identifier? s with
  | none => failAt s (.expected .key s.head?)
  | some (name, rest) =>
    match Attribute.ofKey? (String.ofList name) with
    | none => failAt s (.unknownKey (String.ofList name))
    | some key => do
      let rest ← expect ':' .colonAfterKey (skipBlanks rest)
      let (value, rest) ← readValue key (skipBlanks rest)
      return (⟨key, value⟩, rest)

/-- The tests up to the closing brace; `brace` is the text from the opening one on. -/
def readTests (brace : List Char) : (fuel : Nat) → List Char → Except Failure (List AttributeTest × List Char)
  | 0, s => .ok ([], s)
  | fuel + 1, s =>
    match skipBlanks s with
    | '}' :: rest => .ok ([], rest)
    -- the fault is reported at the brace that is left open
    | [] => failAt brace (.unbalanced '{')
    | c :: rest => do
      let (test, rest) ← readTest (c :: rest)
      -- a comma is optional, also after the last test
      let (_, rest) := accept ',' (skipBlanks rest)
      let (tests, rest) ← readTests brace fuel rest
      return (test :: tests, rest)

/-- The name after a closing brace, if an equals sign announces one. -/
def readName : List Char → Except Failure (Option String × List Char)
  | '=' :: rest =>
    match identifier? rest with
    | none => failAt rest .noName
    | some (name, rest) => .ok (some (String.ofList name), rest)
  | s => .ok (none, s)

/-- A node description. -/
def readDescription (s : List Char) : Except Failure (Description × List Char) := do
  let (negated, s) := accept '!' (skipBlanks s)
  let brace := if negated then skipBlanks s else s
  let inside ← expect '{' .openBrace brace
  let (tests, rest) ← readTests brace (inside.length + 1) inside
  let (name, rest) ← readName rest
  return (⟨tests, negated, name⟩, rest)

/-! ### Relations -/

/-- Bounds for the depth: one number for both, or a lower one, a comma and perhaps an upper one. -/
def readDepth (s : List Char) : Except Failure (Option DepthRange × List Char) :=
  match number? s with
  | none => .ok (none, s)
  | some (least, ',' :: rest) =>
    match number? rest with
    | none => .ok (some ⟨least, none⟩, rest)
    | some (most, rest) =>
      if most < least then failAt s (.depthBounds least most) else .ok (some ⟨least, some most⟩, rest)
  | some (least, rest) => .ok (some ⟨least, some least⟩, rest)

/-- An operator: its direction, and whether it is doubled and so reaches far. -/
def readOperator : List Char → Except Failure ((Direction × Bool) × List Char)
  | '<' :: '<' :: rest => .ok ((.up, true), rest)
  | '>' :: '>' :: rest => .ok ((.down, true), rest)
  | '<' :: rest => .ok ((.up, false), rest)
  | '>' :: rest => .ok ((.down, false), rest)
  | s => failAt s .noOperator

/-- The labels that a relation accepts, right after its operator. -/
def readLabel : List Char → Except Failure (Option LabelFilter × List Char)
  | '/' :: rest => do
    let (regex, rest) ← readRegex .invalidLabelRegex ('/' :: rest) rest
    return (some (.regex regex), rest)
  | s =>
    match labelName? s with
    | none => .ok (none, s)
    | some (name, rest) => .ok (some (.name (String.ofList name)), rest)

/-- A relation up to its target.  An exclamation mark stands before or after the depth. -/
def readRelation (s : List Char) : Except Failure (Link × List Char) := do
  let (before, rest) := accept '!' s
  let (depth, rest) ← readDepth rest
  -- there is one place for the mark without a depth, and after a depth only if none came before
  let (after, rest) := if before || depth.isNone then (false, rest) else accept '!' rest
  let ((direction, isFar), rest) ← readOperator rest
  -- a depth asks for the doubled operator
  let reach ← match isFar, depth with
    | true, bounds => pure (Reach.far bounds)
    | false, none => pure Reach.direct
    | false, some _ => failAt s (.depthOnDirect direction)
  let (label, rest) ← readLabel rest
  return (⟨direction, reach, label, before || after⟩, rest)

/-- Whether a relation may start with the character. -/
def startsRelation (c : Char) : Bool := c = '!' || c = '<' || c = '>' || isDecimalDigit c

/-! ### The grammar -/

mutual

/-- A description and the clauses after it. -/
def conjunction : (fuel : Nat) → List Char → Except Failure (PatternTree × List Char)
  | 0, s => failAt s (.expected .openBrace s.head?)
  | fuel + 1, s => do
    let (description, rest) ← readDescription s
    let (clauses, rest) ← clauses fuel rest
    return (.node description clauses, rest)

/-- As many clauses as there are, and the blanks after them. -/
def clauses : (fuel : Nat) → List Char → Except Failure (List Clause × List Char)
  | 0, s => .ok ([], s)
  | fuel + 1, s =>
    match skipBlanks s with
    | '[' :: rest => do
      let (group, rest) ← alternatives fuel ('[' :: rest) rest
      let (more, rest) ← clauses fuel rest
      return (.group group :: more, rest)
    -- what begins no relation ends the clauses, and is left to the caller
    | c :: rest =>
      if startsRelation c then do
        let (clause, rest) ← link fuel (c :: rest)
        let (more, rest) ← clauses fuel rest
        return (clause :: more, rest)
      else .ok ([], c :: rest)
    | [] => .ok ([], [])

/-- Alternatives up to the closing bracket; `bracket` is the text from the opening one on. -/
def alternatives : (fuel : Nat) → (bracket s : List Char) → Except Failure (List (List Clause) × List Char)
  | 0, bracket, _ => failAt bracket (.unbalanced '[')
  | fuel + 1, bracket, s => do
    let (clauses, rest) ← clauses fuel s
    -- that an alternative has clauses is checked before what it ends with
    if clauses.isEmpty then failAt rest .noRelationInGroup
    match rest with
    | '|' :: rest =>
      let (more, rest) ← alternatives fuel bracket rest
      return (clauses :: more, rest)
    | ']' :: rest => return ([clauses], rest)
    | [] => failAt bracket (.unbalanced '[')
    | c :: rest => failAt (c :: rest) (.expected .barOrBracket (some c))

/-- A relation and its target. -/
def link : (fuel : Nat) → List Char → Except Failure (Clause × List Char)
  | 0, s => failAt s .noOperator
  | fuel + 1, s => do
    let (relation, rest) ← readRelation s
    let (target, rest) ← target fuel (skipBlanks rest)
    return (.link relation target, rest)

/-- The target of a relation: a description, or a conjunction in parentheses. -/
def target : (fuel : Nat) → List Char → Except Failure (PatternTree × List Char)
  | 0, s => failAt s .noTarget
  | fuel + 1, s =>
    match s with
    | '(' :: rest => do
      let (tree, rest) ← conjunction fuel (skipBlanks rest)
      -- at the end the parenthesis is left open, before anything else the closing one is missed
      match rest with
      | [] => failAt s (.unbalanced '(')
      | rest =>
        let rest ← expect ')' .closeParenthesis rest
        return (tree, rest)
    | c :: _ =>
      if c = '{' || c = '!' then do
        let (description, rest) ← readDescription s
        return (.node description [], rest)
      else failAt s .noTarget
    | [] => failAt s .noTarget

end

/-- The trees after the first, each after a colon, up to the end of the text. -/
def moreTrees (steps : Nat) : (fuel : Nat) → List Char → Except Failure (List PatternTree)
  | 0, _ => .ok []
  | fuel + 1, s =>
    match s with
    | ':' :: rest => do
      let (tree, rest) ← conjunction steps rest
      let trees ← moreTrees steps fuel rest
      return tree :: trees
    | [] => .ok []
    | c :: rest => failAt (c :: rest) (.unexpected c)

/-- A whole pattern. -/
def readPattern (s : List Char) : Except Failure Pattern := do
  let steps := 3 * s.length + 3
  let (first, rest) ← conjunction steps s
  let trees ← moreTrees steps (s.length + 1) rest
  return ⟨first, trees⟩

/-- Compiles a text into a pattern. -/
def compile (text : String) : Except Refusal Pattern :=
  let s := text.toList
  if s.all isBlank then .error (.malformed ⟨.blank, 0⟩)
  else
    match readPattern s with
    | .ok pattern => .ok pattern
    | .error (.fault fault rest) => .error (.malformed ⟨fault, s.length - rest.length⟩)
    | .error (.beyond limit) => .error (.beyond limit)

/-- Whether a text is a pattern, and if not what is wrong with it; a regular expression beyond the
limits is neither. -/
def validate (text : String) : Except Regex.Limit (Option Malformed) :=
  match compile text with
  | .ok _ => .ok none
  | .error (.malformed e) => .ok (some e)
  | .error (.beyond limit) => .error limit

end DependencyQuery.Pattern
