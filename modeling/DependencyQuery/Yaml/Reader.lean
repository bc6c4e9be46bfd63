import DependencyQuery.Yaml.Scalar

namespace DependencyQuery.Yaml

/-!
# Reading a document

A document holds one node: a mapping or a sequence whose entries stand below each other in one
column, a flow collection in brackets or braces, or a scalar.

* `Place` — what is left of a text, with line and column;
* `scalar?` — a quoted or unquoted scalar;
* `blockNode?`, `blockEntries?`, `blockPairs?` — nodes that are laid out in columns;
* `flowNode?`, `flowItems?`, `flowPairs?` — nodes between brackets and braces;
* `read?` — a whole text.

Anchors, tags, directives, block scalars and keys after a question mark are not read.  There is no
datum for what is not read or not well-formed, nor for a mapping with a collection as a key.  Of equal
keys the last one gives the value.
-/

/-- What is left of a text, and where that is. -/
structure Place where
  rest : List Char
  line : Nat := 0
  column : Nat := 0

namespace Place

/-- The place after the next `count` characters. -/
def skip : (count : Nat) → Place → Place
  | 0, p => p
  | count + 1, p =>
    match p.rest with
    | [] => p
    | '\n' :: rest => skip count ⟨rest, p.line + 1, 0⟩
    | _ :: rest => skip count ⟨rest, p.line, p.column + 1⟩

/-- The place at which a given part of the text is left. -/
def upTo (p : Place) (rest : List Char) : Place := p.skip (p.rest.length - rest.length)

/-- The number of characters up to the next that is no space, line break, or part of a comment. -/
def gapLength : (inComment : Bool) → List Char → Nat
  | _, [] => 0
  | true, c :: rest => gapLength (c ≠ '\n') rest + 1
  | false, c :: rest =>
    if c = ' ' || c = '\n' then gapLength false rest + 1
    else if c = '#' then gapLength true rest + 1
    else 0

/-- The place after spaces, line breaks and comments. -/
def afterGap (p : Place) : Place := p.skip (gapLength false p.rest)

/-- The place after spaces on the same line. -/
def afterSpaces (p : Place) : Place := p.upTo (p.rest.dropWhile (· = ' '))

/-- Whether there is a marker that ends the document, or nothing at all. -/
def isEnd (p : Place) : Bool := p.rest.isEmpty || (p.column = 0 && isMarker p.rest)

/-- Whether there is a given character, and after it one that ends a word. -/
def isAt (p : Place) (c : Char) : Bool := p.rest.head? = some c && p.rest.tail.head?.all endsWord

end Place

/-! ### Scalars -/

/-- Whether a character ends an unquoted scalar within brackets or braces. -/
def isFlowStop (c : Char) : Bool := [',', '?', '[', ']', '\x7b', '\x7d'].contains c

/-- Whether what follows a colon makes it the end of a key. -/
def endsKey (inFlow : Bool) (rest : List Char) : Bool :=
  rest.head?.all fun c => endsWord c || (inFlow && [',', '[', ']', '\x7b', '\x7d'].contains c)

/-- The number of characters that an unquoted scalar has up to the next white space. -/
def wordLength (inFlow : Bool) : List Char → Nat
  | [] => 0
  | c :: rest =>
    if endsWord c || (c = ':' && endsKey inFlow rest) || (inFlow && isFlowStop c) then 0
    else wordLength inFlow rest + 1

/-- Whether an unquoted scalar can begin here. -/
def beginsPlain (inFlow : Bool) : List Char → Bool
  | [] => false
  | c :: rest =>
    !(endsWord c || "-?:,[]\x7b\x7d#&*!|>'\"%@`".toList.contains c) ||
      (rest.head?.any fun d => !endsWord d) && (c = '-' || (!inFlow && (c = '?' || c = ':')))

/-- White space between two words of an unquoted scalar. -/
def pendingOf : List Char → Pending
  | [] => {}
  | s => s.foldl (fun p c => if c = '\n' then p.lineBreak else p.blank c) {}

/-- The words that go on an unquoted scalar, and the place after the last of them.  Outside of brackets
and braces, a word on a new line stands in column `least` or after it. -/
def moreWords (inFlow : Bool) (least : Nat) : (fuel : Nat) → Place → List Char × Place
  | 0, p => ([], p)
  | fuel + 1, p =>
    let space := p.rest.takeWhile fun c => c = ' ' || c = '\n'
    let q := p.skip space.length
    let length := wordLength inFlow q.rest
    -- a word goes on up to a comment, the end, or a line that is not indented far enough
    if space.isEmpty || q.isEnd || q.rest.head? = some '#' || length = 0 ||
        (!inFlow && q.column < least) then ([], p)
    else
      let (more, last) := moreWords inFlow least fuel (q.skip length)
      ((pendingOf space).folded ++ q.rest.take length ++ more, last)

/-- A scalar and the place after it. -/
def scalar? (inFlow : Bool) (least : Nat) (p : Place) : Option (Datum × Place) :=
  match p.rest with
  | '\'' :: rest =>
    (singleQuoted? {} rest).map fun (text, rest) => (.text (String.ofList text), p.upTo rest)
  -- the fuel is the number of characters, as each step takes one
  | '"' :: rest =>
    (doubleQuoted? (rest.length + 1) {} rest).map fun (text, rest) =>
      (.text (String.ofList text), p.upTo rest)
  | _ =>
    -- without quotes the text may run over several lines
    if beginsPlain inFlow p.rest then
      let length := wordLength inFlow p.rest
      let (more, last) := moreWords inFlow least p.rest.length (p.skip length)
      (plain? (p.rest.take length ++ more)).map fun d => (d, last)
    else none

/-! ### Nodes -/

/-- The entries of a mapping with a further one; a key that is there keeps its place. -/
def insertEntry? (entries : List (Datum × Datum)) (key value : Datum) :
    Option (List (Datum × Datum)) := do
  let k ← key.key?
  return if entries.any fun entry => entry.1.key? = some k then
    entries.map fun entry => if entry.1.key? = some k then (entry.1, value) else entry
  else entries ++ [(key, value)]

/-- The place after the colon that makes a node a key, if there is one on the same line. -/
def afterColon? (inFlow : Bool) (start last : Place) : Option Place :=
  let p := last.afterSpaces
  if p.rest.head? = some ':' && (inFlow || p.isAt ':') && start.line = p.line then some (p.skip 1)
  else none

mutual

/-- A node between brackets or braces. -/
def flowNode? : (fuel : Nat) → Place → Option (Datum × Place)
  | 0, _ => none
  | fuel + 1, p =>
    match p.rest with
    | '[' :: _ => flowItems? fuel [] (p.skip 1)
    | '\x7b' :: _ => flowPairs? fuel [] (p.skip 1)
    | _ => if p.isEnd then none else scalar? true 0 p

/-- The value after a key, which may be left out. -/
def flowValue? : (fuel : Nat) → Place → Option (Datum × Place)
  | 0, _ => none
  | fuel + 1, p =>
    let p := p.afterGap
    if p.rest.head?.any fun c => [',', ']', '\x7d'].contains c then some (.null, p)
    else flowNode? fuel p

/-- The items of a sequence in brackets, after those already read.  An item can be a single pair. -/
def flowItems? : (fuel : Nat) → (items : List Datum) → Place → Option (Datum × Place)
  | 0, _, _ => none
  | fuel + 1, items, p => do
    let p := p.afterGap
    if p.rest.head? = some ']' then return (.list items, p.skip 1)
    else
      let (node, last) ← flowNode? fuel p
      let (item, last) ←
        -- an item with a colon is a mapping of one entry
        match afterColon? true p last with
        | none => some (node, last)
        | some q => do
          let (value, last) ← flowValue? fuel q
          let pair ← insertEntry? [] node value
          pure (.map pair, last)
      let q := last.afterGap
      match q.rest.head? with
      | some ',' => flowItems? fuel (items ++ [item]) (q.skip 1)
      | some ']' => return (.list (items ++ [item]), q.skip 1)
      | _ => none

/-- The pairs of a mapping in braces, after those already read. -/
def flowPairs? : (fuel : Nat) → (entries : List (Datum × Datum)) → Place → Option (Datum × Place)
  | 0, _, _ => none
  | fuel + 1, entries, p => do
    let p := p.afterGap
    -- a trailing comma is fine
    if p.rest.head? = some '\x7d' then return (.map entries, p.skip 1)
    else
      let (key, last) ← flowNode? fuel p
      let (value, last) ←
        match afterColon? true p last with
        -- a key without a colon stands for itself, without a value
        | none => some (.null, last)
        | some q => flowValue? fuel q
      let entries ← insertEntry? entries key value
      let q := last.afterGap
      match q.rest.head? with
      | some ',' => flowPairs? fuel entries (q.skip 1)
      | some '\x7d' => return (.map entries, q.skip 1)
      | _ => none

end

mutual

/-- A node in column `least` or after it, or nothing.  A mapping or sequence can begin on a new line,
or where `isOpen` says so. -/
def blockNode? : (fuel : Nat) → (least : Nat) → (isOpen : Bool) → Place → Option (Datum × Place)
  | 0, _, _, _ => none
  | fuel + 1, least, isOpen, before => do
    let p := before.afterGap
    let isOpen := isOpen || before.line < p.line
    if p.isEnd || p.column < least then return (.null, before)
    -- block entries and pairs begin on a line of their own only
    else if p.isAt '-' then if isOpen then blockEntries? fuel p.column [] p else none
    else if p.rest.head?.any fun c => c = '[' || c = '\x7b' then
      flowNode? (4 * p.rest.length + 4) p
    else
      let (node, last) ← scalar? false least p
      -- what has a colon after it is the first key of a mapping
      match afterColon? false p last with
      | none => return (node, last)
      | some _ => if isOpen then blockPairs? fuel p.column [] p else none

/-- The entries of a sequence in a given column, after those already read. -/
def blockEntries? : (fuel : Nat) → (column : Nat) → (items : List Datum) → Place →
    Option (Datum × Place)
  | 0, _, _, _ => none
  | fuel + 1, column, items, p => do
    let (item, last) ← blockNode? fuel (column + 1) true (p.skip 1)
    let q := last.afterGap
    if !q.isEnd && q.column = column && q.isAt '-' then
      blockEntries? fuel column (items ++ [item]) q
    else return (.list (items ++ [item]), last)

/-- The pairs of a mapping in a given column, after those already read.  The sequence that is the value
of a key can stand in the same column as the key. -/
def blockPairs? : (fuel : Nat) → (column : Nat) → (entries : List (Datum × Datum)) → Place →
    Option (Datum × Place)
  | 0, _, _, _ => none
  | fuel + 1, column, entries, p => do
    let (key, last) ← scalar? false (column + 1) p
    let after ← afterColon? false p last
    let q := after.afterGap
    let (value, last) ←
      -- entries of a list may stand at the column of their key
      if after.line < q.line && q.column = column && !q.isEnd && q.isAt '-' then
        blockEntries? fuel column [] q
      else blockNode? fuel (column + 1) false after
    let entries ← insertEntry? entries key value
    let q := last.afterGap
    -- the mapping goes on at its own column, and ends at any other
    if !q.isEnd && q.column = column then blockPairs? fuel column entries q
    else return (.map entries, last)

end

/-! ### Documents -/

/-- A text in which every line ends with a line feed. -/
def unifyLineBreaks : List Char → List Char
  | [] => []
  | '\r' :: '\n' :: rest => '\n' :: unifyLineBreaks rest
  | c :: rest =>
    (if c = '\r' || c = '\u0085' || c = '\u2028' || c = '\u2029' then '\n' else c) ::
      unifyLineBreaks rest

/-- Whether a document can hold a character. -/
def isAllowed (c : Char) : Bool :=
  let n := c.toNat
  n = 9 || n = 10 || (0x20 ≤ n && n ≤ 0x7E) || (0xA0 ≤ n && n ≤ 0xFFFD) || 0x10000 ≤ n

/-- The place after the markers that end a document. -/
def afterEnds : (fuel : Nat) → Place → Place
  | 0, p => p
  | fuel + 1, p =>
    let p := p.afterGap
    if p.column = 0 && isMarker p.rest && p.rest.head? = some '.' then afterEnds fuel (p.skip 3)
    else p

/-- The datum that a text holds. -/
def read? (text : String) : Option Datum :=
  let s := unifyLineBreaks text.toList
  if !s.all isAllowed then none
  else do
    let first := Place.afterGap ⟨s, 0, 0⟩
    let isMarked := first.column = 0 && isMarker first.rest && first.rest.head? = some '-'
    let start := if isMarked then first.skip 3 else first
    let (d, last) ← blockNode? (4 * s.length + 4) 0 (!isMarked) start
    if (afterEnds (s.length + 1) last).rest.isEmpty then return d else none

end DependencyQuery.Yaml
