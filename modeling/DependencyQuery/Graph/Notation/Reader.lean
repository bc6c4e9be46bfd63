import DependencyQuery.Graph.Error
import DependencyQuery.Settings
import DependencyQuery.Text.Digits

namespace DependencyQuery.Graph

open Text (decimalValue isBlank isDecimalDigit)

/-!
# Reading bracket notation

A graph is written as its nodes, each either a word or, in brackets, a word followed by entries
`label:item` for the edges out of it.  A word may carry a tag after a slash and an index after a
hyphen; an index that has been used before refers to the node that has it.

* `tokens` — brackets, and runs of other characters that are not blank;
* `WordSpec.ofChars` — word, tag and index of a run;
* `nodeFor` — the node that a run stands for; a run without an index gets the next one that is free;
* `Reader.step` — what one token does to what has been read so far;
* `ofNotation` — a whole text.
-/

/-- A piece of bracket notation. -/
inductive Token where
  | opening
  | closing
  | run (chars : List Char)
deriving DecidableEq, Repr

/-- A run that has been collected, if there is one. -/
def pendingRun (pending : List Char) : List Token :=
  if pending.isEmpty then [] else [.run pending]

/-- The tokens of a text, after the characters already collected for a run. -/
def tokensAfter : (pending : List Char) → List Char → List Token
  | pending, [] => pendingRun pending
  | pending, c :: rest =>
    if isBlank c then pendingRun pending ++ tokensAfter [] rest
    else if c = '[' then pendingRun pending ++ .opening :: tokensAfter [] rest
    else if c = ']' then pendingRun pending ++ .closing :: tokensAfter [] rest
    else tokensAfter (pending ++ [c]) rest

/-- The tokens of a text. -/
def tokens (s : List Char) : List Token := tokensAfter [] s

/-! ### Words -/

/-- The parts before and after the last character `c` of a text, if there is one. -/
def splitAtLast (c : Char) : List Char → Option (List Char × List Char)
  | [] => none
  | d :: rest =>
    match splitAtLast c rest with
    | some (before, after) => some (d :: before, after)
    | none => if d = c then some ([], rest) else none

/-- A word with the tag and the index that it carries. -/
structure WordSpec where
  word : List Char
  tag : Option (List Char) := none
  index : Option Nat := none
deriving DecidableEq, Repr

/-- A text before its index, and the index: decimal digits after the last hyphen, if there is
something before it. -/
def splitIndex (s : List Char) : List Char × Option Nat :=
  match splitAtLast '-' s with
  | some (before, digits) =>
    if !before.isEmpty && !digits.isEmpty && digits.all isDecimalDigit then
      (before, some (decimalValue digits))
    else (s, none)
  | none => (s, none)

/-- Word, tag and index of a run.  The tag is what follows the last slash, if there is something on
either side of it. -/
def WordSpec.ofChars (s : List Char) : WordSpec :=
  match splitAtLast '/' s with
  | some (word, rest) =>
    -- a slash at either end of the item belongs to the word
    if !word.isEmpty && !rest.isEmpty then
      let (tag, index) := splitIndex rest
      ⟨word, some tag, index⟩
    else
      let (word, index) := splitIndex s
      ⟨word, none, index⟩
  | none =>
    let (word, index) := splitIndex s
    ⟨word, none, index⟩

/-! ### Nodes -/

/-- Why reading stops. -/
inductive Stop where
  | fault (fault : NotationFault)
  | keyClash

/-- The attributes that a word brings along besides itself. -/
def WordSpec.attributes (spec : WordSpec) : Attributes :=
  match spec.tag with
  | some tag => [("tag", some (String.ofList tag))]
  | none => []

/-- A word as a new node of a graph, with a given index. -/
def create (g : Graph) (spec : WordSpec) (index : Nat) : Except Stop (Node × Graph) :=
  match g.addNode? (.index index) (String.ofList spec.word) spec.attributes with
  | some h => .ok (.index index, h)
  | none => .error .keyClash

/-- The first index from `next` on that no node has, if so many rounds lead past those that are in use. -/
def freeFrom (g : Graph) : (rounds next : Nat) → Nat
  | 0, next => next
  | rounds + 1, next => if Node.index next ∈ g then freeFrom g rounds (next + 1) else next

/-- The node that a word stands for, with the graph and the index to try next after it.  Only a word without an index
of its own asks for the next one. -/
def nodeForWord (g : Graph) (next : Nat) (spec : WordSpec) : Except Stop (Node × Graph × Nat) :=
  match spec.index with
  | none =>
    -- the counter moves on to the first index that no node has
    let free := freeFrom g g.size next
    (create g spec free).map fun (n, h) => (n, h, free)
  | some index =>
    if Node.index index ∈ g then
      -- a known index stands for its node, under the same word only
      if g.word (.index index) = String.ofList spec.word then .ok (.index index, g, next)
      else .error (.fault (.otherWord index (g.word (.index index))))
    -- an index that is written leaves the counter as it is
    else (create g spec index).map fun (n, h) => (n, h, next)

/-- The same for the word of a run. -/
def nodeFor (g : Graph) (next : Nat) (run : List Char) : Except Stop (Node × Graph × Nat) :=
  nodeForWord g next (WordSpec.ofChars run)

/-! ### Brackets -/

/-- An entry whose item is still to come: its label, and the run it is written in. -/
structure Entry where
  label : List Char
  run : List Char
deriving DecidableEq, Repr

/-- A bracket that is still open. -/
inductive Frame where
  /-- Its word is still to come. -/
  | opened
  /-- Its node is known, and perhaps an entry waits for its item. -/
  | headed (head : Node) (waiting : Option Entry)
deriving DecidableEq, Repr

/-- The edge for an entry whose item has been read. -/
def attach (g : Graph) (head : Node) (entry : Entry) (item : Node) : Except Stop Graph :=
  if entry.label.isEmpty then .error (.fault (.noLabel (String.ofList entry.run)))
  else
    match g.addEdge? head item (some (String.ofList entry.label)) with
    | some h => .ok h
    | none => .error .keyClash

/-- What has been read so far. -/
structure Reader where
  graph : Graph
  /-- The index to try for the next word without one. -/
  next : Nat := 1
  /-- The nodes of the items outside of all brackets. -/
  items : List Node := []
  /-- The open brackets, the innermost first. -/
  frames : List Frame := []

namespace Reader

/-- Puts an item that has been read in its place. -/
def deliver (r : Reader) (item : Node) : Except Stop Reader :=
  match r.frames with
  | .headed head (some entry) :: outer => do
    let g ← attach r.graph head entry item
    return { r with graph := g, frames := .headed head none :: outer }
  | _ => .ok { r with items := r.items ++ [item] }

/-- Reads one token. -/
def step (r : Reader) (t : Token) : Except Stop Reader :=
  match r.frames, t with
  | .opened :: outer, .run chars => do
    let (head, g, next) ← nodeFor r.graph r.next chars
    return { r with graph := g, next, frames := .headed head none :: outer }
  | .opened :: _, _ => .error (.fault .noWord)
  | .headed head none :: outer, .closing => { r with frames := outer }.deliver head
  | .headed _ none :: _, .opening => .error (.fault (.noEntry "["))
  | .headed head none :: outer, .run chars =>
    match splitAtLast ':' chars with
    | none => .error (.fault (.noEntry (String.ofList chars)))
    -- the item of the label follows in brackets of its own
    | some (label, []) =>
      .ok { r with frames := .headed head (some ⟨label, chars⟩) :: outer }
    | some (label, spec) => do
      let (item, g, next) ← nodeFor r.graph r.next spec
      let g ← attach g head ⟨label, chars⟩ item
      return { r with graph := g, next }
  | _, .closing => .error (.fault .unbalancedClosing)
  | frames, .opening => .ok { r with frames := .opened :: frames }
  | _, .run chars => do
    let (item, g, next) ← nodeFor r.graph r.next chars
    { r with graph := g, next }.deliver item

/-- The graph that has been read, if no bracket is open. -/
def finish (r : Reader) : Except Stop Graph :=
  match r.frames with
  | [] => .ok (r.graph.setRoots r.items)
  | .headed _ none :: _ => .error (.fault .unbalancedOpening)
  | _ => .error (.fault .unexpectedEnd)

end Reader

/-- The graph that tokens write, with its words and labels kept under the keys that the settings name. -/
def ofTokens (settings : Settings) (ts : List Token) : Except Stop Graph := do
  let r ← ts.foldlM Reader.step { graph := empty settings.wordKey true settings.relationKey }
  r.finish

/-- The graph that a text writes. -/
def ofNotation (settings : Settings) (text : String) : Except Refusal Graph :=
  let s := text.toList
  if s.all isBlank then .error .blank
  else
    match ofTokens settings (tokens s) with
    | .ok g => .ok g
    | .error (.fault fault) => .error (.misread fault text)
    | .error .keyClash => .error .keyClash

end DependencyQuery.Graph
