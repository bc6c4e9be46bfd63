import DependencyQuery.Datum.Basic
import DependencyQuery.Pattern.Basic
import DependencyQuery.Search.Walk

namespace DependencyQuery

/-!
# Taxonomies of edge labels

A taxonomy says which label is a kind of which other.  A label that has no declared parent is a kind
of what stands before its last colon.

* `Taxonomy` — the declared parents, `Taxonomy.flat` — none;
* `parentOf`, `ancestors` — the label above a label, and all labels above it, the nearest first;
* `accepts` — whether a filter accepts a label: it names the label or one above it, or is a regular
  expression that matches the label from end to end;
* `ofHierarchy` — a taxonomy from parents with their children, `hierarchyDatum` — the datum that lists them.

Labels come from files, where they need not be texts.  A label that is no text and has no declared
parent cannot be asked for one.
-/

/-- The declared parents of labels. -/
structure Taxonomy where
  /-- Each label with its parent, every label once. -/
  parents : List (Datum.Key × Datum) := []

namespace Taxonomy

/-- The taxonomy in which only colons tell kinds apart. -/
def flat : Taxonomy := {}

/-- The number of labels with a declared parent. -/
def size (t : Taxonomy) : Nat := t.parents.length

/-- A label that cannot be placed in a taxonomy. -/
inductive LabelFault where
  | notAText
deriving DecidableEq, Repr

/-- The text before the last colon. -/
def beforeLastColon? : List Char → Option (List Char)
  | [] => none
  | c :: rest =>
    match beforeLastColon? rest with
    | some before => some (c :: before)
    | none => if c = ':' then some [] else none

/-- The label above a label, if there is one. -/
def parentOf (t : Taxonomy) (label : Datum) : Except LabelFault (Option Datum) :=
  match label.key? with
  | none => .error .notAText
  | some key =>
    match t.parents.lookup key with
    -- a label that has been declared without a parent is a root
    | some .null => .ok none
    | some parent => .ok (some parent)
    | none =>
      match label with
      -- a label that has not been declared is below what it has before its last colon
      | .text s => .ok ((beforeLastColon? s.toList).map fun before => .text (String.ofList before))
      | _ => .error .notAText

/-- The labels above a label, beginning with what has been found above the last one, up to the
first that has been seen; `fuel` bounds their number. -/
def ancestorsFrom (t : Taxonomy) : (fuel : Nat) → (seen : List Datum.Key) →
    Except LabelFault (Option Datum) → Results LabelFault Datum
  | 0, _, _ => .done
  | _ + 1, _, .error e => .failed e
  | _ + 1, _, .ok none => .done
  | fuel + 1, seen, .ok (some label) =>
    match label.key? with
    | none => .failed .notAText
    | some key =>
      -- a label that has been passed closes a cycle
      if key ∈ seen then .done
      else .next label fun _ => t.ancestorsFrom fuel (key :: seen) (t.parentOf label)

/-- A bound for the number of labels that can be met on the way up from a label: itself, whatever its
colons cut off, and the same for every declared parent. -/
def reach (t : Taxonomy) (label : Datum) : Nat :=
  let colons : Datum → Nat
    | .text s => s.toList.count ':' + 1
    | _ => 1
  t.parents.foldr (fun entry total => colons entry.2 + total) (colons label)

/-- The labels above a label, the nearest first. -/
def ancestors (t : Taxonomy) (label : Datum) : Results LabelFault Datum :=
  match label.key? with
  | none => .failed .notAText
  | some key => t.ancestorsFrom (t.reach label + 1) [key] (t.parentOf label)

/-- Whether a text is among labels, found without a look at those after it. -/
def isAmong (name : String) : Results LabelFault Datum → Except LabelFault Bool
  | .done => .ok false
  | .failed e => .error e
  | .next label rest => if label.key? = some (.text name) then .ok true else isAmong name (rest ())

/-- Whether a label is the named one or a kind of it. -/
def isKindOf (t : Taxonomy) (label name : String) : Except LabelFault Bool :=
  if name = label then .ok true else isAmong name (t.ancestors (.text label))

variable [Text.CharacterNames]

/-- Whether a filter accepts a label; a missing label is accepted by none. -/
def accepts (t : Taxonomy) : LabelFilter → Option String → Except LabelFault Bool
  | _, none => .ok false
  | .regex expression, some label => .ok (expression.fullMatches label)
  | .name name, some label => t.isKindOf label name

/-- The predicate for edge labels that a taxonomy gives a search. -/
def predicate (t : Taxonomy) : LabelPredicate := fun filter label =>
  match t.accepts filter label with
  | .ok answer => .ok answer
  | .error .notAText => .error .incomparableLabel

/-! ### Filters as text -/

/-- Whether a filter is written as a regular expression, between slashes. -/
def isRegexFilter (s : List Char) : Bool :=
  2 ≤ s.length && s.head? = some '/' && s.getLast? = some '/'

/-- What a filter written as text can fail on. -/
inductive FilterFault where
  | label (fault : LabelFault)
  | malformedRegex (text : String)
  | beyond (limit : Regex.Limit)

/-- Whether a filter written as text accepts a label.  An empty filter accepts everything. -/
def acceptsText (t : Taxonomy) (filter : Option String) (label : Option String) :
    Except FilterFault Bool :=
  match filter, label with
  | none, _ => .ok true
  | some filter, label =>
    -- an empty filter accepts everything, also what has no label
    if filter.isEmpty then .ok true
    else
      match label with
      | none => .ok false
      | some label =>
        if isRegexFilter filter.toList then
          -- the body stands between the slashes
          let body := filter.toList.tail.dropLast
          match Regex.ofString (String.ofList body) with
          | .ok expression => .ok (expression.fullMatches label)
          | .error (.malformed e) => .error (.malformedRegex (e.text body))
          | .error (.beyond limit) => .error (.beyond limit)
        else (t.isKindOf label filter).mapError .label

/-! ### Hierarchies -/

/-- The ways in which data are no hierarchy. -/
inductive HierarchyFault where
  /-- A label has two parents. -/
  | conflict (child old new : Datum)
  | notAMap
  /-- The children of a label are no collection. -/
  | noChildren
  /-- A list or map stands for a label. -/
  | notALabel
deriving Repr

/-- The wording of a conflict. -/
def conflictMessage (child old new : Datum) : String :=
  "Relation " ++ child.quotedText ++ " declared under both " ++ old.quotedText ++ " and " ++
    new.quotedText

/-- The children that a hierarchy lists for a label. -/
def childrenOf (d : Datum) : Except HierarchyFault (List Datum) :=
  if d.isEmptyish then .ok []
  else
    match d with
    | .list items => .ok items
    | .text s => .ok (s.toList.map fun c => .text c.toString)
    | .map entries => .ok (entries.map Prod.fst)
    | _ => .error .noChildren

/-- Declares the parent of a label, which may have been declared before but not with another one. -/
def declareParent (parent : Datum) (parents : List (Datum.Key × Datum)) (child : Datum) :
    Except HierarchyFault (List (Datum.Key × Datum)) :=
  match child.key? with
  | none => .error .notALabel
  | some key =>
    match parents.lookup key with
    | none => .ok (parents ++ [(key, parent)])
    | some old => if old.key? = parent.key? then .ok parents else .error (.conflict child old parent)

/-- Declares the parents that one entry of a hierarchy lists. -/
def declareEntry (parents : List (Datum.Key × Datum)) (entry : Datum × Datum) :
    Except HierarchyFault (List (Datum.Key × Datum)) := do
  (← childrenOf entry.2).foldlM (declareParent entry.1) parents

/-- The taxonomy of a hierarchy: labels, each with the labels that are kinds of it. -/
def ofHierarchy (d : Datum) : Except HierarchyFault Taxonomy :=
  if d.isEmptyish then .ok flat
  else
    match d with
    | .map entries => do return ⟨← entries.foldlM declareEntry []⟩
    | _ => .error .notAMap

/-- The taxonomy with the given parents of labels. -/
def ofParents (entries : List (Datum × Datum)) : Taxonomy where
  parents := entries.filterMap fun entry => entry.1.key?.map fun key => (key, entry.2)

end Taxonomy

/-- Labels and their kinds as a datum. -/
def hierarchyDatum (entries : List (String × List String)) : Datum :=
  .map (entries.map fun (label, kinds) => (.text label, .list (kinds.map .text)))

end DependencyQuery
