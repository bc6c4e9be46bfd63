import DependencyQuery.Datum.Basic
import DependencyQuery.Text.Blank

namespace DependencyQuery.Payload

/-!
# Checking data against a shape

A check reads a datum as a value of some type, or lists all the issues that it finds, each with the
place where it shows.

* `Issue` — an issue and its place; `Complaint` — what it is about, `Complaint.code` its short name;
* `Checked` — the outcome of a check; `Checked.ap` combines two and keeps the issues of both;
* `integer`, `string`, `optional`, `listOf`, `textMap`, `required`, `withDefault` — the checks.
-/

/-- A step on the way to a part of a datum. -/
inductive Step where
  | key (name : String)
  | item (index : Nat)
  /-- The entry under a number. -/
  | entry (key : Int)
deriving DecidableEq, Repr

/-- The step to the entry under a key: by name, by number, or by the text of any other key. -/
def Step.under : Datum → Step
  | .text name => .key name
  | .int n => .entry n
  | .bool b => .entry (if b then 1 else 0)
  | d => .key d.quotedText

/-- What an issue is about. -/
inductive Complaint where
  | missing
  | notAnInteger
  | unreadableInteger
  | fraction
  | tooSmall
  | notAString
  | tooShort
  | notAList
  | notAMap
  | notAModel
  /-- A rule about the datum as a whole is broken. -/
  | rule (text : String)
deriving DecidableEq, Repr

namespace Complaint

/-- The short name of a complaint. -/
def code : Complaint → String
  | missing => "missing"
  | notAnInteger => "int_type"
  | unreadableInteger => "int_parsing"
  | fraction => "int_from_float"
  | tooSmall => "greater_than_equal"
  | notAString => "string_type"
  | tooShort => "string_too_short"
  | notAList => "list_type"
  | notAMap => "dict_type"
  | notAModel => "model_type"
  | rule _ => "value_error"

/-- The wording of a complaint that has one of its own. -/
def message? : Complaint → Option String
  | rule text => some ("Value error, " ++ text)
  | _ => none

end Complaint

/-- A complaint and the place that it is about. -/
structure Issue where
  path : List Step
  complaint : Complaint
deriving DecidableEq, Repr

/-- The outcome of a check: a value, or the issues. -/
abbrev Checked (α : Type) := Except (List Issue) α

namespace Checked

variable {α β : Type}

/-- A single issue with the datum itself. -/
def fail (complaint : Complaint) : Checked α := .error [⟨[], complaint⟩]

/-- Applies a checked function to a checked value; the issues of the function come first. -/
def ap : Checked (α → β) → Checked α → Checked β
  | .ok f, .ok a => .ok (f a)
  | .ok _, .error issues => .error issues
  | .error issues, .ok _ => .error issues
  | .error issues, .error more => .error (issues ++ more)

/-- The same outcome with every issue one step further inside. -/
def under (step : Step) : Checked α → Checked α
  | .ok a => .ok a
  | .error issues => .error (issues.map fun issue => { issue with path := step :: issue.path })

end Checked

/-! ### Numbers and strings -/

/-- Blanks that may surround a written integer. -/
def isPadding (c : Char) : Bool := Text.isBlank c && !(28 ≤ c.toNat && c.toNat ≤ 31)

/-- The integer of a run of digits, if it is one. -/
def digits? (s : List Char) : Option Nat :=
  if !s.isEmpty && s.all Char.isDigit then
    some (s.foldl (fun total c => 10 * total + (c.toNat - '0'.toNat)) 0)
  else none

/-- A written integer: a sign or none, digits, and perhaps a point with nothing but zeros after it. -/
def writtenInteger? (s : List Char) : Option Int :=
  let s := ((s.dropWhile isPadding).reverse.dropWhile isPadding).reverse
  let whole := match s.span (· ≠ '.') with
    | (whole, _ :: fraction) => if fraction.all (· = '0') then whole else s
    | (whole, []) => whole
  match whole with
  | '-' :: rest => (digits? rest).map fun n => -(n : Int)
  | '+' :: rest => (digits? rest).map fun n => (n : Int)
  | rest => (digits? rest).map fun n => (n : Int)

/-- An integer: a number without a fraction, a truth value, or one that is written as a string. -/
def integer : Datum → Checked Int
  | .int n => .ok n
  -- a truth value counts as an integer
  | .bool b => .ok (if b then 1 else 0)
  | .decimal d =>
    match d.toInt? with
    -- a decimal counts where it has no fraction
    | some n => .ok n
    | none => .fail .fraction
  | .text s =>
    match writtenInteger? s.toList with
    | some n => .ok n
    | none => .fail .unreadableInteger
  | _ => .fail .notAnInteger

/-- An integer that is at least one. -/
def positive (d : Datum) : Checked Int :=
  match integer d with
  | .ok n => if 1 ≤ n then .ok n else .fail .tooSmall
  | .error issues => .error issues

/-- A string. -/
def string : Datum → Checked String
  | .text s => .ok s
  | _ => .fail .notAString

/-- A string that is not empty. -/
def nonemptyString : Datum → Checked String
  | .text s => if s.isEmpty then .fail .tooShort else .ok s
  | _ => .fail .notAString

/-! ### Structure -/

section Structure

variable {α : Type}

/-- What the check reads, or nothing for null. -/
def optional (check : Datum → Checked α) : Datum → Checked (Option α)
  | .null => .ok none
  | d => (check d).map some

/-- The items from a given position on. -/
def itemsFrom (check : Datum → Checked α) : (position : Nat) → List Datum → Checked (List α)
  | _, [] => .ok []
  | position, d :: rest =>
    .ap ((Checked.under (.item position) (check d)).map List.cons)
      (itemsFrom check (position + 1) rest)

/-- A list. -/
def listOf (check : Datum → Checked α) : Datum → Checked (List α)
  | .list items => itemsFrom check 0 items
  | _ => .fail .notAList

/-- The entries of a map: a key that is no string is an issue, whatever stands under it. -/
def entriesOf (check : Datum → Checked α) : List (Datum × Datum) → Checked (List (String × α))
  | [] => .ok []
  | (key, d) :: rest =>
    .ap (.ap ((Checked.under (.under key) (Checked.under (.key "[key]") (string key))).map fun name a =>
        List.cons (name, a))
      (Checked.under (.under key) (check d)))
      (entriesOf check rest)

/-- A map with string keys. -/
def textMap (check : Datum → Checked α) : Datum → Checked (List (String × α))
  | .map entries => entriesOf check entries
  | _ => .fail .notAMap

/-- The field of that name. -/
def required (fields : List (Datum × Datum)) (name : String) (check : Datum → Checked α) :
    Checked α :=
  match Datum.get? name fields with
  | some d => .under (.key name) (check d)
  | none => .under (.key name) (.fail .missing)

/-- The field of that name, or of another one where it is absent. -/
def requiredAs (fields : List (Datum × Datum)) (name other : String) (check : Datum → Checked α) :
    Checked α :=
  match Datum.get? name fields, Datum.get? other fields with
  | none, some d => .under (.key other) (check d)
  | _, _ => required fields name check

/-- The field of that name, or a default where it is absent. -/
def withDefault (fields : List (Datum × Datum)) (name : String) (default : α)
    (check : Datum → Checked α) : Checked α :=
  match Datum.get? name fields with
  | some d => .under (.key name) (check d)
  | none => .ok default

end Structure

end DependencyQuery.Payload
