import DependencyQuery.Decimal.Shortest
import DependencyQuery.Text.Quoted

namespace DependencyQuery

/-!
# Data from outside

Requests and taxonomy files hold data whose shape is only known once they are read.

* `Datum` — such a piece of data;
* `Datum.text`, `Datum.quotedText` — its text, and its text where strings are quoted;
* `Datum.isEmptyish` — whether it counts as nothing;
* `Datum.key?` — the datum as a key of a map, under which numbers of the same value are one.
-/

/-- A piece of data. -/
inductive Datum where
  | null
  | bool (value : Bool)
  | int (value : Int)
  | decimal (value : Decimal)
  | text (value : String)
  | list (items : List Datum)
  | map (entries : List (Datum × Datum))
deriving Repr, Inhabited

namespace Datum

/-- Texts with a comma and a blank between each two. -/
def commaSeparated (parts : List String) : String := ", ".intercalate parts

mutual

/-- The text of a datum in which strings are quoted. -/
def quotedText : Datum → String
  | null => "None"
  | bool true => "True"
  | bool false => "False"
  | int value => toString value
  | decimal value => value.text
  | text value => Text.quoted value
  | list items => "[" ++ commaSeparated (quotedItems items) ++ "]"
  | map entries => "\x7b" ++ commaSeparated (quotedEntries entries) ++ "\x7d"

/-- The texts of several data. -/
def quotedItems : List Datum → List String
  | [] => []
  | item :: rest => item.quotedText :: quotedItems rest

/-- The texts of the entries of a map. -/
def quotedEntries : List (Datum × Datum) → List String
  | [] => []
  | (key, value) :: rest => (key.quotedText ++ ": " ++ value.quotedText) :: quotedEntries rest

end

/-- The text of a datum; a string stands as it is. -/
def toText : Datum → String
  | text value => value
  | d => d.quotedText

/-- Whether the datum counts as nothing: null, false, zero, or empty. -/
def isEmptyish : Datum → Bool
  | null => true
  | bool value => !value
  | int value => value = 0
  | decimal value => value.mantissa = 0
  | text value => value.isEmpty
  | list items => items.isEmpty
  | map entries => entries.isEmpty

/-- What a map can be looked up by. -/
inductive Key where
  | null
  | int (value : Int)
  | decimal (value : Decimal)
  | text (value : String)
deriving DecidableEq, Repr

/-- A decimal without zeros at its end. -/
def reduceDecimal : (places : Nat) → (mantissa : Int) → Decimal
  | 0, mantissa => ⟨mantissa, 0⟩
  | places + 1, mantissa =>
    if mantissa % 10 = 0 then reduceDecimal places (mantissa / 10) else ⟨mantissa, places + 1⟩

/-- The datum as a key: truth values are the numbers one and zero, and a list or map is none. -/
def key? : Datum → Option Key
  | null => some .null
  | bool value => some (.int (if value then 1 else 0))
  | int value => some (.int value)
  | decimal value =>
    match value.toInt? with
    | some n => some (.int n)
    | none => some (.decimal (reduceDecimal value.places value.mantissa))
  | text value => some (.text value)
  | list _ => none
  | map _ => none

/-- The value of an entry with a textual key. -/
def get? (name : String) : List (Datum × Datum) → Option Datum
  | [] => none
  | (text key, value) :: rest => if key = name then some value else get? name rest
  | _ :: rest => get? name rest

end Datum

end DependencyQuery
