import DependencyQuery.Datum.Basic

namespace DependencyQuery

/-!
# Settings

* `Settings` — the names under which a graph keeps words and labels, and the file with the label
  taxonomy;
* `Settings.ofDatum` — settings from a request, `Settings.ofEnvironment` — from the environment.

A setting counts only if it is a text that is not empty; anything else leaves the default in place.
-/

/-- How graphs are read and labels are compared. -/
structure Settings where
  /-- The edge attribute that holds the label of a relation. -/
  relationKey : String := "relation"
  /-- The node attribute that holds the word. -/
  wordKey : String := "word"
  /-- The file that holds the label taxonomy. -/
  taxonomyPath : Option String := none
deriving DecidableEq, Repr

namespace Settings

/-- A text that is not empty. -/
def chosen? : Option Datum → Option String
  | some (.text s) => if s.isEmpty then none else some s
  | _ => none

/-- Settings from a map; anything else holds none. -/
def ofDatum : Datum → Settings
  | .map entries =>
    { relationKey := (chosen? (Datum.get? "relation_attribute" entries)).getD "relation"
      wordKey := (chosen? (Datum.get? "word_attribute" entries)).getD "word"
      taxonomyPath := chosen? (Datum.get? "taxonomy_path" entries) }
  | _ => {}

/-- Settings from the environment, which can name the taxonomy and the label only. -/
def ofEnvironment (taxonomyPath relationKey : Option String) : Settings :=
  { relationKey := (chosen? (relationKey.map .text)).getD "relation"
    taxonomyPath := chosen? (taxonomyPath.map .text) }

end Settings

end DependencyQuery
