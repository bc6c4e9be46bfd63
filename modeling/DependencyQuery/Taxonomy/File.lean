import DependencyQuery.Settings
import DependencyQuery.Taxonomy.Basic
import DependencyQuery.Yaml.Reader

namespace DependencyQuery

/-!
# Taxonomies from files

* `PathFault`, `FileEntry` — what can go wrong with a path, and what stands under one;
* `Files` — any way to tell what stands under each path;
* `FileTree`, `FileTree.find` — files in folders, and how a path leads through them;
* `Taxonomy.ofDocument` — the taxonomy that the document of a file declares under `hierarchy`;
* `Taxonomy.loadBy`, `Taxonomy.load` — the taxonomy in a file, with any reader of documents or with the usual
  one; `Taxonomy.ofSettings` — in the file that settings name.

Where a file does not hold a hierarchy, the flat taxonomy takes its place and a notice says so.  Only a
hierarchy whose children are no collection, or no labels, is refused, and a path that cannot be followed far
enough to tell whether anything stands there.
-/

/-- An error of the system about a path, by its number and its wording. -/
structure PathFault where
  number : Nat
  wording : String
deriving DecidableEq, Repr

/-- What stands under a path. -/
inductive FileEntry where
  | missing
  | folder
  /-- A file that is there but cannot be read as text. -/
  | unreadable
  | file (text : String)
  /-- The system does not even tell whether anything is there. -/
  | barred (fault : PathFault)
deriving DecidableEq, Repr

/-- What stands under each path. -/
abbrev Files := String → FileEntry

/-! ### Paths -/

namespace Path

/-- The names that a path goes through. -/
def components (path : String) : List String :=
  ((path.toList.splitOn '/').map String.ofList).filter fun name => name ≠ "" && name ≠ "."

/-- The slashes before the first name of a path: two are kept apart from any other number of them. -/
def slashes (path : String) : String :=
  match path.toList.takeWhile (· = '/') with
  | [] => ""
  | [_, _] => "//"
  | _ => "/"

/-- A path without what does not matter in it. -/
def normal (path : String) : String :=
  match slashes path, components path with
  | "", [] => "."
  | before, names => before ++ "/".intercalate names

/-- The number of bytes that a name may have. -/
def longestName : Nat := 255

/-- The number of bytes that a whole path may have. -/
def longestPath : Nat := 4095

end Path

namespace PathFault

/-- A path, or a name in it, is too long. -/
def nameTooLong : PathFault := ⟨36, "File name too long"⟩

/-- A folder on the way may not be searched. -/
def notPermitted : PathFault := ⟨13, "Permission denied"⟩

/-- The message about a path. -/
def message (fault : PathFault) (path : String) : String :=
  s!"[Errno {fault.number}] {fault.wording}: {Text.quoted (Path.normal path)}"

end PathFault

/-- Files in folders. -/
structure FileTree where
  /-- The names from the topmost folder to each file, with the text of the file unless it cannot be read. -/
  files : List (List String × Option String) := []
  /-- Where paths set out that do not begin with a slash. -/
  start : List String := []
  /-- The folders that may not be searched. -/
  closed : List (List String) := []

namespace FileTree

/-- Files by the paths that lead to them from the topmost folder, with their texts. -/
def ofTexts (texts : List (String × String)) : FileTree where
  files := texts.map fun (path, text) => (Path.components path, some text)

/-- What names lead to that begin at the topmost folder, if nothing is in their way. -/
def entryAt (tree : FileTree) (names : List String) : FileEntry :=
  match tree.files.lookup names with
  | some (some text) => .file text
  | some none => .unreadable
  | none =>
    if (tree.start :: tree.closed ++ tree.files.map Prod.fst).any names.isPrefixOf || names.isEmpty then .folder
    else .missing

/-- What names lead to that begin at a given place. -/
def walk (tree : FileTree) : (place : List String) → (names : List String) → FileEntry
  | place, [] => tree.entryAt place
  | place, name :: names =>
    match tree.entryAt place with
    | .folder =>
      -- no name is looked up in a folder that is closed
      if place ∈ tree.closed then .barred .notPermitted
      -- two dots lead back, and from the top nowhere else
      else if name = ".." then tree.walk place.dropLast names
      else if Path.longestName < name.utf8ByteSize then .barred .nameTooLong
      else tree.walk (place ++ [name]) names
    | _ => .missing

/-- What a path leads to. -/
def find (tree : FileTree) : Files := fun path =>
  if '\x00' ∈ path.toList then .missing
  else if Path.longestPath < (Path.normal path).utf8ByteSize then .barred .nameTooLong
  else tree.walk (if path.toList.head? = some '/' then [] else tree.start) (Path.components path)

end FileTree

namespace Taxonomy

/-- What a reader of notices is told when the flat taxonomy takes the place of another one. -/
inductive Notice where
  /-- There is no file. -/
  | missing
  /-- What there is does not hold a hierarchy. -/
  | unusable
deriving DecidableEq, Repr

/-- The importance of a notice. -/
def Notice.level : Notice → String
  | missing => "WARNING"
  | unusable => "ERROR"

/-- A taxonomy, and perhaps a notice about where it comes from. -/
structure Loaded where
  taxonomy : Taxonomy
  notice : Option Notice := none

/-- The flat taxonomy in place of another one. -/
def Loaded.instead (notice : Notice) : Loaded := ⟨flat, some notice⟩

/-- The hierarchy in a document; one that holds nothing declares an empty one. -/
def hierarchyOf (document : Datum) : Except HierarchyFault Datum :=
  if document.isEmptyish then .ok .null
  else
    match document with
    | .map fields => .ok ((Datum.get? "hierarchy" fields).getD .null)
    | _ => .error .notAMap

/-- The taxonomy that a document declares. -/
def ofDocument (document : Datum) : Except HierarchyFault Taxonomy := do
  ofHierarchy (← hierarchyOf document)

/-- The taxonomy of a document that may not have been read. -/
def ofDocument? : Option Datum → Except HierarchyFault Loaded
  | none => .ok (.instead .unusable)
  | some document =>
    match ofDocument document with
    | .ok t => .ok { taxonomy := t }
    | .error (.conflict _ _ _) => .ok (.instead .unusable)
    | .error .notAMap => .ok (.instead .unusable)
    | .error fault => .error fault

/-- Why nothing is loaded. -/
inductive LoadFault where
  /-- The system does not tell whether there is a file. -/
  | barred (path : String) (fault : PathFault)
  | hierarchy (fault : HierarchyFault)
deriving Repr

/-- The taxonomy in a file, whose document `read?` takes from its text. -/
def loadBy (read? : String → Option Datum) (files : Files) (path : String) : Except LoadFault Loaded :=
  match files path with
  | .barred fault => .error (.barred path fault)
  | .missing => .ok (.instead .missing)
  | .folder => .ok (.instead .unusable)
  | .unreadable => .ok (.instead .unusable)
  | .file text => (ofDocument? (read? text)).mapError .hierarchy

/-- The taxonomy in a file. -/
def load (files : Files) (path : String) : Except LoadFault Loaded := loadBy Yaml.read? files path

/-- The taxonomy in the file that settings name, if they name one. -/
def ofSettings (files : Files) (settings : Settings) : Except LoadFault Loaded :=
  match settings.taxonomyPath with
  | none => .ok { taxonomy := flat }
  | some path => load files path

end Taxonomy

end DependencyQuery
