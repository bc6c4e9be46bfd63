import DependencyQuery.Taxonomy.File

namespace DependencyQuery

/-!
# Where paths lead

The system follows a path name by name.  It may refuse to go on before it knows whether anything stands at the
end, because a name is too long or a folder is closed; a path through what is no folder leads to nothing.

* `Path.IsName` — a path that is a single name;
* `FileTree.find_ne_barred` — where all folders are open and all names short enough, every path has an outcome;
* `FileTree.find_name` — what a single name leads to.
-/

/-! ### Names -/

namespace Path

/-- A name on its own is a path through nothing but itself. -/
structure IsName (name : String) : Prop where
  slash : '/' ∉ name.toList
  nul : '\x00' ∉ name.toList
  nonempty : name ≠ ""
  here : name ≠ "."
  up : name ≠ ".."

variable {name : String}

/-- A name is a path of one part. -/
theorem IsName.components (h : IsName name) : components name = [name] := by
  have hsplit : name.toList.splitOn '/' = [name.toList] :=
    List.splitOnP_eq_singleton fun c hc => by
      rw [beq_eq_false_iff_ne]
      exact fun heq => h.slash (heq ▸ hc)
  rw [Path.components, hsplit, List.map_singleton, String.ofList_toList]
  exact List.filter_eq_self.2 fun other hother => by simp [List.mem_singleton.1 hother, h.nonempty, h.here]

/-- No name begins with a slash. -/
theorem IsName.head?_ne (h : IsName name) : name.toList.head? ≠ some '/' :=
  fun hhead => h.slash (List.mem_of_mem_head? hhead)

/-- A name is a path in normal form. -/
theorem IsName.normal (h : IsName name) : normal name = name := by
  have hslashes : slashes name = "" := by
    have hnone : name.toList.takeWhile (· = '/') = [] := by
      cases hchars : name.toList with
      | nil => rfl
      | cons c chars =>
        exact List.takeWhile_cons_of_neg fun heq => h.head?_ne (by rw [hchars, of_decide_eq_true heq]; rfl)
    rw [slashes, hnone]
  rw [Path.normal, hslashes, h.components]
  exact String.empty_append.trans String.intercalate_singleton

/-- One letter over and over takes one byte each time. -/
theorem utf8ByteSize_replicate (n : Nat) : (String.ofList (List.replicate n 'a')).utf8ByteSize = n := by
  induction n with
  | zero => rfl
  | succ n ih =>
    rw [List.replicate_succ, String.ofList_cons, String.utf8ByteSize_append, ih, String.utf8ByteSize_singleton]
    exact Nat.add_comm 1 n

/-- One letter over and over makes a name. -/
theorem isName_replicate {n : Nat} (hn : n ≠ 0) : IsName (String.ofList (List.replicate n 'a')) := by
  have hnot {c : Char} (hc : c ≠ 'a') : c ∉ (String.ofList (List.replicate n 'a')).toList := by
    rw [String.toList_ofList]
    exact fun hmem => hc (List.eq_of_mem_replicate hmem)
  refine ⟨hnot (by decide), hnot (by decide), fun h => hn ?_, fun h => ?_, fun h => ?_⟩
  · rwa [String.ofList_eq_empty_iff, List.replicate_eq_nil_iff] at h
  · exact hnot (by decide : '.' ≠ 'a') (by rw [h]; decide)
  · exact hnot (by decide : '.' ≠ 'a') (by rw [h]; decide)

end Path

/-! ### Trees -/

namespace FileTree

variable {tree : FileTree} {path name : String} {names : List String}

/-- What stands at the end of a path has been reached. -/
theorem entryAt_ne_barred (names : List String) (refusal : PathFault) : tree.entryAt names ≠ .barred refusal := by
  unfold entryAt
  split
  · exact nofun
  · exact nofun
  · split <;> exact nofun

/-- Where every folder may be searched, no names are too many as long as none of them is too long. -/
theorem walk_ne_barred (hclosed : tree.closed = []) (place : List String)
    (hnames : ∀ name ∈ names, name.utf8ByteSize ≤ Path.longestName) (refusal : PathFault) :
    tree.walk place names ≠ .barred refusal := by
  induction names generalizing place with
  | nil => exact entryAt_ne_barred place refusal
  | cons name names ih =>
    have hrest : ∀ place, tree.walk place names ≠ .barred refusal :=
      fun place => ih place fun name hname => hnames name (List.mem_cons_of_mem _ hname)
    rw [walk]
    split
    · rw [if_neg (by rw [hclosed]; exact List.not_mem_nil), if_neg (Nat.not_lt.2 (hnames name List.mem_cons_self))]
      split
      · exact hrest _
      · exact hrest _
    · exact nofun

/-- The system tells what stands under a path if neither the path nor any name in it is too long. -/
theorem find_ne_barred (hclosed : tree.closed = [])
    (hnames : ∀ name ∈ Path.components path, name.utf8ByteSize ≤ Path.longestName)
    (hpath : (Path.normal path).utf8ByteSize ≤ Path.longestPath) (refusal : PathFault) :
    tree.find path ≠ .barred refusal := by
  unfold find
  split
  · exact nofun
  · rw [if_neg (Nat.not_lt.2 hpath)]
    exact walk_ne_barred hclosed _ hnames refusal

/-- A single name leads into the folder where paths set out, unless it is too long. -/
theorem find_name (h : Path.IsName name) (hstart : tree.entryAt tree.start = .folder)
    (hopen : tree.start ∉ tree.closed) :
    tree.find name =
      if Path.longestName < name.utf8ByteSize then .barred .nameTooLong else tree.entryAt (tree.start ++ [name]) := by
  unfold find
  rw [if_neg h.nul, h.normal, h.components, if_neg h.head?_ne, walk, hstart]
  simp only [if_neg hopen, if_neg h.up, walk]
  split
  · next hlong => rw [if_pos (Nat.lt_trans (by decide : Path.longestName < Path.longestPath) hlong)]
  · rfl

end FileTree

end DependencyQuery
