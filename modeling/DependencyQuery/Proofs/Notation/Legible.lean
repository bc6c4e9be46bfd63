import DependencyQuery.Proofs.Notation.Outlines
import DependencyQuery.Proofs.Notation.Writable

namespace DependencyQuery.Graph

/-!
# Reading a node's label back

* `WritesIndex`, `StandsBare` — how the notation of a graph comes to write the index of a node, and to write a node
  without a bracket after the label of an edge;
* `Legible` — a node of which every label that is written for it says what it should;
* `ofChars_labelWith` — such a label is read as the word, the tag and the index of the node;
* `plain_labelWith`, `labelWith_ne_nil`, `colon_not_mem_labelWith` — and it stays in one piece.
-/

/-- The last part of what a node is called: its tag, or its word if it has none. -/
def lastPart (g : Graph) (n : Node) : List Char :=
  match g.attribute? n "tag" with
  | some tag => tag.toList
  | none => (g.word n).toList

/-- The index of a node is written: where it is expanded, if it has several governors, and where it is mentioned
again. -/
def WritesIndex (g : Graph) (n : Node) : Prop := 1 < g.inDegree n ∨ n ∈ g.mentioned

instance (g : Graph) (n : Node) : Decidable (g.WritesIndex n) := inferInstanceAs (Decidable (_ ∨ _))

/-- A node is written right after the label of an edge: where it is mentioned again, and where it is expanded with no
bracket around it. -/
def StandsBare (g : Graph) (n : Node) : Prop := n ∈ g.mentioned ∨ 0 < g.inDegree n ∧ g.dependents n = []

instance (g : Graph) (n : Node) : Decidable (g.StandsBare n) := inferInstanceAs (Decidable (_ ∨ _))

/-- A node of which each label that is written for it is read back as its word, tag and index: no slash
sets off part of its word as a tag, or its index where one is written; no hyphen sets off digits as an index where
none is written; and no colon sets off part of it as the label of an edge where one comes right before it. -/
structure Legible (g : Graph) (n : Node) : Prop where
  slash : g.attribute? n "tag" = none →
    ∀ p ∈ splitAtLast '/' (g.word n).toList, p.1 = [] ∨ p.2 = [] ∧ ¬g.WritesIndex n
  hyphen : g.inDegree n ≤ 1 → (splitIndex (g.lastPart n)).2 = none
  colon : g.StandsBare n → ':' ∉ g.labelWith n false

/-- The conditions on a legible node, one after another. -/
theorem legible_iff {g : Graph} {n : Node} :
    g.Legible n ↔
      (g.attribute? n "tag" = none →
        ∀ p ∈ splitAtLast '/' (g.word n).toList, p.1 = [] ∨ p.2 = [] ∧ ¬g.WritesIndex n) ∧
      (g.inDegree n ≤ 1 → (splitIndex (g.lastPart n)).2 = none) ∧
      (g.StandsBare n → ':' ∉ g.labelWith n false) :=
  ⟨fun h => ⟨h.slash, h.hyphen, h.colon⟩, fun h => ⟨h.1, h.2.1, h.2.2⟩⟩

instance (g : Graph) (n : Node) : Decidable (g.Legible n) := decidable_of_iff' _ legible_iff

variable {g : Graph} {n : Node} {k : Nat} {indexed : Bool}

/-- The index of a node is written in decimal digits. -/
theorem toList_text (k : Nat) : (Node.text (.index k)).toList = Nat.toDigits 10 k := by
  show (toString (Int.ofNat k)).toList = Nat.toDigits 10 k
  have htext : toString (Int.ofNat k) = Nat.repr k := rfl
  rw [htext, Nat.toList_repr]

/-- A label is what a node is called, and its index after a hyphen if that is asked for. -/
theorem labelWith_eq (g : Graph) (n : Node) (indexed : Bool) :
    g.labelWith n indexed = g.labelWith n false ++ if indexed then '-' :: n.text.toList else [] := by
  cases indexed <;> simp [labelWith]

/-- A node with a tag is called by its word and the tag after a slash. -/
theorem labelWith_false_of_tag {tag : String} (htag : g.attribute? n "tag" = some tag)
    (hne : tag.toList ≠ []) : g.labelWith n false = (g.word n).toList ++ '/' :: tag.toList := by
  have hempty : tag.isEmpty = false := by
    rw [← Bool.not_eq_true, String.isEmpty_iff, ← String.toList_eq_nil_iff]
    exact hne
  simp [labelWith, htag, hempty]

/-- A node without a tag is called by its word alone. -/
theorem labelWith_false_of_no_tag (htag : g.attribute? n "tag" = none) :
    g.labelWith n false = (g.word n).toList := by
  simp [labelWith, htag]

/-- No other character is among the digits of a number. -/
theorem digits_not_mem {c : Char} (hc : Text.isDecimalDigit c = false) : c ∉ Nat.toDigits 10 k := by
  intro h
  rw [Text.isDecimalDigit_of_mem_toDigits h] at hc
  cases hc

namespace WritableNode

variable (hw : g.WritableNode n)
include hw

/-- A label is not broken into tokens. -/
theorem plain_labelWith : Plain (g.labelWith n indexed) := by
  obtain ⟨⟨k, rfl⟩, -, hword, htag⟩ := hw
  have hcalled : Plain (g.labelWith (.index k) false) := by
    cases h : g.attribute? (.index k) "tag" with
    | none => rwa [labelWith_false_of_no_tag h]
    | some tag =>
      obtain ⟨hne, -, hplain⟩ := htag tag h
      rw [labelWith_false_of_tag h hne]
      exact plain_append.2 ⟨hword, plain_cons.2 ⟨by decide, hplain⟩⟩
  have hdigits : Plain (Nat.toDigits 10 k) := fun c hc =>
    continuesRun_of_isDigit (Nat.isDigit_of_mem_toDigits (by decide) (by decide) hc)
  rw [labelWith_eq, toList_text]
  refine plain_append.2 ⟨hcalled, ?_⟩
  split
  · exact plain_cons.2 ⟨by decide, hdigits⟩
  · exact plain_nil

/-- A label is not empty. -/
theorem labelWith_ne_nil : g.labelWith n indexed ≠ [] := by
  have := hw.word_ne
  simp [labelWith, this]

/-- No colon stands in a label where it would set off part of it. -/
theorem colon_not_mem_labelWith (hl : g.Legible n) (hn : g.StandsBare n) :
    ':' ∉ g.labelWith n indexed := by
  obtain ⟨k, rfl⟩ := hw.index
  have hdigits : ':' ∉ Nat.toDigits 10 k := digits_not_mem (by decide)
  rw [labelWith_eq, toList_text, List.mem_append, not_or]
  refine ⟨hl.colon hn, ?_⟩
  split
  · simpa using hdigits
  · simp

/-- A label is read back as the word, the tag and the index of its node. -/
theorem ofChars_labelWith (hl : g.Legible n) (hn : n = .index k) (indexed : Bool)
    (hbare : indexed = false → g.inDegree n ≤ 1) (hindexed : indexed = true → g.WritesIndex n) :
    WordSpec.ofChars (g.labelWith n indexed) =
      ⟨(g.word n).toList, (g.attribute? n "tag").map String.toList, if indexed then some k else none⟩ := by
  subst hn
  have hslash : '/' ∉ if indexed then '-' :: (Node.text (.index k)).toList else [] := by
    have : '/' ∉ Nat.toDigits 10 k := digits_not_mem (by decide)
    cases indexed <;> simp [toList_text, this]
  -- the last part of the label, with the index or without one
  have hlast : ∀ part : List Char, part ≠ [] → (indexed = false → (splitIndex part).2 = none) →
      splitIndex (part ++ if indexed then '-' :: (Node.text (.index k)).toList else []) =
        (part, if indexed then some k else none) := by
    intro part hne hpart
    cases indexed with
    | true =>
      simp only [if_true]
      rw [toList_text, splitIndex_append hne]
    | false => simpa using splitIndex_of_none (hpart rfl)
  rw [labelWith_eq]
  cases h : g.attribute? (.index k) "tag" with
  | none =>
    have hlegible := hl.hyphen
    rw [lastPart, h] at hlegible
    rw [labelWith_false_of_no_tag h, WordSpec.ofChars_of_one_sided,
      hlast _ hw.word_ne fun hi => hlegible (hbare hi)]
    · rfl
    · -- a slash at the end of the word would have the index after it, if there were one
      intro p hp
      rw [splitAtLast_append hslash, Option.mem_map] at hp
      obtain ⟨q, hq, rfl⟩ := hp
      refine (hl.slash h q hq).imp id fun ⟨hback, hnone⟩ => ?_
      have hfalse : indexed = false := Bool.eq_false_iff.2 fun htrue => hnone (hindexed htrue)
      rw [hback, hfalse]
      rfl
  | some tag =>
    obtain ⟨hne, hslashTag, -⟩ := hw.tag tag h
    have hlegible := hl.hyphen
    rw [lastPart, h] at hlegible
    rw [labelWith_false_of_tag h hne, List.append_assoc, List.cons_append, WordSpec.ofChars_append,
      hlast _ hne fun hi => hlegible (hbare hi)]
    · rfl
    · exact hw.word_ne
    · simp [hne]
    · exact List.mem_append.not.2 (not_or.2 ⟨hslashTag, hslash⟩)

end WritableNode

/-- A word that ends in a slash, and one with a colon in it at the head of a bracket. -/
def slashAndColon : Graph where
  entries := [(.index 1, [("word", some "a/"), ("value", some "a/")]),
    (.index 2, [("word", some "b:c"), ("value", some "b:c")]),
    (.index 3, [("word", some "d"), ("value", some "d")])]
  edges := [⟨.index 1, .index 2, some "r"⟩, ⟨.index 2, .index 3, some "s"⟩]
  declared := [.index 1]
  nodup := by decide
  closed := by decide

example : slashAndColon.bracketed? = .ok "[a/ r:[b:c s:d]]" ∧
    ∀ n ∈ slashAndColon.nodes, slashAndColon.Legible n :=
  ⟨rfl, by decide +kernel⟩

end DependencyQuery.Graph
