import DependencyQuery.Proofs.Pattern.Escaping
import DependencyQuery.Proofs.Pattern.Tokens
import DependencyQuery.Proofs.Steps

namespace DependencyQuery

open Pattern
open Steps (bind_eq_ok)

/-!
# Legible patterns

Not every pattern can be written down: a name may hold a blank, a group may be empty, the bounds of a
depth may cross.

* `Description.Legible`, `Link.Legible`, `PatternTree.Legible`, `Pattern.Legible` — what a pattern that
  has a text is like;
* `conjunction_legible` and its kin — whatever the grammar reads is legible;
* `Pattern.compile_legible` — and so is every pattern that is compiled.
-/

/-! ### Definitions -/

variable [Text.CharacterNames]

/-- A regular expression that keeps its meaning between slashes. -/
def Regex.Legible (r : Regex) : Prop := keepsPairs r.source.toList = true

/-- A value that can be written; quotes take every text. -/
def ValueTest.Legible : ValueTest → Prop
  | literal _ => True
  | regex expression => expression.Legible

/-- A description whose tests can be written and whose name is one identifier. -/
structure Description.Legible (d : Description) : Prop where
  tests : ∀ t ∈ d.tests, t.value.Legible
  name : ∀ name ∈ d.name, identifier? name.toList = some (name.toList, [])

/-- A label that is read as one, or a regular expression that can be written. -/
def LabelFilter.Legible : LabelFilter → Prop
  | name label => labelName? label.toList = some (label.toList, [])
  | regex expression => expression.Legible

/-- Bounds that do not cross. -/
def DepthRange.Legible (r : DepthRange) : Prop := ∀ most ∈ r.most, r.least ≤ most

/-- A relation whose label and bounds can be written. -/
structure Link.Legible (l : Link) : Prop where
  reach : ∀ bounds, l.reach = .far (some bounds) → bounds.Legible
  label : ∀ label ∈ l.label, label.Legible

mutual

/-- A tree of which every part is legible. -/
def PatternTree.Legible : PatternTree → Prop
  | .node description clauses => description.Legible ∧ clausesLegible clauses

/-- A clause of which every part is legible; a group holds one alternative at least. -/
def Clause.Legible : Clause → Prop
  | .link relation target => relation.Legible ∧ target.Legible
  | .group alternatives => alternatives ≠ [] ∧ alternativesLegible alternatives

/-- Clauses that are all legible. -/
def clausesLegible : List Clause → Prop
  | [] => True
  | clause :: rest => clause.Legible ∧ clausesLegible rest

/-- Alternatives that are all legible; each holds one clause at least. -/
def alternativesLegible : List (List Clause) → Prop
  | [] => True
  | clauses :: rest => (clauses ≠ [] ∧ clausesLegible clauses) ∧ alternativesLegible rest

end

/-- A pattern of which every tree is legible. -/
def Pattern.Legible (p : Pattern) : Prop := ∀ tree ∈ p.trees, tree.Legible

namespace Pattern

/-! ### Descriptions -/

variable {s rest : List Char}

/-- A regular expression that has been read is legible. -/
theorem readRegex_legible {invalid : String → Fault} {slash : List Char} {r : Regex}
    (h : readRegex invalid slash s = .ok (r, rest)) : r.Legible := by
  unfold readRegex at h
  split at h
  · cases h
  · next body after hbody =>
    split at h
    · next regex hregex =>
      cases h
      rw [Regex.Legible, Regex.source_of_ofString hregex, String.toList_ofList]
      exact keepsPairs_of_regexBody hbody
    · cases h
    · cases h

/-- A value that has been read is legible. -/
theorem readValue_legible {key : Attribute} {v : ValueTest} (h : readValue key s = .ok (v, rest)) :
    v.Legible := by
  unfold readValue at h
  split at h
  · obtain ⟨⟨r, after⟩, hr, h⟩ := bind_eq_ok h
    cases h
    exact readRegex_legible hr
  · split at h
    · cases h
    · cases h
      trivial
  · split at h
    · cases h
    · cases h
      trivial

/-- The value of a test that has been read is legible. -/
theorem readTest_legible {t : AttributeTest} (h : readTest s = .ok (t, rest)) : t.value.Legible := by
  unfold readTest at h
  split at h
  · cases h
  · split at h
    · cases h
    · obtain ⟨colon, -, h⟩ := bind_eq_ok h
      obtain ⟨⟨v, after⟩, hv, h⟩ := bind_eq_ok h
      cases h
      exact readValue_legible hv

/-- The values of all tests that have been read are legible. -/
theorem readTests_legible {brace : List Char} (fuel : Nat) {tests : List AttributeTest}
    (h : readTests brace fuel s = .ok (tests, rest)) : ∀ t ∈ tests, t.value.Legible := by
  induction fuel generalizing s tests with
  | zero =>
    cases h
    simp
  | succ fuel ih =>
    rw [readTests] at h
    -- the closing brace, the end of the text, one more test
    split at h
    · cases h
      simp
    · cases h
    · obtain ⟨⟨t, after⟩, ht, h⟩ := bind_eq_ok h
      obtain ⟨⟨more, after'⟩, hmore, h⟩ := bind_eq_ok h
      cases h
      intro u hu
      rcases List.mem_cons.1 hu with rfl | hu
      · exact readTest_legible ht
      · exact ih hmore u hu

omit [Text.CharacterNames] in
/-- A name that has been read is read back whole. -/
theorem readName_legible {named : Option String} (h : readName s = .ok (named, rest)) :
    ∀ name ∈ named, identifier? name.toList = some (name.toList, []) := by
  intro name hmem
  unfold readName at h
  split at h
  · split at h
    · cases h
    · next text after htext =>
      cases h
      cases hmem
      have : identifier? (text ++ []) = some (text, []) := identifier?_append htext (by simp)
      rw [List.append_nil] at this
      rw [String.toList_ofList, this]
  · cases h
    cases hmem

/-- A description that has been read is legible. -/
theorem readDescription_legible {d : Description} (h : readDescription s = .ok (d, rest)) :
    d.Legible := by
  unfold readDescription at h
  obtain ⟨inside, -, h⟩ := bind_eq_ok h
  obtain ⟨⟨tests, after⟩, htests, h⟩ := bind_eq_ok h
  obtain ⟨⟨name, after'⟩, hname, h⟩ := bind_eq_ok h
  cases h
  exact ⟨readTests_legible _ htests, readName_legible hname⟩

/-! ### Relations -/

omit [Text.CharacterNames] in
/-- Bounds that have been read are legible. -/
theorem readDepth_legible {depth : Option DepthRange} (h : readDepth s = .ok (depth, rest)) :
    ∀ bounds ∈ depth, bounds.Legible := by
  intro bounds hbounds most hmost
  unfold readDepth at h
  split at h
  · cases h
    cases hbounds
  · -- both bounds are written, and their order has been checked
    split at h
    · cases h
      cases hbounds
      cases hmost
    · split at h
      · cases h
      · next hle =>
        cases h
        cases hbounds
        cases hmost
        exact Nat.le_of_not_lt hle
  · -- one number stands for both bounds
    cases h
    cases hbounds
    cases hmost
    exact Nat.le_refl _

/-- A label that has been read is legible. -/
theorem readLabel_legible {label : Option LabelFilter} (h : readLabel s = .ok (label, rest)) :
    ∀ l ∈ label, l.Legible := by
  intro l hl
  unfold readLabel at h
  split at h
  · obtain ⟨⟨r, after⟩, hr, h⟩ := bind_eq_ok h
    cases h
    cases hl
    exact readRegex_legible hr
  · split at h
    · cases h
      cases hl
    -- a name that was read is read again as a whole
    · next name after hname =>
      cases h
      cases hl
      have : labelName? (name ++ []) = some (name, []) := labelName?_append hname (by simp)
      rw [List.append_nil] at this
      rw [LabelFilter.Legible, String.toList_ofList, this]

/-- A link that has been read is legible. -/
theorem readRelation_legible {l : Link} (h : readRelation s = .ok (l, rest)) : l.Legible := by
  unfold readRelation at h
  obtain ⟨⟨depth, afterDepth⟩, hdepth, h⟩ := bind_eq_ok h
  obtain ⟨⟨⟨direction, isFar⟩, afterOperator⟩, -, h⟩ := bind_eq_ok h
  dsimp only at h
  -- a reach of any length, a single step, and a depth where none may be
  split at h
  · obtain ⟨_, hreach, h⟩ := bind_eq_ok h
    obtain ⟨⟨label, afterLabel⟩, hlabel, h⟩ := bind_eq_ok h
    cases hreach
    cases h
    refine ⟨fun bounds hbounds => ?_, readLabel_legible hlabel⟩
    cases hbounds
    exact readDepth_legible hdepth bounds rfl
  · obtain ⟨_, hreach, h⟩ := bind_eq_ok h
    obtain ⟨⟨label, afterLabel⟩, hlabel, h⟩ := bind_eq_ok h
    cases hreach
    cases h
    refine ⟨fun bounds hbounds => ?_, readLabel_legible hlabel⟩
    cases hbounds
  · cases h

/-! ### The grammar -/

mutual

/-- A tree that has been read is legible. -/
theorem conjunction_legible : (fuel : Nat) → {s rest : List Char} → {t : PatternTree} →
    conjunction fuel s = .ok (t, rest) → t.Legible
  | 0, _, _, _, h => by cases h
  | fuel + 1, s, rest, t, h => by
    rw [conjunction] at h
    obtain ⟨⟨d, after⟩, hd, h⟩ := bind_eq_ok h
    obtain ⟨⟨cs, after'⟩, hcs, h⟩ := bind_eq_ok h
    cases h
    exact ⟨readDescription_legible hd, clauses_legible fuel hcs⟩

/-- Clauses that have been read are legible. -/
theorem clauses_legible : (fuel : Nat) → {s rest : List Char} → {cs : List Clause} →
    clauses fuel s = .ok (cs, rest) → clausesLegible cs
  | 0, _, _, _, h => by
    cases h
    trivial
  | fuel + 1, s, rest, cs, h => by
    rw [clauses] at h
    -- a bracket, a link, or the end of the clauses
    split at h
    · obtain ⟨⟨group, after⟩, hgroup, h⟩ := bind_eq_ok h
      obtain ⟨⟨more, after'⟩, hmore, h⟩ := bind_eq_ok h
      cases h
      exact ⟨alternatives_legible fuel hgroup, clauses_legible fuel hmore⟩
    · split at h
      · obtain ⟨⟨clause, after⟩, hclause, h⟩ := bind_eq_ok h
        obtain ⟨⟨more, after'⟩, hmore, h⟩ := bind_eq_ok h
        cases h
        exact ⟨link_legible fuel hclause, clauses_legible fuel hmore⟩
      · cases h
        trivial
    · cases h
      trivial

/-- Alternatives that have been read are legible, and there is one at least. -/
theorem alternatives_legible : (fuel : Nat) → {bracket s rest : List Char} →
    {as : List (List Clause)} → alternatives fuel bracket s = .ok (as, rest) →
    as ≠ [] ∧ alternativesLegible as
  | 0, _, _, _, _, h => by cases h
  | fuel + 1, bracket, s, rest, as, h => by
    rw [alternatives] at h
    obtain ⟨⟨cs, after⟩, hcs, h⟩ := bind_eq_ok h
    dsimp only at h
    -- an alternative without clauses is refused, so that those that are read have some
    split at h
    · cases h
    · next hempty =>
      have hcs' : cs ≠ [] ∧ clausesLegible cs :=
        ⟨fun h => hempty (by rw [h, List.isEmpty_nil]), clauses_legible fuel hcs⟩
      split at h
      · obtain ⟨⟨more, after'⟩, hmore, h⟩ := bind_eq_ok h
        cases h
        exact ⟨List.cons_ne_nil _ _, hcs', (alternatives_legible fuel hmore).2⟩
      · cases h
        exact ⟨List.cons_ne_nil _ _, hcs', trivial⟩
      · cases h
      · cases h

/-- A link that has been read with its target is legible. -/
theorem link_legible : (fuel : Nat) → {s rest : List Char} → {c : Clause} →
    link fuel s = .ok (c, rest) → c.Legible
  | 0, _, _, _, h => by cases h
  | fuel + 1, s, rest, c, h => by
    rw [link] at h
    obtain ⟨⟨l, after⟩, hl, h⟩ := bind_eq_ok h
    obtain ⟨⟨t, after'⟩, ht, h⟩ := bind_eq_ok h
    cases h
    exact ⟨readRelation_legible hl, target_legible fuel ht⟩

/-- A target that has been read is legible. -/
theorem target_legible : (fuel : Nat) → {s rest : List Char} → {t : PatternTree} →
    target fuel s = .ok (t, rest) → t.Legible
  | 0, _, _, _, h => by cases h
  | fuel + 1, s, rest, t, h => by
    unfold target at h
    -- a tree in parentheses, a description alone, or neither
    split at h
    · obtain ⟨⟨tree, after⟩, htree, h⟩ := bind_eq_ok h
      dsimp only at h
      split at h
      · cases h
      · obtain ⟨after', -, h⟩ := bind_eq_ok h
        cases h
        exact conjunction_legible fuel htree
    · split at h
      · obtain ⟨⟨d, after⟩, hd, h⟩ := bind_eq_ok h
        cases h
        exact ⟨readDescription_legible hd, trivial⟩
      · cases h
    · cases h

end

/-- Further trees that have been read are legible. -/
theorem moreTrees_legible {steps : Nat} (fuel : Nat) {trees : List PatternTree}
    (h : moreTrees steps fuel s = .ok trees) : ∀ tree ∈ trees, tree.Legible := by
  induction fuel generalizing s trees with
  | zero =>
    cases h
    simp
  | succ fuel ih =>
    unfold moreTrees at h
    -- a colon and a tree, or the end of the text
    split at h
    · obtain ⟨⟨tree, after⟩, htree, h⟩ := bind_eq_ok h
      obtain ⟨more, hmore, h⟩ := bind_eq_ok h
      cases h
      intro u hu
      rcases List.mem_cons.1 hu with rfl | hu
      · exact conjunction_legible steps htree
      · exact ih hmore u hu
    · cases h
      simp
    · cases h

/-- A pattern that has been read is legible. -/
theorem readPattern_legible {p : Pattern} (h : readPattern s = .ok p) : p.Legible := by
  unfold readPattern at h
  obtain ⟨⟨first, after⟩, hfirst, h⟩ := bind_eq_ok h
  obtain ⟨trees, htrees, h⟩ := bind_eq_ok h
  cases h
  intro tree htree
  rcases List.mem_cons.1 htree with rfl | htree
  · exact conjunction_legible _ hfirst
  · exact moreTrees_legible _ htrees tree htree

/-- Whatever is compiled can be written down. -/
theorem compile_legible {text : String} {p : Pattern} (h : compile text = .ok p) : p.Legible := by
  unfold compile at h
  dsimp only at h
  split at h
  · cases h
  · split at h
    · next q hq =>
      cases h
      exact readPattern_legible hq
    · cases h
    · cases h

end Pattern

end DependencyQuery
