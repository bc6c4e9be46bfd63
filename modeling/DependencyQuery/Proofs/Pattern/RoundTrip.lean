import DependencyQuery.Proofs.Pattern.Parts

namespace DependencyQuery

open Pattern
open Steps (ok_bind)
open Text (isBlank isDecimalDigit skipBlanks)

/-!
# Reading patterns back

What a legible pattern is written as is read back as that pattern.

* `Closes` — what may follow a sequence of clauses;
* `renderTarget`, `renderBarred` — a target after its blank, and alternatives with bars between them;
* `conjunction_render`, `clauses_renderSequence`, `clauses_render`, `alternatives_render` — the grammar
  reads back what has been written, given three steps for each character;
* `Pattern.legible_iff_exists_compile` — the legible patterns are just those that have a text;
* `Pattern.compile_render` — a pattern that has been compiled is written as a text that is compiled into
  it again, and no other compiled pattern is written as that text.
-/

variable {s rest : List Char}

/-! ### What follows -/

/-- Blanks and closing brackets are boundaries. -/
theorem boundary_cons {c : Char} (h : c ∈ [' ', ')', ']']) (rest : List Char) : Boundary (c :: rest) :=
  forall_head?_cons h rest

/-- A space is a boundary. -/
theorem boundary_space (rest : List Char) : Boundary (' ' :: rest) := boundary_cons (by decide) rest

/-- What may follow a sequence of clauses: a boundary after which no clause begins. -/
structure Closes (rest : List Char) : Prop where
  boundary : Boundary rest
  noClause : ∀ c ∈ (skipBlanks rest).head?, c ≠ '[' ∧ startsRelation c = false

namespace Closes

/-- Clauses are closed by the end of the text. -/
theorem nil : Closes [] := ⟨by simp [Boundary], by simp [skipBlanks]⟩

/-- Clauses are closed by any boundary after which none begins. -/
theorem of_head {c : Char} {rest : List Char} (h : skipBlanks rest = c :: s) (hrest : Boundary rest)
    (hbracket : c ≠ '[') (hstarts : startsRelation c = false) : Closes rest := by
  refine ⟨hrest, ?_⟩
  rw [h]
  exact forall_head?_cons ⟨hbracket, hstarts⟩ s

/-- Clauses are closed by a closing parenthesis. -/
theorem parenthesis (rest : List Char) : Closes (')' :: rest) :=
  of_head (c := ')') rfl (boundary_cons (by decide) _) (by decide) (by decide)

/-- Clauses are closed by a closing bracket. -/
theorem bracket (rest : List Char) : Closes (']' :: rest) :=
  of_head (c := ']') rfl (boundary_cons (by decide) _) (by decide) (by decide)

/-- Clauses are closed by a bar. -/
theorem bar (rest : List Char) : Closes (' ' :: '|' :: rest) :=
  of_head (c := '|') rfl (boundary_space _) (by decide) (by decide)

/-- Clauses are closed by a colon. -/
theorem colon (rest : List Char) : Closes (' ' :: ':' :: rest) :=
  of_head (c := ':') rfl (boundary_space _) (by decide) (by decide)

end Closes

/-! ### What is written -/

section

variable [Text.CharacterNames]

/-- A target after the blank before it. -/
def renderTarget : PatternTree → List Char
  | .node description [] => description.render
  | .node description (clause :: clauses) =>
    '(' :: (PatternTree.node description (clause :: clauses)).render ++ [')']

/-- Alternatives with bars between them. -/
def renderBarred : List (List Clause) → List Char
  | [] => []
  | clauses :: more => renderSequence clauses ++ renderAlternatives more

/-- A link is written with a blank before its target. -/
theorem render_link (l : Link) (t : PatternTree) :
    (Clause.link l t).render = l.render ++ ' ' :: renderTarget t := by
  rcases t with ⟨description, _ | ⟨clause, clauses⟩⟩
  · rw [Clause.render, renderTarget]
  · rw [Clause.render, renderTarget, List.append_assoc]
    · rfl
    · rintro _ h
      cases h

/-- A group is written in brackets, with bars between its alternatives. -/
theorem render_group (as : List (List Clause)) :
    (Clause.group as).render = '[' :: renderBarred as ++ [']'] := by
  cases as with
  | nil => rw [Clause.render]; rfl
  | cons clauses more => rw [Clause.render, renderBarred]; simp

/-- Further alternatives begin with a bar. -/
theorem renderAlternatives_cons (clauses : List Clause) (more : List (List Clause)) :
    renderAlternatives (clauses :: more) = ' ' :: '|' :: ' ' :: renderBarred (clauses :: more) := by
  rw [renderAlternatives, renderBarred]
  simp

omit [Text.CharacterNames] in
/-- A character that announces a relation. -/
theorem announces_relation {c : Char} (h : c = '!' ∨ c.isDigit = true ∨ c = '<' ∨ c = '>') :
    isBlank c = false ∧ c ≠ '[' ∧ startsRelation c = true := by
  rcases h with rfl | h | rfl | rfl
  · decide
  · have hdecimal := Text.isDecimalDigit_of_isDigit h
    refine ⟨?_, ?_, ?_⟩
    · have hrange : 48 ≤ c.toNat ∧ c.toNat ≤ 57 := Char.isDigit_iff_toNat.1 h
      rw [Bool.eq_false_iff]
      intro hblank
      simp only [isBlank, Bool.or_eq_true, Bool.and_eq_true, decide_eq_true_eq, beq_iff_eq] at hblank
      omega
    · rintro rfl
      exact absurd h (by decide)
    · rw [startsRelation, hdecimal, Bool.or_true]
  · decide
  · decide

/-- The text of a link begins like a relation, and with neither a blank nor a bracket. -/
theorem exists_cons_of_link_render (l : Link) (rest : List Char) :
    ∃ c tail, l.render ++ rest = c :: tail ∧ isBlank c = false ∧ c ≠ '[' ∧ startsRelation c = true := by
  rw [link_render_append]
  cases l.negated with
  | true => exact ⟨'!', _, rfl, announces_relation (.inl rfl)⟩
  | false =>
    obtain ⟨c, hc, hcases⟩ := head?_depthText (writtenBounds l.reach) l.direction (isFar l.reach)
      (labelText l.label ++ rest)
    obtain ⟨tail, htail⟩ := List.head?_eq_some_iff.1 hc
    exact ⟨c, tail, htail, announces_relation (.inr hcases)⟩

/-- The text of a clause does not begin with a blank. -/
theorem exists_cons_of_clause_render (c : Clause) (rest : List Char) :
    ∃ d tail, c.render ++ rest = d :: tail ∧ isBlank d = false := by
  cases c with
  | link l t =>
    obtain ⟨d, tail, htext, hblank, -⟩ := exists_cons_of_link_render l (' ' :: renderTarget t ++ rest)
    exact ⟨d, tail, by rw [render_link, List.append_assoc, htext], hblank⟩
  | group as => exact ⟨'[', _, by rw [render_group]; rfl, by decide⟩

/-- The text of a clause is not empty. -/
theorem length_clause_render_pos (c : Clause) : 0 < c.render.length := by
  obtain ⟨d, tail, htext, -⟩ := exists_cons_of_clause_render c []
  rw [List.append_nil] at htext
  rw [htext]
  exact Nat.zero_lt_succ _

/-- No blanks are skipped before a clause. -/
theorem skipBlanks_clause_render (c : Clause) (rest : List Char) :
    skipBlanks (c.render ++ rest) = c.render ++ rest := by
  obtain ⟨d, tail, htext, hblank⟩ := exists_cons_of_clause_render c rest
  rw [htext, skipBlanks_cons hblank]

/-- No blanks are skipped before alternatives. -/
theorem skipBlanks_renderBarred {as : List (List Clause)} (h : as ≠ []) (has : alternativesLegible as)
    (rest : List Char) : skipBlanks (renderBarred as ++ rest) = renderBarred as ++ rest := by
  rcases as with _ | ⟨_ | ⟨c, cs⟩, more⟩
  · exact (h rfl).elim
  · exact (has.1.1 rfl).elim
  · rw [renderBarred, renderSequence, List.append_assoc, List.append_assoc]
    exact skipBlanks_clause_render c _

/-- No blanks are skipped before a description. -/
theorem skipBlanks_description_render (d : Description) (rest : List Char) :
    skipBlanks (d.render ++ rest) = d.render ++ rest := by
  rw [description_render_append]
  cases d.negated <;> rfl

/-- Clauses with a blank before each are what a boundary may begin with. -/
theorem boundary_renderFollowing (cs : List Clause) (hrest : Boundary rest) :
    Boundary (renderFollowing cs ++ rest) := by
  cases cs with
  | nil => rwa [renderFollowing, List.nil_append]
  | cons c cs =>
    rw [renderFollowing]
    exact boundary_space _

/-! ### Steps of the grammar -/

/-- Blanks before clauses are passed over. -/
theorem clauses_skipBlanks {fuel : Nat} (h : 0 < fuel) (s : List Char) :
    clauses fuel (skipBlanks s) = clauses fuel s := by
  cases fuel with
  | zero => cases h
  | succ fuel => rw [clauses, clauses, skipBlanks_skipBlanks]

/-- Blanks before a tree are passed over. -/
theorem conjunction_skipBlanks {fuel : Nat} (h : 0 < fuel) (s : List Char) :
    conjunction fuel (skipBlanks s) = conjunction fuel s := by
  cases fuel with
  | zero => cases h
  | succ fuel =>
    rw [conjunction, conjunction, readDescription, readDescription, skipBlanks_skipBlanks]

/-- Where clauses are closed there are no more of them. -/
theorem clauses_closes {fuel : Nat} (h : 0 < fuel) (hrest : Closes rest) :
    clauses fuel rest = .ok ([], skipBlanks rest) := by
  cases fuel with
  | zero => cases h
  | succ fuel =>
    rw [clauses]
    split
    · next heq => exact ((hrest.noClause '[' (by rw [heq]; rfl)).1 rfl).elim
    · next c after _ heq =>
      have := (hrest.noClause c (by rw [heq]; rfl)).2
      rw [if_neg (by rw [this]; decide), heq]
    · next heq => rw [heq]

/-- Where a relation begins, a link is read and then further clauses. -/
theorem clauses_of_announced {fuel : Nat} {c : Char} (hblank : isBlank c = false) (hbracket : c ≠ '[')
    (hstarts : startsRelation c = true) :
    clauses (fuel + 1) (c :: s) = (do
      let (clause, rest) ← link fuel (c :: s)
      let (more, rest) ← clauses fuel rest
      return (clause :: more, rest)) := by
  rw [clauses, skipBlanks_cons hblank]
  split
  · next heq => exact absurd (List.cons.inj heq).1 hbracket
  · next heq =>
    cases heq
    rw [if_pos hstarts]
  · next heq => cases heq

/-- At a bracket, alternatives are read and then further clauses. -/
theorem clauses_of_bracket (fuel : Nat) (s : List Char) :
    clauses (fuel + 1) ('[' :: s) = (do
      let (group, rest) ← alternatives fuel ('[' :: s) s
      let (more, rest) ← clauses fuel rest
      return (.group group :: more, rest)) := by
  rw [clauses]
  rfl

/-- A target that begins like a description is one. -/
theorem target_of_description {fuel : Nat} (d : Description) (rest : List Char) :
    target (fuel + 1) (d.render ++ rest) = (do
      let (description, rest) ← readDescription (d.render ++ rest)
      return (.node description [], rest)) := by
  rw [description_render_append]
  cases d.negated <;> rfl

/-- A target in parentheses is a tree. -/
theorem target_parenthesis (fuel : Nat) (s : List Char) :
    target (fuel + 1) ('(' :: s) = (do
      let (tree, rest) ← conjunction fuel (skipBlanks s)
      match rest with
      | [] => failAt ('(' :: s) (.unbalanced '(')
      | rest =>
        let rest ← expect ')' .closeParenthesis rest
        return (tree, rest)) := by
  unfold target
  rfl

/-- A target in parentheses ends at the closing one. -/
theorem target_of_parenthesis {fuel : Nat} {t : PatternTree}
    (h : conjunction fuel (skipBlanks s) = .ok (t, ')' :: rest)) :
    target (fuel + 1) ('(' :: s) = .ok (t, rest) := by
  rw [target_parenthesis, h]
  rfl

/-!
### Reading back

Each step asks for three steps of fuel for every character that is left, and for one, two or three more:
on the way from a tree through its clauses, a link and a target to the next tree, a character is read
for every three steps that are taken.
-/

/-- A target is read back, provided that the tree in its parentheses is. -/
theorem target_renderTarget {t : PatternTree} (ht : t.Legible) (hrest : Boundary rest)
    (hconjunction : ∀ {fuel : Nat} {rest : List Char}, Closes rest →
      3 * (t.render ++ rest).length + 3 ≤ fuel →
      conjunction fuel (t.render ++ rest) = .ok (t, skipBlanks rest))
    {fuel : Nat} (hfuel : 3 * (renderTarget t ++ rest).length + 2 ≤ fuel) :
    target fuel (renderTarget t ++ rest) = .ok (t, rest) := by
  cases fuel with
  | zero => cases hfuel
  | succ fuel =>
    -- a description stands by itself, whatever has clauses stands in parentheses
    rcases t with ⟨d, _ | ⟨c, cs⟩⟩
    · rw [renderTarget, target_of_description, readDescription_render ht.1 hrest, ok_bind]
      rfl
    · rw [renderTarget, List.append_assoc, List.cons_append] at hfuel ⊢
      apply target_of_parenthesis
      have hblanks : skipBlanks ((PatternTree.node d (c :: cs)).render ++ ([')'] ++ rest)) =
          (PatternTree.node d (c :: cs)).render ++ ')' :: rest := by
        rw [PatternTree.render, List.append_assoc, skipBlanks_description_render]
        simp
      rw [hblanks]
      apply hconjunction (Closes.parenthesis rest)
      simp only [List.length_cons, List.length_append, List.length_nil] at hfuel ⊢
      omega

/-- No blanks are skipped before a target. -/
theorem skipBlanks_renderTarget (t : PatternTree) (rest : List Char) :
    skipBlanks (renderTarget t ++ rest) = renderTarget t ++ rest := by
  rcases t with ⟨d, _ | ⟨c, cs⟩⟩
  · exact skipBlanks_description_render d rest
  · rfl

/-- A link is read back, provided that its target is. -/
theorem link_render {l : Link} {t : PatternTree} (hl : l.Legible)
    (htarget : ∀ {fuel : Nat}, 3 * (renderTarget t ++ rest).length + 2 ≤ fuel →
      target fuel (renderTarget t ++ rest) = .ok (t, rest))
    {fuel : Nat} (hfuel : 3 * (l.render ++ ' ' :: (renderTarget t ++ rest)).length ≤ fuel) :
    link fuel (l.render ++ ' ' :: (renderTarget t ++ rest)) = .ok (.link l t, rest) := by
  -- the relation is not empty, so the steps for the target are left after it
  have hlength : 0 < l.render.length := by
    obtain ⟨c, tail, htext, -⟩ := exists_cons_of_link_render l []
    rw [List.append_nil] at htext
    rw [htext]
    exact Nat.zero_lt_succ _
  rw [List.length_append, List.length_cons] at hfuel
  cases fuel with
  | zero => omega
  | succ fuel =>
    rw [link, readRelation_render hl, ok_bind]
    dsimp only
    rw [skipBlanks_space, skipBlanks_renderTarget, htarget (by omega), ok_bind]
    rfl

/-- Clauses with a blank before each are read back, provided that they are without the first blank. -/
theorem clauses_renderFollowing {cs : List Clause}
    (hclauses : ∀ {fuel : Nat}, 3 * (renderSequence cs ++ rest).length + 1 ≤ fuel →
      clauses fuel (renderSequence cs ++ rest) = .ok (cs, skipBlanks rest))
    {fuel : Nat} (hfuel : 3 * (renderFollowing cs ++ rest).length + 1 ≤ fuel) :
    clauses fuel (renderFollowing cs ++ rest) = .ok (cs, skipBlanks rest) := by
  cases cs with
  | nil => exact hclauses hfuel
  | cons c cs =>
    have htext : renderFollowing (c :: cs) = ' ' :: renderSequence (c :: cs) := by
      rw [renderFollowing, renderSequence]
      rfl
    have hpos : 0 < fuel := Nat.zero_lt_of_lt hfuel
    rw [htext, List.cons_append, List.length_cons] at hfuel
    -- clauses skip the blanks before them, and so the first one
    rw [htext, List.cons_append, ← clauses_skipBlanks hpos, skipBlanks_space, clauses_skipBlanks hpos]
    exact hclauses (by omega)

mutual

/-- A tree is read back from what it is written as. -/
theorem conjunction_render : (t : PatternTree) → t.Legible → {fuel : Nat} → {rest : List Char} →
    Closes rest → 3 * (t.render ++ rest).length + 3 ≤ fuel →
    conjunction fuel (t.render ++ rest) = .ok (t, skipBlanks rest)
  | .node d cs, ⟨hd, hcs⟩, 0, rest, hrest, hfuel => by cases hfuel
  | .node d cs, ⟨hd, hcs⟩, fuel + 1, rest, hrest, hfuel => by
    rw [PatternTree.render, List.append_assoc] at hfuel ⊢
    have hclauses : clauses fuel (renderFollowing cs ++ rest) = .ok (cs, skipBlanks rest) := by
      apply clauses_renderFollowing fun hfuel => clauses_renderSequence cs hcs hrest hfuel
      rw [List.length_append] at hfuel
      omega
    rw [conjunction, readDescription_render hd (boundary_renderFollowing cs hrest.boundary), ok_bind]
    dsimp only
    rw [hclauses, ok_bind]
    rfl

/-- A clause is read back at the front of clauses. -/
theorem clauses_render : (c : Clause) → c.Legible → {fuel : Nat} → {rest : List Char} →
    Boundary rest → 3 * (c.render ++ rest).length ≤ fuel →
    clauses (fuel + 1) (c.render ++ rest) = (do
      let (more, rest) ← clauses fuel rest
      return (c :: more, rest))
  | .link l t, ⟨hl, ht⟩, fuel, rest, hrest, hfuel => by
    rw [render_link, List.append_assoc, List.cons_append] at hfuel ⊢
    have hlink := link_render hl (fun h => target_renderTarget ht hrest (conjunction_render t ht) h) hfuel
    -- what the relation begins with says that a link follows, and no bracket
    obtain ⟨c, tail, htext, hblank, hbracket, hstarts⟩ :=
      exists_cons_of_link_render l (' ' :: (renderTarget t ++ rest))
    rw [htext] at hlink ⊢
    rw [clauses_of_announced hblank hbracket hstarts, hlink]
    rfl
  -- the bracket is taken off, and the alternatives are read with the steps that are left
  | .group as, ⟨hne, has⟩, fuel, rest, hrest, hfuel => by
    have htext : (Clause.group as).render ++ rest = '[' :: (renderBarred as ++ ']' :: rest) := by
      rw [render_group]
      simp
    have hblanks := skipBlanks_renderBarred hne has (']' :: rest)
    rw [htext, List.length_cons] at hfuel
    have hgroup : alternatives fuel ('[' :: (renderBarred as ++ ']' :: rest))
        (renderBarred as ++ ']' :: rest) = .ok (as, rest) := by
      apply alternatives_render as has hne hblanks
      rw [hblanks]
      omega
    rw [htext, clauses_of_bracket, hgroup]
    rfl

/-- Clauses are read back from what they are written as. -/
theorem clauses_renderSequence : (cs : List Clause) → clausesLegible cs → {fuel : Nat} →
    {rest : List Char} → Closes rest → 3 * (renderSequence cs ++ rest).length + 1 ≤ fuel →
    clauses fuel (renderSequence cs ++ rest) = .ok (cs, skipBlanks rest)
  | [], _, fuel, rest, hrest, hfuel => by
    rw [renderSequence, List.nil_append]
    exact clauses_closes (Nat.zero_lt_of_lt hfuel) hrest
  | c :: cs, ⟨hc, hcs⟩, 0, rest, hrest, hfuel => by cases hfuel
  | c :: cs, ⟨hc, hcs⟩, fuel + 1, rest, hrest, hfuel => by
    rw [renderSequence, List.append_assoc] at hfuel ⊢
    have hlength := length_clause_render_pos c
    have hmore : clauses fuel (renderFollowing cs ++ rest) = .ok (cs, skipBlanks rest) := by
      apply clauses_renderFollowing fun hfuel => clauses_renderSequence cs hcs hrest hfuel
      rw [List.length_append] at hfuel
      omega
    rw [clauses_render c hc (boundary_renderFollowing cs hrest.boundary) (Nat.le_of_succ_le_succ hfuel),
      hmore, ok_bind]
    rfl

/-- Alternatives are read back from what they are written as, up to the closing bracket. -/
theorem alternatives_render : (as : List (List Clause)) → alternativesLegible as → as ≠ [] →
    {fuel : Nat} → {bracket s rest : List Char} → skipBlanks s = renderBarred as ++ ']' :: rest →
    3 * (skipBlanks s).length + 2 ≤ fuel → alternatives fuel bracket s = .ok (as, rest)
  | [], _, hne, _, _, _, _, _, _ => (hne rfl).elim
  | cs :: more, ⟨⟨hcs, hlegible⟩, hmore⟩, _, 0, _, s, rest, hs, hfuel => by cases hfuel
  | cs :: more, ⟨⟨hcs, hlegible⟩, hmore⟩, _, fuel + 1, bracket, s, rest, hs, hfuel => by
    have hempty : ¬cs.isEmpty = true := by rwa [List.isEmpty_iff]
    rw [hs, renderBarred, List.append_assoc] at hfuel
    have hcloses : Closes (renderAlternatives more ++ ']' :: rest) := by
      cases more with
      | nil =>
        rw [renderAlternatives]
        exact Closes.bracket rest
      | cons next more =>
        rw [renderAlternatives_cons]
        exact Closes.bar _
    -- the blanks before the first alternative are skipped by its clauses
    have hclauses : clauses fuel s = .ok (cs, skipBlanks (renderAlternatives more ++ ']' :: rest)) := by
      rw [← clauses_skipBlanks (by omega), hs, renderBarred, List.append_assoc]
      exact clauses_renderSequence cs hlegible hcloses (by omega)
    rw [alternatives, hclauses, ok_bind]
    dsimp only
    rw [if_neg hempty]
    cases more with
    | nil => rfl
    | cons next more =>
      have hblanks := skipBlanks_renderBarred (List.cons_ne_nil next more) hmore (']' :: rest)
      have hnext : alternatives fuel bracket (' ' :: (renderBarred (next :: more) ++ ']' :: rest)) =
          .ok (next :: more, rest) := by
        apply alternatives_render (next :: more) hmore (List.cons_ne_nil _ _)
        · rw [skipBlanks_space, hblanks]
        · rw [skipBlanks_space, hblanks]
          rw [renderAlternatives_cons] at hfuel
          simp only [List.length_cons, List.length_append] at hfuel ⊢
          omega
      rw [renderAlternatives_cons]
      show (do
        let (more, rest) ← alternatives fuel bracket (' ' :: (renderBarred (next :: more) ++ ']' :: rest))
        return (cs :: more, rest)) = _
      rw [hnext]
      rfl

end

/-! ### Whole patterns -/

/-- The trees after the first, as they are written. -/
def renderRest (trees : List PatternTree) : List Char :=
  (trees.map PatternTree.render).flatMap ([' ', ':', ' '] ++ ·)

/-- Further trees are written after colons. -/
theorem renderRest_cons (tree : PatternTree) (trees : List PatternTree) :
    renderRest (tree :: trees) = ' ' :: ':' :: ' ' :: (tree.render ++ renderRest trees) := by
  simp [renderRest]

/-- Clauses are closed by further trees. -/
theorem closes_renderRest (trees : List PatternTree) : Closes (renderRest trees) := by
  cases trees with
  | nil => exact Closes.nil
  | cons tree trees =>
    rw [renderRest_cons]
    exact Closes.colon _

/-- A pattern is written as its first tree and the further ones. -/
theorem toList_render (p : Pattern) : p.render.toList = p.first.render ++ renderRest p.rest := by
  rw [Pattern.render, String.toList_ofList, Pattern.trees, List.map_cons, joinWith_cons, renderRest]

/-- After a colon a tree is read, and then further ones. -/
theorem moreTrees_colon (steps fuel : Nat) (s : List Char) :
    moreTrees steps (fuel + 1) (':' :: s) = (do
      let (tree, rest) ← conjunction steps s
      let trees ← moreTrees steps fuel rest
      return tree :: trees) := rfl

/-- The trees after the first are read back, each from the blank after its colon. -/
theorem moreTrees_render {steps fuel : Nat} {trees : List PatternTree}
    (h : ∀ tree ∈ trees, tree.Legible) (hsteps : 3 * (renderRest trees).length + 3 ≤ steps)
    (hfuel : trees.length < fuel) : moreTrees steps fuel (skipBlanks (renderRest trees)) = .ok trees := by
  induction trees generalizing fuel with
  | nil =>
    cases fuel with
    | zero => cases hfuel
    | succ fuel => rfl
  | cons tree trees ih =>
    cases fuel with
    | zero => cases hfuel
    | succ fuel =>
      rw [renderRest_cons] at hsteps ⊢
      simp only [List.length_cons, List.length_append] at hsteps
      have htree : conjunction steps (' ' :: (tree.render ++ renderRest trees)) =
          .ok (tree, skipBlanks (renderRest trees)) := by
        have hpos : 0 < steps := by omega
        -- the description skips the blank after the colon
        rw [← conjunction_skipBlanks hpos, skipBlanks_space, conjunction_skipBlanks hpos]
        apply conjunction_render tree (h tree List.mem_cons_self) (closes_renderRest trees)
        rw [List.length_append]
        omega
      have hmore := ih (fun t ht => h t (List.mem_cons_of_mem _ ht)) (by omega)
        (Nat.lt_of_succ_lt_succ hfuel)
      rw [skipBlanks_space, skipBlanks_cons (by decide), moreTrees_colon, htree, ok_bind]
      dsimp only
      rw [hmore]
      rfl

/-- A legible pattern is read back from what it is written as. -/
theorem readPattern_render {p : Pattern} (hp : p.Legible) : readPattern p.render.toList = .ok p := by
  have hfirst := hp p.first List.mem_cons_self
  have hrest : ∀ tree ∈ p.rest, tree.Legible := fun tree ht => hp tree (List.mem_cons_of_mem _ ht)
  -- a colon is written for each of the trees after the first
  have hlength : p.rest.length < p.render.toList.length + 1 := by
    have := length_le_joinWith (List.cons_ne_nil ' ' [':', ' ']) (p.trees.map PatternTree.render)
    rw [List.length_map, Pattern.trees, List.length_cons] at this
    rw [Pattern.render, String.toList_ofList, Pattern.trees]
    omega
  have hsteps : 3 * (renderRest p.rest).length + 3 ≤ 3 * p.render.toList.length + 3 := by
    rw [toList_render, List.length_append]
    omega
  have hconjunction : conjunction (3 * p.render.toList.length + 3) p.render.toList =
      .ok (p.first, skipBlanks (renderRest p.rest)) := by
    rw [toList_render]
    exact conjunction_render p.first hfirst (closes_renderRest p.rest) (Nat.le_refl _)
  rw [readPattern, hconjunction, ok_bind]
  dsimp only
  rw [moreTrees_render hrest hsteps hlength]
  rfl

/-- The text of a pattern is not blank. -/
theorem all_isBlank_render (p : Pattern) : p.render.toList.all isBlank = false := by
  obtain ⟨⟨d, cs⟩, rest⟩ := p
  rw [toList_render, PatternTree.render, List.append_assoc, description_render_append]
  cases d.negated <;> rfl

/-- A legible pattern is compiled from its text. -/
theorem compile_render_of_legible {p : Pattern} (hp : p.Legible) : Pattern.compile p.render = .ok p := by
  unfold Pattern.compile
  dsimp only
  rw [if_neg (by rw [all_isBlank_render]; decide), readPattern_render hp]

/-- The patterns that have a text are the legible ones. -/
theorem Pattern.legible_iff_exists_compile (p : Pattern) :
    p.Legible ↔ ∃ text, Pattern.compile text = .ok p :=
  ⟨fun hp => ⟨p.render, compile_render_of_legible hp⟩, fun ⟨_, h⟩ => compile_legible h⟩

/-- Two legible patterns with the same text are the same, since that text is read in one way. -/
theorem render_injective_of_legible {p q : Pattern} (hp : p.Legible) (hq : q.Legible)
    (h : q.render = p.render) : q = p := by
  have hread := compile_render_of_legible hq
  rw [h, compile_render_of_legible hp] at hread
  exact (Except.ok.inj hread).symm

/-- A pattern that has been compiled is compiled again from what it is written as, no other compiled
pattern is written as the same text, and what is compiled from that text is written as it again. -/
theorem Pattern.compile_render {text : String} {p : Pattern} (h : Pattern.compile text = .ok p) :
    Pattern.compile p.render = .ok p ∧
      (∀ {other : String} {q : Pattern}, Pattern.compile other = .ok q → q.render = p.render → q = p) ∧
      ∀ {q : Pattern}, Pattern.compile p.render = .ok q → q.render = p.render := by
  have hp : Pattern.compile p.render = .ok p := compile_render_of_legible (compile_legible h)
  refine ⟨hp, ?_, ?_⟩
  · intro other q hq hrender
    exact render_injective_of_legible (compile_legible h) (compile_legible hq) hrender
  · intro q hq
    rw [hp] at hq
    rw [Except.ok.inj hq]

end

/-- One number for both bounds, an exclamation mark after it, and hardly a blank. -/
def crowdedText : String := "{word:a}2!>>nn({}<{})"

/-- The pattern that the crowded text is compiled into. -/
def crowdedPattern : Pattern :=
  ⟨.node ⟨[⟨.word, .literal "a"⟩], false, none⟩
    [.link ⟨.down, .far (some ⟨2, some 2⟩), some (.name "nn"), true⟩
      (.node {} [.link ⟨.up, .direct, none, false⟩ (.node {} [])])], []⟩

example : crowdedPattern.render = "{word:a} !2,2>>nn ({} < {})" := by decide +kernel

/-- A result of which there is a value is that value. -/
theorem eq_ok_of_toOption {ε α : Type} {x : Except ε α} {a : α} (h : x.toOption = some a) :
    x = .ok a := by
  cases x with
  | error e => cases h
  | ok b => exact congrArg _ (Option.some.inj h)

/-- The text is written with both bounds and with blanks, and means the same. -/
theorem Pattern.compile_render_crowded :
    Pattern.compile crowdedText = .ok crowdedPattern ∧
      Pattern.compile crowdedPattern.render = .ok crowdedPattern ∧
      (∀ {other : String} {q : Pattern}, Pattern.compile other = .ok q →
        q.render = crowdedPattern.render → q = crowdedPattern) ∧
      ∀ {q : Pattern}, Pattern.compile crowdedPattern.render = .ok q →
        q.render = crowdedPattern.render := by
  have h : Pattern.compile crowdedText = .ok crowdedPattern :=
    eq_ok_of_toOption (by decide +kernel)
  exact ⟨h, Pattern.compile_render h⟩

end DependencyQuery
