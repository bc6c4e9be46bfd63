import DependencyQuery.Proofs.Pattern.Layouts
import DependencyQuery.Proofs.Pattern.RoundTrip

namespace DependencyQuery.Pattern

open Steps (bind_eq_ok ok_bind)
open Text (isBlank skipBlanks)

/-!
# The texts that are compiled

A text is compiled into a pattern just if it is a layout of that pattern.

* `conjunction_sound`, `clauses_sound`, `alternatives_sound`, `link_sound` — what the grammar reads is
  laid out as it says, up to blanks before and after;
* `Ends` — what may follow a tree, and what does follow the trees of a pattern;
* `conjunction_complete`, `clauses_complete`, `alternatives_complete` — what is laid out is read, given
  three steps for each character;
* `Pattern.compile_eq_ok_iff_layout` — both, for whole patterns.
-/

variable [Text.CharacterNames] {s t u rest : List Char}

/-! ### What is read is laid out -/

mutual

/-- Whatever is read as a tree is one, with blanks around it. -/
theorem conjunction_sound : (fuel : Nat) → {s rest : List Char} → {tree : PatternTree} →
    conjunction fuel s = .ok (tree, rest) → ∃ t u, Blanks s t ∧ TreeLayout tree t u ∧ Blanks u rest
  | 0, _, _, _, h => by cases h
  | fuel + 1, s, rest, tree, h => by
    rw [conjunction] at h
    obtain ⟨⟨d, after⟩, hd, h⟩ := bind_eq_ok h
    obtain ⟨⟨cs, after'⟩, hcs, h⟩ := bind_eq_ok h
    cases h
    obtain ⟨t, ht, hd⟩ := readDescription_sound hd
    obtain ⟨u, hcs, hu⟩ := clauses_sound fuel hcs
    exact ⟨t, u, ht, .node hd hcs, hu⟩

/-- Whatever is read as clauses is that, with blanks after it. -/
theorem clauses_sound : (fuel : Nat) → {s rest : List Char} → {cs : List Clause} →
    clauses fuel s = .ok (cs, rest) → ∃ u, ClausesLayout cs s u ∧ Blanks u rest
  | 0, s, _, _, h => by
    cases h
    exact ⟨s, .nil, .none⟩
  | fuel + 1, s, rest, cs, h => by
    have hblanks := blanks_skipBlanks s
    rw [clauses] at h
    split at h
    · next bracket heq =>
      obtain ⟨⟨group, after⟩, hgroup, h⟩ := bind_eq_ok h
      obtain ⟨⟨more, after'⟩, hmore, h⟩ := bind_eq_ok h
      cases h
      rw [heq] at hblanks
      obtain ⟨t, ht, hgroup⟩ := alternatives_sound fuel hgroup
      obtain ⟨u, hmore, hu⟩ := clauses_sound fuel hmore
      exact ⟨u, .cons hblanks (.group ht hgroup) hmore, hu⟩
    · next c tail hbracket heq =>
      rw [heq] at hblanks
      -- whatever begins no relation ends the clauses, and is left to those who called for them
      split at h
      · obtain ⟨⟨clause, after⟩, hclause, h⟩ := bind_eq_ok h
        obtain ⟨⟨more, after'⟩, hmore, h⟩ := bind_eq_ok h
        cases h
        obtain ⟨u, hmore, hu⟩ := clauses_sound fuel hmore
        exact ⟨u, .cons hblanks (link_sound fuel hclause) hmore, hu⟩
      · cases h
        exact ⟨s, .nil, hblanks⟩
    · next heq =>
      cases h
      rw [heq] at hblanks
      exact ⟨s, .nil, hblanks⟩

/-- Whatever is read as alternatives is that, with blanks before it. -/
theorem alternatives_sound : (fuel : Nat) → {bracket s rest : List Char} →
    {as : List (List Clause)} → alternatives fuel bracket s = .ok (as, rest) →
    ∃ t, Blanks s t ∧ AlternativesLayout as t rest
  | 0, _, _, _, _, h => by cases h
  | fuel + 1, bracket, s, rest, as, h => by
    rw [alternatives] at h
    obtain ⟨⟨cs, after⟩, hcs, h⟩ := bind_eq_ok h
    obtain ⟨u, hcs, hu⟩ := clauses_sound fuel hcs
    dsimp only at h
    split at h
    · -- no clause stands before the bar or the bracket, which the reader refuses
      cases h
    · next hempty =>
      cases hcs with
      | nil => exact absurd rfl hempty
      | cons blanks first more =>
        split at h
        · -- what ends the clauses is a bar, and the other alternatives follow it
          obtain ⟨⟨others, after'⟩, hothers, h⟩ := bind_eq_ok h
          cases h
          obtain ⟨w, hw, hothers⟩ := alternatives_sound fuel hothers
          exact ⟨_, blanks, .cons first more hu hw hothers⟩
        · -- it is the closing bracket
          cases h
          exact ⟨_, blanks, .last first more hu⟩
        · cases h
        · cases h

/-- Whatever is read as a relation and its target is that. -/
theorem link_sound : (fuel : Nat) → {s rest : List Char} → {c : Clause} →
    link fuel s = .ok (c, rest) → ClauseLayout c s rest
  | 0, _, _, _, h => by cases h
  | fuel + 1, s, rest, c, h => by
    rw [link] at h
    obtain ⟨⟨l, after⟩, hl, h⟩ := bind_eq_ok h
    obtain ⟨⟨tree, after'⟩, htree, h⟩ := bind_eq_ok h
    cases h
    exact target_sound fuel (readRelation_sound hl) (blanks_skipBlanks after) htree

/-- Whatever is read as a target is one, so that with the relation before it there is a clause. -/
theorem target_sound : (fuel : Nat) → {s t u rest : List Char} → {l : Link} → {tree : PatternTree} →
    LinkLayout l s t → Blanks t u → target fuel u = .ok (tree, rest) →
    ClauseLayout (.link l tree) s rest
  | 0, _, _, _, _, _, _, _, _, h => by cases h
  | fuel + 1, s, t, u, rest, l, tree, hl, ht, h => by
    unfold target at h
    split at h
    · -- a parenthesis, with a pattern tree inside
      obtain ⟨⟨inner, after⟩, hinner, h⟩ := bind_eq_ok h
      dsimp only at h
      split at h
      · cases h
      · obtain ⟨closed, hclosed, h⟩ := bind_eq_ok h
        cases h
        obtain ⟨v, w, hv, hinner, hw⟩ := conjunction_sound fuel hinner
        rw [expect_eq_ok_iff.1 hclosed] at hw
        exact .parenthesized hl ht ((blanks_skipBlanks _).trans hv) hinner hw
    · -- no parenthesis, and so a description alone
      split at h
      · obtain ⟨⟨d, after⟩, hd, h⟩ := bind_eq_ok h
        cases h
        obtain ⟨v, hv, hd⟩ := readDescription_sound hd
        exact .bare hl (ht.trans hv) hd
      · cases h
    · cases h

end

/-! ### What is left -/

mutual

/-- A tree takes up some of the text. -/
theorem TreeLayout.shorter : (tree : PatternTree) → {s rest : List Char} → TreeLayout tree s rest →
    Shorter rest s
  | .node d cs, _, _, h => by
    cases h with
    | node description clauses => exact .suffix_trans (ClausesLayout.suffix cs clauses) description.shorter

/-- Clauses take up a front part of the text. -/
theorem ClausesLayout.suffix : (cs : List Clause) → {s rest : List Char} → ClausesLayout cs s rest →
    rest <:+ s
  | [], s, _, h => by
    cases h with
    | nil => exact List.suffix_refl s
  | c :: cs, _, _, h => by
    cases h with
    | cons blanks first more =>
      have hfirst := (ClauseLayout.shorter c first).suffix
      exact ((ClausesLayout.suffix cs more).trans hfirst).trans blanks.suffix

/-- A clause takes up some of the text. -/
theorem ClauseLayout.shorter : (c : Clause) → {s rest : List Char} → ClauseLayout c s rest →
    Shorter rest s
  | .link _ tree, _, _, h => by
    cases h with
    | bare relation blanks target =>
      exact .suffix_trans (target.shorter.suffix.trans blanks.suffix) relation.shorter
    | parenthesized relation blanks afterOpening target beforeClosing =>
      have hinside := (TreeLayout.shorter tree target).suffix.trans afterOpening.suffix
      have hclosing := (List.suffix_cons _ _).trans (beforeClosing.suffix.trans hinside)
      exact .suffix_trans ((hclosing.trans (List.suffix_cons _ _)).trans blanks.suffix) relation.shorter
  | .group as, _, _, h => by
    cases h with
    | group blanks alternatives =>
      exact .cons ((AlternativesLayout.suffix as alternatives).trans blanks.suffix)

/-- Alternatives take up a front part of the text, up to the closing bracket. -/
theorem AlternativesLayout.suffix : (as : List (List Clause)) → {s rest : List Char} →
    AlternativesLayout as s rest → rest <:+ s
  | [], _, _, h => by cases h
  | [] :: _, _, _, h => by cases h
  | (c :: cs) :: as, _, _, h => by
    cases h with
    | last first more blanks =>
      have hfirst := (ClausesLayout.suffix cs more).trans (ClauseLayout.shorter c first).suffix
      exact (List.suffix_cons _ _).trans (blanks.suffix.trans hfirst)
    | cons first more beforeBar afterBar alternatives =>
      have hfirst := (ClausesLayout.suffix cs more).trans (ClauseLayout.shorter c first).suffix
      have hbar := (List.suffix_cons _ _).trans (beforeBar.suffix.trans hfirst)
      exact (AlternativesLayout.suffix as alternatives).trans (afterBar.suffix.trans hbar)

end

/-! ### What follows -/

/-- Blanks before a tree are passed over. -/
theorem Blanks.conjunction_eq {fuel : Nat} (h : Blanks s t) (hfuel : 0 < fuel) :
    conjunction fuel s = conjunction fuel t := by
  rw [← conjunction_skipBlanks hfuel s, h.skipBlanks_eq, conjunction_skipBlanks hfuel t]

/-- Blanks before clauses are passed over. -/
theorem Blanks.clauses_eq {fuel : Nat} (h : Blanks s t) (hfuel : 0 < fuel) :
    clauses fuel s = clauses fuel t := by
  rw [← clauses_skipBlanks hfuel s, h.skipBlanks_eq, clauses_skipBlanks hfuel t]

/-- A clause does not begin like a name. -/
theorem ClauseLayout.exists_cons {c : Clause} (h : ClauseLayout c s rest) :
    ∃ d tail, s = d :: tail ∧ d ≠ '=' := by
  have hrelation : ∀ {l : Link} {rest : List Char}, LinkLayout l s rest →
      ∃ d tail, s = d :: tail ∧ d ≠ '=' := by
    intro l rest relation
    obtain ⟨d, tail, rfl, hd⟩ := relation.exists_cons
    refine ⟨d, tail, rfl, ?_⟩
    rintro rfl
    exact absurd hd (by decide)
  cases h with
  | bare relation _ _ => exact hrelation relation
  | parenthesized relation _ _ _ _ => exact hrelation relation
  | group _ _ => exact ⟨'[', _, rfl, by decide⟩

/-- What may follow a tree: blanks, and then nothing or what the tree stands before or in. -/
def Ends (rest : List Char) : Prop := ∀ c ∈ (skipBlanks rest).head?, c ∈ [')', ']', '|', ':']

namespace Ends

omit [Text.CharacterNames] in
/-- Blanks before a character that nothing goes on with do not matter. -/
theorem of_blanks {c : Char} (h : Blanks s (c :: t)) (hblank : isBlank c = false)
    (hc : c ∈ [')', ']', '|', ':']) : Ends s := by
  rw [Ends, h.skipBlanks_cons_eq hblank]
  exact forall_head?_cons hc t

omit [Text.CharacterNames] in
/-- No clause begins with what ends a tree. -/
theorem noClause (h : Ends rest) :
    ∀ c ∈ (skipBlanks rest).head?, c ≠ '[' ∧ startsRelation c = false := by
  intro c hc
  have hmem := h c hc
  simp only [List.mem_cons, List.not_mem_nil, or_false] at hmem
  rcases hmem with rfl | rfl | rfl | rfl <;> decide

/-- No name is announced by what ends a tree, or by clauses before it. -/
theorem equals_notMem {cs : List Clause} (h : Ends rest) (hcs : ClausesLayout cs s rest) :
    '=' ∉ s.head? := by
  intro hmem
  obtain ⟨tail, rfl⟩ := List.head?_eq_some_iff.1 hmem
  -- an equals sign neither ends a tree nor begins a clause, and is no blank
  cases hcs with
  | nil =>
    have hends := h '=' (by rw [skipBlanks_cons (by decide)]; rfl)
    exact absurd hends (by decide)
  | cons blanks first _ =>
    obtain ⟨d, tail', rfl, hd⟩ := first.exists_cons
    rcases blanks.head? '=' rfl with hblank | rfl
    · exact absurd hblank (by decide)
    · exact hd rfl

end Ends

/-- Where clauses end there are no more of them. -/
theorem clauses_ends {fuel : Nat} (hfuel : 0 < fuel) (hrest : Ends rest) :
    clauses fuel rest = .ok ([], skipBlanks rest) := by
  cases fuel with
  | zero => cases hfuel
  | succ fuel =>
    rw [clauses]
    split
    · next heq => exact ((hrest.noClause '[' (by rw [heq]; rfl)).1 rfl).elim
    · next c after _ heq =>
      have := (hrest.noClause c (by rw [heq]; rfl)).2
      rw [if_neg (by rw [this]; decide), heq]
    · next heq => rw [heq]

/-! ### What is laid out is read -/

-- Alternatives call for clauses and those for a relation before anything more is read, so that three
-- steps for each character are enough.

omit [Text.CharacterNames] in
/-- Blanks lead from a relation to its target. -/
theorem beforeTarget_of_blanks {c : Char} (h : Blanks s (c :: t)) (hc : c = '(' ∨ c = '{' ∨ c = '!') :
    BeforeTarget s := by
  intro d hd
  rcases h.head? d hd with hblank | rfl
  · exact .inl hblank
  · exact .inr hc

/-- A target that begins like a description is one. -/
theorem target_announced {fuel : Nat} {c : Char} (hc : c = '{' ∨ c = '!') (s : List Char) :
    target (fuel + 1) (c :: s) = (do
      let (description, rest) ← readDescription (c :: s)
      return (.node description [], rest)) := by
  rcases hc with rfl | rfl <;> rfl

/-- A description is read as a target. -/
theorem target_of_layout {fuel : Nat} {d : Description} (h : DescriptionLayout d s rest)
    (hrest : '=' ∉ rest.head?) : target (fuel + 1) s = .ok (.node d [], rest) := by
  have hread := readDescription_complete h hrest
  obtain ⟨c, tail, rfl, hc⟩ := h.exists_cons
  rw [target_announced hc, hread, ok_bind]
  rfl

/-- A relation and its target are read, if the target is where the relation ends. -/
theorem link_of_target {fuel : Nat} {l : Link} {tree : PatternTree} (hl : LinkLayout l s t)
    (ht : BeforeTarget t) (htarget : target fuel (skipBlanks t) = .ok (tree, rest)) :
    link (fuel + 1) s = .ok (.link l tree, rest) := by
  rw [link, readRelation_complete hl ht, ok_bind]
  dsimp only
  rw [htarget, ok_bind]
  rfl

/-- A clause that is read as a relation is read at the front of clauses. -/
theorem clauses_of_link {fuel : Nat} {l : Link} {c : Clause} (hl : LinkLayout l s t)
    (hlink : link fuel s = .ok (c, u)) :
    clauses (fuel + 1) s = (do
      let (more, rest) ← clauses fuel u
      return (c :: more, rest)) := by
  obtain ⟨d, tail, rfl, hd⟩ := hl.exists_cons
  have hbracket : d ≠ '[' := by
    rintro rfl
    exact absurd hd (by decide)
  rw [clauses_of_announced (isBlank_of_startsRelation hd) hbracket hd, hlink, ok_bind]

mutual

/-- A tree is read where it is laid out. -/
theorem conjunction_complete : (tree : PatternTree) → {fuel : Nat} → {s rest : List Char} →
    TreeLayout tree s rest → Ends rest → 3 * s.length + 3 ≤ fuel →
    conjunction fuel s = .ok (tree, skipBlanks rest)
  | .node _ _, 0, _, _, _, _, hfuel => by cases hfuel
  | .node d cs, fuel + 1, s, rest, h, hrest, hfuel => by
    cases h with
    | node description clauses =>
      have hlength := description.shorter.length_lt
      rw [conjunction, readDescription_complete description (hrest.equals_notMem clauses), ok_bind]
      dsimp only
      rw [clauses_complete cs clauses hrest (by omega), ok_bind]
      rfl

/-- Clauses are read where they are laid out. -/
theorem clauses_complete : (cs : List Clause) → {fuel : Nat} → {s rest : List Char} →
    ClausesLayout cs s rest → Ends rest → 3 * s.length + 1 ≤ fuel →
    clauses fuel s = .ok (cs, skipBlanks rest)
  | [], fuel, s, rest, h, hrest, hfuel => by
    cases h with
    | nil => exact clauses_ends (Nat.zero_lt_of_lt hfuel) hrest
  | _ :: _, 0, _, _, _, _, hfuel => by cases hfuel
  | c :: cs, fuel + 1, s, rest, h, hrest, hfuel => by
    cases h with
    | cons blanks first more =>
      have hlength := first.shorter.length_lt
      have hblanks := blanks.suffix.length_le
      have hmore : clauses fuel _ = .ok (cs, skipBlanks rest) :=
        clauses_complete cs more hrest (by omega)
      rw [blanks.clauses_eq (Nat.succ_pos fuel),
        clauses_of_clause c first (hrest.equals_notMem more) (by omega), hmore, ok_bind]
      rfl

/-- A clause is read where it is laid out at the front of clauses. -/
theorem clauses_of_clause : (c : Clause) → {fuel : Nat} → {s rest : List Char} →
    ClauseLayout c s rest → '=' ∉ rest.head? → 3 * s.length ≤ fuel →
    clauses (fuel + 1) s = (do
      let (more, rest) ← clauses fuel rest
      return (c :: more, rest))
  -- a link is at least one character long, which takes three steps
  | .link l tree, 0, s, rest, h, _, hfuel => by
    have hlength := h.shorter.length_lt
    omega
  | .link l tree, 1, s, rest, h, _, hfuel => by
    have hlength := h.shorter.length_lt
    omega
  | .link l tree, fuel + 2, s, rest, h, hrest, hfuel => by
    cases h with
    | bare relation blanks target =>
      refine clauses_of_link relation (link_of_target relation ?_ ?_)
      · obtain ⟨c, tail, rfl, hc⟩ := target.exists_cons
        exact beforeTarget_of_blanks blanks (.inr hc)
      · have hread : Pattern.target (fuel + 1) _ = .ok (.node _ [], rest) := target_of_layout target hrest
        obtain ⟨c, tail, rfl, hc⟩ := target.exists_cons
        rw [blanks.skipBlanks_cons_eq (by rcases hc with rfl | rfl <;> decide)]
        exact hread
    -- the parenthesis is one character, which pays for the readers on the way to the tree inside
    | parenthesized relation blanks afterOpening target beforeClosing =>
      have hrelation := relation.shorter.length_lt
      have hblanks := blanks.suffix.length_le
      have hopening := afterOpening.suffix.length_le
      refine clauses_of_link relation (link_of_target relation (beforeTarget_of_blanks blanks (.inl rfl)) ?_)
      rw [blanks.skipBlanks_cons_eq (by decide)]
      apply target_of_parenthesis
      rw [List.length_cons] at hblanks
      have hpos : 0 < fuel := by omega
      rw [conjunction_skipBlanks hpos, afterOpening.conjunction_eq hpos,
        conjunction_complete tree target (.of_blanks beforeClosing (by decide) (by decide)) (by omega),
        beforeClosing.skipBlanks_cons_eq (by decide)]
  -- the alternatives are read by the induction on them, and the clauses go on behind the bracket
  | .group as, fuel, s, rest, h, _, hfuel => by
    cases h with
    | group blanks alternatives =>
      have hblanks := blanks.suffix.length_le
      rw [List.length_cons] at hfuel
      rw [clauses_of_bracket, alternatives_complete as alternatives blanks (by omega), ok_bind]

/-- Alternatives are read where they are laid out. -/
theorem alternatives_complete : (as : List (List Clause)) → {fuel : Nat} →
    {bracket s t rest : List Char} → AlternativesLayout as t rest → Blanks s t →
    3 * t.length + 2 ≤ fuel → alternatives fuel bracket s = .ok (as, rest)
  | [], _, _, _, _, _, h, _, _ => by cases h
  | [] :: _, _, _, _, _, _, h, _, _ => by cases h
  | (_ :: _) :: _, 0, _, _, _, _, _, _, hfuel => by cases hfuel
  | (c :: cs) :: as, fuel + 1, bracket, s, t, rest, h, hs, hfuel => by
    have hpos : 0 < fuel := by omega
    cases h with
    | last first more blanks =>
      have hclauses : clauses fuel t = .ok (c :: cs, skipBlanks _) :=
        clauses_complete (c :: cs) (.cons .none first more)
          (.of_blanks blanks (by decide) (by decide)) (by omega)
      rw [alternatives, hs.clauses_eq hpos, hclauses, ok_bind, blanks.skipBlanks_cons_eq (by decide)]
      rfl
    | @cons _ _ _ _ _ _ v w _ first more beforeBar afterBar others =>
      have hclauses : clauses fuel t = .ok (c :: cs, skipBlanks _) :=
        clauses_complete (c :: cs) (.cons .none first more)
          (.of_blanks beforeBar (by decide) (by decide)) (by omega)
      have hfirst := first.shorter.length_lt
      have hmore := more.suffix.length_le
      have hbefore := beforeBar.suffix.length_le
      have hafter := afterBar.suffix.length_le
      rw [List.length_cons] at hbefore
      have hothers : alternatives fuel bracket v = .ok (as, rest) :=
        alternatives_complete as others afterBar (by omega)
      rw [alternatives, hs.clauses_eq hpos, hclauses, ok_bind, beforeBar.skipBlanks_cons_eq (by decide)]
      -- what stands before the bar decides which branch of the reader goes on
      show (do
        let (more, rest) ← alternatives fuel bracket v
        return ((c :: cs) :: more, rest)) = _
      rw [hothers]
      rfl

end

/-! ### Whole patterns -/

/-- Blanks before further trees belong to their layout. -/
theorem TreesLayout.of_blanks {trees : List PatternTree} (h : TreesLayout trees t) (hs : Blanks s t) :
    TreesLayout trees s := by
  cases h with
  | nil blanks => exact .nil (hs.trans blanks)
  | cons beforeColon afterColon first more => exact .cons (hs.trans beforeColon) afterColon first more

/-- Clauses end where further trees begin, or where the text does. -/
theorem TreesLayout.ends {trees : List PatternTree} (h : TreesLayout trees s) : Ends s := by
  cases h with
  | nil blanks =>
    rw [Ends, blanks.skipBlanks_eq]
    exact nofun
  | cons beforeColon _ _ _ => exact .of_blanks beforeColon (by decide) (by decide)

/-- Further trees that are read are laid out. -/
theorem moreTrees_sound {steps fuel : Nat} {trees : List PatternTree} (hfuel : s.length < fuel)
    (h : moreTrees steps fuel s = .ok trees) : TreesLayout trees s := by
  induction fuel generalizing s trees with
  | zero => cases hfuel
  | succ fuel ih =>
    unfold moreTrees at h
    split at h
    · obtain ⟨⟨tree, after⟩, htree, h⟩ := bind_eq_ok h
      obtain ⟨more, hmore, h⟩ := bind_eq_ok h
      cases h
      obtain ⟨t, u, ht, htree, hu⟩ := conjunction_sound steps htree
      -- the colon has been taken off, so that less fuel is enough for what follows the tree
      have hlength : after.length < fuel := by
        have h₁ := ht.suffix.length_le
        have h₂ := htree.shorter.length_lt
        have h₃ := hu.suffix.length_le
        rw [List.length_cons] at hfuel
        omega
      exact .cons .none ht htree ((ih hlength hmore).of_blanks hu)
    · cases h
      exact .nil .none
    · cases h

/-- Further trees are read where they are laid out. -/
theorem moreTrees_complete {steps fuel : Nat} {trees : List PatternTree} (h : TreesLayout trees s)
    (hsteps : 3 * s.length + 3 ≤ steps) (hfuel : s.length < fuel) :
    moreTrees steps fuel (skipBlanks s) = .ok trees := by
  induction fuel generalizing s trees with
  | zero => cases hfuel
  | succ fuel ih =>
    cases h with
    | nil blanks =>
      rw [blanks.skipBlanks_eq]
      rfl
    | @cons tree trees _ t u v beforeColon afterColon first more =>
      have hcolon := beforeColon.suffix.length_le
      have hafter := afterColon.suffix.length_le
      have hfirst := first.shorter.length_lt
      rw [List.length_cons] at hcolon
      have htree : conjunction steps t = .ok (tree, skipBlanks v) := by
        rw [afterColon.conjunction_eq (by omega)]
        exact conjunction_complete tree first more.ends (by omega)
      rw [beforeColon.skipBlanks_cons_eq (by decide), moreTrees_colon, htree, ok_bind]
      dsimp only
      rw [ih more (by omega) (by omega)]
      rfl

/-- A text is read as a pattern just if it is laid out as one. -/
theorem readPattern_eq_ok_iff {p : Pattern} : readPattern s = .ok p ↔ PatternLayout p s := by
  constructor
  · intro h
    unfold readPattern at h
    obtain ⟨⟨first, after⟩, hfirst, h⟩ := bind_eq_ok h
    obtain ⟨trees, htrees, h⟩ := bind_eq_ok h
    cases h
    obtain ⟨t, u, ht, hfirst, hu⟩ := conjunction_sound _ hfirst
    -- the first tree is not empty, and one step per character that is left is enough
    have hlength : after.length < s.length + 1 := by
      have h₁ := ht.suffix.length_le
      have h₂ := hfirst.shorter.length_lt
      have h₃ := hu.suffix.length_le
      omega
    exact .pattern ht hfirst ((moreTrees_sound hlength htrees).of_blanks hu)
  · intro h
    cases h with
    | @pattern tree trees _ t u blanks first more =>
      have hblanks := blanks.suffix.length_le
      have hfirst := first.shorter.length_lt
      have htree : conjunction (3 * s.length + 3) s = .ok (tree, skipBlanks u) := by
        rw [blanks.conjunction_eq (by omega)]
        exact conjunction_complete tree first more.ends (by omega)
      rw [readPattern, htree, ok_bind]
      dsimp only
      rw [moreTrees_complete more (by omega) (by omega)]
      rfl

/-- A layout of a pattern is not blank. -/
theorem PatternLayout.all_isBlank {p : Pattern} (h : PatternLayout p s) : s.all isBlank = false := by
  cases h with
  | pattern blanks first _ =>
    cases first with
    | node description _ =>
      -- the first description begins with what is no blank
      obtain ⟨c, tail, rfl, hc⟩ := description.exists_cons
      rw [List.all_eq_false]
      refine ⟨c, blanks.suffix.subset List.mem_cons_self, ?_⟩
      rcases hc with rfl | rfl <;> decide

/-- A text is compiled into a pattern just if it is a layout of that pattern. -/
theorem compile_eq_ok_iff_layout (text : String) (p : Pattern) :
    compile text = .ok p ↔ PatternLayout p text.toList := by
  rw [← readPattern_eq_ok_iff]
  constructor
  · intro h
    unfold compile at h
    dsimp only at h
    split at h
    · cases h
    · split at h
      · next q hq =>
        cases h
        exact hq
      · cases h
      · cases h
  · intro h
    have hblank := (readPattern_eq_ok_iff.1 h).all_isBlank
    unfold compile
    dsimp only
    rw [if_neg (by rw [hblank]; decide), h]

end DependencyQuery.Pattern
