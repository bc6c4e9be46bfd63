import DependencyQuery.Proofs.Search.Lists
import Mathlib.Algebra.Order.Group.Multiset
import Mathlib.Data.Multiset.Bind
import Mathlib.Tactic.Abel

namespace DependencyQuery

/-!
# Groups distribute over the rest of a pattern

What a pattern finds with a group in some place, it finds with one of the alternatives in that place.

* `Gap`, `PatternGap` — clauses, or a pattern, in which something is left out, at the top or further
  inside; `fill` puts clauses there, `negations` counts the negated links around the gap, and `isNested`
  tells whether it stands in an alternative of a group;
* `Distributes` — whether what is found with clauses in a gap is a part `beside` them and another one that
  a group adds up over its alternatives; the lemmas on it say that joins and unions keep it;
* `Gap.distributes`, `PatternGap.distributes` — this holds of every gap outside negated links;
* `Gap.clausesFits_fill_congr` — a gap may be filled with other clauses that fit in the same environments;
* `search_distributes` — so the results with a group are those with its alternatives, put together, and a
  negated link around a group is as good as one negated link for each alternative;
* `not_perm_results_nestedGroup` — inside another group, what is found beside the gap counts only once.
-/

/-! ### Gaps -/

section

variable [Text.CharacterNames]

/-- Clauses in which some are left out. -/
inductive Gap where
  /-- They are left out between others. -/
  | here (before after : List Clause)
  /-- They are left out in the clauses at the root of a link's target. -/
  | target (before : List Clause) (l : Link) (description : Description) (inside : Gap)
      (after : List Clause)
  /-- They are left out in an alternative of a group. -/
  | alternative (before : List Clause) (earlier : List (List Clause)) (inside : Gap)
      (later : List (List Clause)) (after : List Clause)

namespace Gap

/-- The clauses with others put into the gap. -/
def fill : Gap → List Clause → List Clause
  | here before after, clauses => before ++ (clauses ++ after)
  | target before l description inside after, clauses =>
    before ++ .link l (.node description (inside.fill clauses)) :: after
  | alternative before earlier inside later after, clauses =>
    before ++ .group (earlier ++ inside.fill clauses :: later) :: after

/-- The number of negated links around the gap. -/
def negations : Gap → Nat
  | here _ _ => 0
  | target _ l _ inside _ => (if l.negated then 1 else 0) + inside.negations
  | alternative _ _ inside _ _ => inside.negations

/-- No negated link is around a gap in a target if the link is none and none stands in between. -/
theorem negations_target_eq_zero {before after : List Clause} {l : Link} {description : Description}
    {inside : Gap} :
    (target before l description inside after).negations = 0 ↔
      l.negated = false ∧ inside.negations = 0 := by
  rw [negations]
  cases l.negated <;> simp

/-- Whether the gap stands in an alternative of a group. -/
def isNested : Gap → Bool
  | here _ _ => false
  | target _ _ _ inside _ => inside.isNested
  | alternative _ _ _ _ _ => true

end Gap

/-- A pattern in which clauses are left out, in one of its trees. -/
structure PatternGap where
  before : List PatternTree := []
  description : Description := {}
  inside : Gap
  after : List PatternTree := []

namespace PatternGap

/-- The tree in which the clauses are left out, with others in their place. -/
def tree (gap : PatternGap) (clauses : List Clause) : PatternTree :=
  .node gap.description (gap.inside.fill clauses)

/-- The pattern with clauses put into the gap. -/
def fill (gap : PatternGap) (clauses : List Clause) : Pattern :=
  match gap.before with
  | [] => ⟨gap.tree clauses, gap.after⟩
  | first :: more => ⟨first, more ++ gap.tree clauses :: gap.after⟩

/-- Filling the gap of a pattern changes the tree that it is in. -/
theorem trees_fill (gap : PatternGap) (clauses : List Clause) :
    (gap.fill clauses).trees = gap.before ++ gap.tree clauses :: gap.after := by
  unfold fill
  split
  · next h => rw [h]; rfl
  · next h => rw [h]; rfl

end PatternGap

/-! ### Distributing over alternatives -/

section Distributes

variable {α β ι : Type}

/-- What is found with clauses in a gap is a part that does not depend on them, and another one that a
group adds up over its alternatives. -/
def Distributes (found : List Clause → Multiset α) : Prop :=
  ∃ (beside : Multiset α) (through : List Clause → Multiset α),
    (∀ clauses, found clauses = beside + through clauses) ∧
      ∀ alternatives : List (List Clause),
        through [.group alternatives] = (alternatives : Multiset (List Clause)).bind through

namespace Distributes

/-- What does not depend on what the gap is filled with distributes. -/
theorem const (found : Multiset α) : Distributes fun _ => found :=
  ⟨found, fun _ => 0, fun _ => (add_zero found).symm, fun _ => (Multiset.bind_zero _).symm⟩

/-- One search after another. -/
theorem add {found more : List Clause → Multiset α} (hfound : Distributes found)
    (hmore : Distributes more) : Distributes fun clauses => found clauses + more clauses := by
  obtain ⟨beside, through, hsplit, hgroup⟩ := hfound
  obtain ⟨beside', through', hsplit', hgroup'⟩ := hmore
  refine ⟨beside + beside', fun clauses => through clauses + through' clauses, ?_, ?_⟩
  · intro clauses
    show found clauses + more clauses = _
    rw [hsplit, hsplit', add_add_add_comm]
  · intro alternatives
    show through [.group alternatives] + through' [.group alternatives] = _
    rw [hgroup, hgroup', Multiset.bind_add]

/-- A search for each of some items. -/
theorem bind (items : Multiset ι) {found : ι → List Clause → Multiset α}
    (h : ∀ i, Distributes (found i)) :
    Distributes fun clauses => items.bind fun i => found i clauses := by
  choose beside through hsplit hgroup using h
  refine ⟨items.bind beside, fun clauses => items.bind fun i => through i clauses, ?_, ?_⟩
  · intro clauses
    simp only [hsplit, Multiset.bind_add]
  · intro alternatives
    simp only [hgroup]
    exact Multiset.bind_bind items (alternatives : Multiset (List Clause))

/-- A search that goes on from whatever has been found. -/
theorem bind_right {found : List Clause → Multiset α} (h : Distributes found)
    (next : α → Multiset β) : Distributes fun clauses => (found clauses).bind next := by
  obtain ⟨beside, through, hsplit, hgroup⟩ := h
  refine ⟨beside.bind next, fun clauses => (through clauses).bind next, ?_, ?_⟩
  · intro clauses
    show (found clauses).bind next = _
    rw [hsplit, Multiset.add_bind]
  · intro alternatives
    show (through [.group alternatives]).bind next = _
    rw [hgroup, Multiset.bind_assoc]

/-- What is found with a group, and for each alternative once more what is found beside it, is what is
found with the alternatives, and once what is found beside them. -/
theorem group_add {found : List Clause → Multiset α} (h : Distributes found)
    (alternatives : List (List Clause)) :
    found [.group alternatives] +
        (alternatives : Multiset (List Clause)).bind (fun _ => found [.group []]) =
      (alternatives : Multiset (List Clause)).bind found + found [.group []] := by
  obtain ⟨beside, through, hsplit, hgroup⟩ := h
  have hbeside : found [.group []] = beside := by
    rw [hsplit, hgroup, Multiset.coe_nil, Multiset.zero_bind, add_zero]
  have hfound : found = fun clauses => beside + through clauses := funext hsplit
  rw [hbeside, hsplit, hgroup, hfound, Multiset.bind_add]
  abel

/-- Nothing is found with a group just when nothing is found with any alternative, if there are some, or
if nothing is found beside them. -/
theorem group_eq_zero {found : List Clause → Multiset α} (h : Distributes found)
    {alternatives : List (List Clause)} (hsome : alternatives ≠ [] ∨ found [.group []] = 0) :
    found [.group alternatives] = 0 ↔ ∀ clauses ∈ alternatives, found clauses = 0 := by
  obtain ⟨beside, through, hsplit, hgroup⟩ := h
  have hbeside : found [.group []] = beside := by
    rw [hsplit, hgroup, Multiset.coe_nil, Multiset.zero_bind, add_zero]
  -- a bind is empty as soon as every alternative goes through to nothing
  have hbind : (alternatives : Multiset (List Clause)).bind through = 0 ↔
      ∀ clauses ∈ alternatives, through clauses = 0 := by
    simp only [Multiset.eq_zero_iff_forall_notMem, Multiset.mem_bind, Multiset.mem_coe, not_exists,
      not_and]
    exact ⟨fun hnone clauses hmem a ha => hnone a clauses hmem ha,
      fun hnone a clauses hmem => hnone clauses hmem a⟩
  rw [hsplit, hgroup, add_eq_zero_iff_of_nonneg (Multiset.zero_le _) (Multiset.zero_le _), hbind]
  constructor
  · rintro ⟨hzero, hall⟩ clauses hmem
    rw [hsplit, hzero, hall clauses hmem, add_zero]
  · intro hall
    -- beside the group something may be found without any alternative, so one of them is needed
    have hparts : ∀ clauses ∈ alternatives, beside = 0 ∧ through clauses = 0 := by
      intro clauses hmem
      have hzero := hall clauses hmem
      rwa [hsplit, add_eq_zero_iff_of_nonneg (Multiset.zero_le _) (Multiset.zero_le _)] at hzero
    refine ⟨?_, fun clauses hmem => (hparts clauses hmem).2⟩
    rcases hsome with hne | hnone
    · obtain ⟨clauses, hmem⟩ := List.exists_mem_of_ne_nil alternatives hne
      exact (hparts clauses hmem).1
    · rw [← hbeside, hnone]

end Distributes

end Distributes

/-! ### Gaps distribute -/

variable {g : Graph} {accepts : LabelFilter → Option String → Bool}

/-- Clauses fit one after another. -/
theorem clausesFits_append (clauses more : List Clause) (env : Environment) (n : Node) :
    clausesFits g accepts (clauses ++ more) env n =
      (clausesFits g accepts clauses env n).flatMap fun env => clausesFits g accepts more env n := by
  induction clauses generalizing env with
  | nil => rw [List.nil_append, clausesFits, List.flatMap_singleton]
  | cons clause rest ih =>
    rw [List.cons_append, clausesFits, clausesFits, List.flatMap_assoc]
    exact List.flatMap_congr fun env _ => ih env

/-- A clause on its own fits like the clause. -/
theorem clausesFits_singleton (clause : Clause) (env : Environment) (n : Node) :
    clausesFits g accepts [clause] env n = clauseFits g accepts clause env n := by
  simp only [clausesFits, List.flatMap_singleton']

/-- Alternatives fit one beside another. -/
theorem alternativesFits_eq_flatMap (alternatives : List (List Clause)) (env : Environment) (n : Node) :
    alternativesFits g accepts alternatives env n =
      alternatives.flatMap fun clauses => clausesFits g accepts clauses env n := by
  induction alternatives with
  | nil => rw [alternativesFits, List.flatMap_nil]
  | cons clauses rest ih => rw [alternativesFits, ih, List.flatMap_cons]

/-- Trees fit one after another. -/
theorem treesFits_append (trees more : List PatternTree) (env : Environment) (n : Node) :
    treesFits g accepts (trees ++ more) env n =
      (treesFits g accepts trees env n).flatMap fun env => treesFits g accepts more env n := by
  induction trees generalizing env with
  | nil => rw [List.nil_append, treesFits, List.flatMap_singleton]
  | cons tree rest ih =>
    rw [List.cons_append, treesFits, treesFits, List.flatMap_assoc]
    exact List.flatMap_congr fun env _ => ih env

/-- Clauses before and after a gap do not keep it from distributing. -/
theorem Distributes.between {n : Node} (filled : List Clause → List Clause)
    (h : ∀ env, Distributes fun clauses =>
      (clausesFits g accepts (filled clauses) env n : Multiset Environment))
    (before after : List Clause) (env : Environment) :
    Distributes fun clauses =>
      (clausesFits g accepts (before ++ (filled clauses ++ after)) env n : Multiset Environment) := by
  simp only [clausesFits_append, ← Multiset.coe_bind]
  exact .bind _ fun env => (h env).bind_right _

/-- Neither does a description above the gap. -/
theorem Distributes.under {filled : List Clause → List Clause} {n : Node}
    (h : ∀ env, Distributes fun clauses =>
      (clausesFits g accepts (filled clauses) env n : Multiset Environment))
    (description : Description) (env : Environment) :
    Distributes fun clauses =>
      (treeFits g accepts (.node description (filled clauses)) env n : Multiset Environment) := by
  simp only [treeFits]
  by_cases hsat : description.isSatisfied g env n = true
  · simp only [if_pos hsat]
    exact h _
  · simp only [if_neg hsat]
    exact .const _

/-- A gap outside negated links distributes. -/
theorem Gap.distributes (gap : Gap) (hgap : gap.negations = 0) (env : Environment) (n : Node) :
    Distributes fun clauses =>
      (clausesFits g accepts (gap.fill clauses) env n : Multiset Environment) := by
  induction gap generalizing env n with
  | here before after =>
    refine Distributes.between id (fun env => ⟨0, _, fun _ => (zero_add _).symm, ?_⟩) before after env
    intro alternatives
    show (clausesFits g accepts [.group alternatives] env n : Multiset Environment) = _
    rw [clausesFits_singleton, clauseFits, alternativesFits_eq_flatMap, ← Multiset.coe_bind]
    rfl
  | target before l description inside after ih =>
    obtain ⟨hpositive, hinside⟩ := negations_target_eq_zero.1 hgap
    refine Distributes.between (fun clauses => [.link l (.node description (inside.fill clauses))])
      (fun env => ?_) before after env
    simp only [clausesFits_singleton, clauseFits, hpositive, Bool.false_eq_true, if_false,
      ← Multiset.coe_bind]
    exact .bind _ fun m => .under (fun env => ih hinside env m) description env
  | alternative before earlier inside later after ih =>
    refine Distributes.between (fun clauses => [.group (earlier ++ inside.fill clauses :: later)])
      (fun env => ?_) before after env
    -- what the other alternatives give does not depend on what is put into the gap
    simp only [clausesFits_singleton, clauseFits, alternativesFits_eq_flatMap, List.flatMap_append,
      List.flatMap_cons, ← Multiset.coe_add]
    exact .add (.const _) (.add (ih hgap env n) (.const _))

/-- In a gap outside groups, nothing is found with a group without alternatives. -/
theorem Gap.clausesFits_fill_nil {gap : Gap} (hgap : gap.negations = 0)
    (houtside : gap.isNested = false) (env : Environment) (n : Node) :
    clausesFits g accepts (gap.fill [.group []]) env n = [] := by
  induction gap generalizing env n with
  | here before after =>
    simp [fill, clausesFits_append, clausesFits, clauseFits, alternativesFits]
  | target before l description inside after ih =>
    obtain ⟨hpositive, hinside⟩ := negations_target_eq_zero.1 hgap
    simp [fill, clausesFits_append, clausesFits, clauseFits, hpositive, treeFits,
      ih hinside houtside]
  | alternative before earlier inside later after ih => cases houtside

/-- A gap may be filled with other clauses that fit in the same environments, in negated links as well. -/
theorem Gap.clausesFits_fill_congr {clauses others : List Clause}
    (h : ∀ env n, clausesFits g accepts clauses env n = clausesFits g accepts others env n) (gap : Gap)
    (env : Environment) (n : Node) :
    clausesFits g accepts (gap.fill clauses) env n = clausesFits g accepts (gap.fill others) env n := by
  -- by induction on the gap, which is filled from the inside out
  induction gap generalizing env n with
  | here before after => simp only [fill, clausesFits_append, h]
  | target before l description inside after ih =>
    have htarget : ∀ env, treeFits g accepts (.node description (inside.fill clauses)) env =
        treeFits g accepts (.node description (inside.fill others)) env := by
      intro env
      funext m
      simp only [treeFits, ih]
    have hlink : ∀ env, clauseFits g accepts (.link l (.node description (inside.fill clauses))) env n =
        clauseFits g accepts (.link l (.node description (inside.fill others))) env n := by
      intro env
      rw [clauseFits, clauseFits, htarget]
    simp only [fill, clausesFits_append, clausesFits, hlink]
  | alternative before earlier inside later after ih =>
    simp only [fill, clausesFits_append, clausesFits, clauseFits, alternativesFits_eq_flatMap,
      List.flatMap_append, List.flatMap_cons, ih]

namespace PatternGap

/-- The results of a filled pattern: what the trees before the gap fit, then the tree with the gap, then those
after it. -/
theorem findings_fill (gap : PatternGap) (clauses : List Clause) (base : Environment) :
    findings g accepts (gap.fill clauses) base =
      g.nodes.flatMap fun root =>
        ((treesFits g accepts gap.before base root).flatMap fun env =>
          (treeFits g accepts (gap.tree clauses) env root).flatMap fun env =>
            treesFits g accepts gap.after env root).map fun env => ⟨root, env⟩ := by
  simp only [findings, trees_fill, treesFits_append, treesFits]

/-- A gap outside negated links distributes over the results of a pattern. -/
theorem distributes {gap : PatternGap} (hgap : gap.inside.negations = 0) (base : Environment) :
    Distributes fun clauses => (findings g accepts (gap.fill clauses) base : Multiset Finding) := by
  simp only [findings_fill, List.map_flatMap, ← Multiset.coe_bind]
  refine .bind _ fun root => .bind _ fun env => ?_
  exact (Distributes.under (fun env => gap.inside.distributes hgap env root) gap.description
    env).bind_right _

/-- Nothing is found where a gap outside of all groups and negated links is filled with no alternatives. -/
theorem findings_fill_nil {gap : PatternGap} (hgap : gap.inside.negations = 0)
    (houtside : gap.inside.isNested = false) (base : Environment) :
    findings g accepts (gap.fill [.group []]) base = [] := by
  simp [findings_fill, tree, treeFits, Gap.clausesFits_fill_nil hgap houtside]

/-- Clauses that fit alike may fill a gap for each other. -/
theorem findings_fill_congr {clauses others : List Clause}
    (h : ∀ env n, clausesFits g accepts clauses env n = clausesFits g accepts others env n)
    (gap : PatternGap) (base : Environment) :
    findings g accepts (gap.fill clauses) base = findings g accepts (gap.fill others) base := by
  simp only [findings_fill, tree, treeFits, Gap.clausesFits_fill_congr h]

end PatternGap

/-! ### Negated links around a group -/

/-- Several negated links with the same relation let an environment pass if none of their targets fits. -/
theorem clausesFits_negated {l : Link} (hl : l.negated = true) (targets : List PatternTree)
    (env : Environment) (n : Node) :
    clausesFits g accepts (targets.map (.link l)) env n =
      if ∀ target ∈ targets, ∀ m ∈ g.witnessList accepts l n, treeFits g accepts target env m = []
      then [env] else [] := by
  induction targets with
  | nil => simp [clausesFits]
  | cons target rest ih =>
    have hany : ((g.witnessList accepts l n).any fun m =>
          !(treeFits g accepts target env m).isEmpty) = true ↔
        ¬ ∀ m ∈ g.witnessList accepts l n, treeFits g accepts target env m = [] := by
      simp
    rw [List.map_cons, clausesFits, clauseFits, if_pos hl]
    by_cases h : ∀ m ∈ g.witnessList accepts l n, treeFits g accepts target env m = []
    · rw [if_neg (fun hfits => hany.1 hfits h), List.flatMap_singleton, ih]
      exact if_congr (List.forall_mem_cons.trans (and_iff_right h)).symm rfl rfl
    · rw [if_pos (hany.2 h), List.flatMap_nil, if_neg (fun hall => h (hall target List.mem_cons_self))]

/-- A negated link around a group is as good as one negated link for each alternative. -/
theorem clausesFits_negated_group {l : Link} (hl : l.negated = true) (description : Description)
    {gap : Gap} (hgap : gap.negations = 0) {alternatives : List (List Clause)}
    (hsome : alternatives ≠ [] ∨ gap.isNested = false) (env : Environment) (n : Node) :
    clausesFits g accepts [.link l (.node description (gap.fill [.group alternatives]))] env n =
      clausesFits g accepts
        (alternatives.map fun clauses => .link l (.node description (gap.fill clauses))) env n := by
  have hgroup : ∀ m, treeFits g accepts (.node description (gap.fill [.group alternatives])) env m = [] ↔
      ∀ clauses ∈ alternatives,
        treeFits g accepts (.node description (gap.fill clauses)) env m = [] := by
    -- a negated link asks only whether anything is found, and that no alternative does is what all of them say
    intro m
    have hdistributes : Distributes fun clauses =>
        (treeFits g accepts (.node description (gap.fill clauses)) env m : Multiset Environment) :=
      .under (fun env => gap.distributes hgap env m) description env
    have hbeside : alternatives ≠ [] ∨
        (treeFits g accepts (.node description (gap.fill [.group []])) env m : Multiset Environment) =
          0 := by
      refine hsome.imp_right fun houtside => ?_
      simp [treeFits, Gap.clausesFits_fill_nil hgap houtside]
    simpa using hdistributes.group_eq_zero hbeside
  have htargets : (alternatives.map fun clauses => Clause.link l (.node description (gap.fill clauses))) =
      (alternatives.map fun clauses => .node description (gap.fill clauses)).map (.link l) := by
    rw [List.map_map]
    rfl
  show clausesFits g accepts ([.node description (gap.fill [.group alternatives])].map (.link l)) env n = _
  rw [htargets, clausesFits_negated hl, clausesFits_negated hl]
  refine if_congr ?_ rfl rfl
  simp only [List.forall_mem_singleton, List.forall_mem_map, hgroup]
  exact ⟨fun h clauses hclauses m hm => h m hm clauses hclauses,
    fun h m hm clauses hclauses => h clauses hclauses m hm⟩

/-! ### Patterns with a group -/

/-- **Groups distribute.**  Take a group in a gap of a pattern that no negated link is around.

* If the gap stands in no alternative of another group, the results of the pattern are those of the
  patterns in which the group gives way to the clauses of one of its alternatives, put together.
* Wherever it stands, the same holds once what the pattern finds beside the gap, as it does with a group
  without alternatives there, is added once for each alternative on the one hand, and once on the other.

If the group stands inside the target of a negated link, with no negated link in between, the link is as
good as one negated link for each alternative, one after the other: the results are the same, in the same
order.  This needs an alternative, or that the group stands in no alternative of another one. -/
theorem search_distributes (g : Graph) (accepts : LabelFilter → Option String → Bool)
    (base : Environment) :
    ∃ results : Pattern → List Finding,
      (∀ p, search p g (.total accepts) base = .ofList (results p)) ∧
        (∀ (gap : PatternGap) (alternatives : List (List Clause)), gap.inside.negations = 0 →
          (gap.inside.isNested = false →
            (results (gap.fill [.group alternatives])).Perm
              (alternatives.flatMap fun clauses => results (gap.fill clauses))) ∧
          (results (gap.fill [.group alternatives]) ++
              alternatives.flatMap fun _ => results (gap.fill [.group []])).Perm
            ((alternatives.flatMap fun clauses => results (gap.fill clauses)) ++
              results (gap.fill [.group []]))) ∧
        ∀ (outer : PatternGap) (l : Link) (description : Description) (inner : Gap)
          (alternatives : List (List Clause)), l.negated = true → inner.negations = 0 →
          (alternatives ≠ [] ∨ inner.isNested = false) →
          results (outer.fill [.link l (.node description (inner.fill [.group alternatives]))]) =
            results (outer.fill (alternatives.map fun clauses =>
              .link l (.node description (inner.fill clauses)))) := by
  refine ⟨fun p => findings g accepts p base, fun p => search_total p base, ?_, ?_⟩
  · -- without a nested group nothing is found beside the group, so what both sides count beside it vanishes
    intro gap alternatives hgap
    have hdistributes : Distributes fun clauses =>
        (findings g accepts (gap.fill clauses) base : Multiset Finding) :=
      PatternGap.distributes hgap base
    have hgroup := hdistributes.group_add alternatives
    simp only [Multiset.coe_bind, Multiset.coe_add, Multiset.coe_eq_coe] at hgroup
    refine ⟨fun houtside => ?_, hgroup⟩
    have hbeside : (alternatives.flatMap fun _ => findings g accepts (gap.fill [.group []]) base) = [] :=
      List.flatMap_eq_nil_iff.2 fun _ _ => PatternGap.findings_fill_nil hgap houtside base
    rwa [hbeside, PatternGap.findings_fill_nil hgap houtside, List.append_nil, List.append_nil]
      at hgroup
  · -- under a negation nothing is counted, so the results themselves are equal
    intro outer l description inner alternatives hl hinner hsome
    exact PatternGap.findings_fill_congr
      (clausesFits_negated_group hl description hinner hsome) outer base

end

/-- A link down over one edge with a label, to a node with a name. -/
def labelled (label : String) (negated : Bool := false) : Clause :=
  .link ⟨.down, .direct, some (.name label), negated⟩ (.node { name := some label } [])

/-- A gap in one of two alternatives, the other of which is a link `a`. -/
def besideLink : Gap := .alternative [] [[labelled "a"]] (.here [] []) [] []

/-- A gap below a link, with a negated link before it. -/
def belowLink : Gap :=
  .target [] ⟨.down, .far none, none, false⟩ { name := some "y" } (.here [labelled "c" true] []) []

/-- Three words in a row, with edges `a` and `b` between them. -/
def labelledChain : Graph :=
  ((Graph.empty "word" true).addEdge (.index 1) (.index 2) (some "a")).addEdge (.index 2) (.index 3)
    (some "b")

/-- The labels that a filter names. -/
def sameLabel (filter : LabelFilter) (label : Option String) : Bool := label = some filter.text

/-- Two alternatives, in a gap below a link, in a gap beside another alternative, and inside a negated
link around the latter. -/
theorem search_distributes_labelledChain :
    belowLink.negations = 0 ∧ belowLink.isNested = false ∧ besideLink.negations = 0 ∧
      ∃ results : Pattern → List Finding,
        (∀ p, search p labelledChain (.total sameLabel) [("y", .index 2)] = .ofList (results p)) ∧
          (results (PatternGap.fill ⟨[], {}, belowLink, []⟩
              [.group [[labelled "a"], [labelled "b"]]])).Perm
            ([[labelled "a"], [labelled "b"]].flatMap fun clauses =>
              results (PatternGap.fill ⟨[], {}, belowLink, []⟩ clauses)) ∧
          (results (PatternGap.fill ⟨[], {}, besideLink, []⟩ [.group [[labelled "a"], [labelled "b"]]]) ++
              [[labelled "a"], [labelled "b"]].flatMap fun _ =>
                results (PatternGap.fill ⟨[], {}, besideLink, []⟩ [.group []])).Perm
            (([[labelled "a"], [labelled "b"]].flatMap fun clauses =>
              results (PatternGap.fill ⟨[], {}, besideLink, []⟩ clauses)) ++
                results (PatternGap.fill ⟨[], {}, besideLink, []⟩ [.group []])) ∧
          results (PatternGap.fill ⟨[], {}, belowLink, []⟩ [.link ⟨.up, .direct, none, true⟩
              (.node {} (besideLink.fill [.group [[labelled "a"], [labelled "b"]]]))]) =
            results (PatternGap.fill ⟨[], {}, belowLink, []⟩ [
              .link ⟨.up, .direct, none, true⟩ (.node {} (besideLink.fill [labelled "a"])),
              .link ⟨.up, .direct, none, true⟩ (.node {} (besideLink.fill [labelled "b"]))]) := by
  have hbelow : belowLink.negations = 0 := by decide
  have houtside : belowLink.isNested = false := by decide
  have hbeside : besideLink.negations = 0 := by decide
  -- one instance for each part: a gap below a link, a group beside another, and a negated link
  obtain ⟨results, hresults, hgroups, hnegated⟩ :=
    search_distributes labelledChain sameLabel [("y", .index 2)]
  refine ⟨hbelow, houtside, hbeside, results, hresults, ?_, ?_, ?_⟩
  · exact (hgroups ⟨[], {}, belowLink, []⟩ _ hbelow).1 houtside
  · exact (hgroups ⟨[], {}, besideLink, []⟩ _ hbeside).2
  · exact hnegated ⟨[], {}, belowLink, []⟩ _ {} besideLink _ rfl hbeside (.inl (by simp))

/-- What a pattern finds beside a nested group counts once, but once for each alternative when these are
taken one by one: with a link `a` beside a group of links `b` and `c`, an edge `a` gives one result, and
two results when the group gives way to its alternatives. -/
theorem not_perm_results_nestedGroup :
    besideLink.negations = 0 ∧
      ∃ found withFirst withSecond : List Finding,
        search (PatternGap.fill ⟨[], {}, besideLink, []⟩ [.group [[labelled "b"], [labelled "c"]]])
            ((Graph.empty "word" true).addEdge (.index 1) (.index 2) (some "a")) (.total sameLabel) [] =
          .ofList found ∧
        search (PatternGap.fill ⟨[], {}, besideLink, []⟩ [labelled "b"])
            ((Graph.empty "word" true).addEdge (.index 1) (.index 2) (some "a")) (.total sameLabel) [] =
          .ofList withFirst ∧
        search (PatternGap.fill ⟨[], {}, besideLink, []⟩ [labelled "c"])
            ((Graph.empty "word" true).addEdge (.index 1) (.index 2) (some "a")) (.total sameLabel) [] =
          .ofList withSecond ∧
        ¬ found.Perm ([withFirst, withSecond].flatMap id) := by
  refine ⟨by decide, [⟨.index 1, [("a", .index 2)]⟩], [⟨.index 1, [("a", .index 2)]⟩],
    [⟨.index 1, [("a", .index 2)]⟩], rfl, rfl, rfl, ?_⟩
  intro h
  exact absurd h.length_eq (by decide)

end DependencyQuery
