import DependencyQuery.Proofs.Notation.Words
import DependencyQuery.Taxonomy.Basic
import Mathlib.Data.List.Chain
import Mathlib.Data.List.Nodup
import Mathlib.Data.List.Perm.Subperm
import Mathlib.Logic.Relation

namespace DependencyQuery.Taxonomy

/-!
# The way up from a label

Above a label stands its declared parent, or else what its last colon is cut off from.  The way up may shorten a
label, come back to a declared one and go round in a circle, but it meets finitely many labels only.

* `RightAbove` — one label stands right above another, `rightAbove_iff` — by declaration or by its colon;
* `IsTextual` — a taxonomy whose parents are texts, in which every label can be placed;
* `cuts`, `within` — what colons cut off a text, and all labels that can be met on the way up;
  `length_within` — there are no more of them than the way up is allowed steps;
* `Ascends` — what a walk up from a label finds, `exists_ancestorsFrom` — as it does if it has steps enough;
* `exists_ancestors` — so the labels above a label are listed to the last, each once and the nearest first;
* `IsPlain`, `acceptsText_eq_isKindOf` — filters that name a label;
* `ancestors_ofTexts` — whatever parents are declared, kinds of kinds are kinds, and every walk up ends.
-/

variable {t : Taxonomy} {label above : String}

/-! ### One step up -/

/-- One label stands right above another. -/
def RightAbove (t : Taxonomy) (label above : String) : Prop :=
  t.parentOf (.text label) = .ok (some (.text above))

/-- No more than one label is right above another. -/
theorem RightAbove.eq {other : String} (h : t.RightAbove label above) (h' : t.RightAbove label other) :
    above = other := by
  have hsame := h.symm.trans h'
  injection hsame with hsame
  injection hsame with hsame
  injection hsame

/-- What a label is a kind of by its last colon. -/
theorem beforeLastColon?_eq (s : List Char) :
    beforeLastColon? s = (Graph.splitAtLast ':' s).map Prod.fst := by
  induction s with
  | nil => rfl
  | cons c rest ih =>
    rw [beforeLastColon?, Graph.splitAtLast, ih]
    cases Graph.splitAtLast ':' rest with
    | some p => rfl
    | none =>
      by_cases hc : c = ':'
      · simp [hc]
      · simp [hc]

/-- What is before the last colon is followed by it and by a segment without one. -/
theorem beforeLastColon?_eq_some_iff {s before : List Char} :
    beforeLastColon? s = some before ↔ ∃ segment, s = before ++ ':' :: segment ∧ ':' ∉ segment := by
  rw [beforeLastColon?_eq, Option.map_eq_some_iff]
  constructor
  · rintro ⟨⟨first, segment⟩, hsplit, rfl⟩
    exact ⟨segment, Graph.splitAtLast_eq_some_iff.1 hsplit⟩
  · rintro ⟨segment, hsegment⟩
    exact ⟨(before, segment), Graph.splitAtLast_eq_some_iff.2 hsegment, rfl⟩

/-- A label stands right above another if it has been declared its parent, or if there is no such declaration and
the last colon of the other one cuts it off. -/
theorem rightAbove_iff :
    t.RightAbove label above ↔
      t.parents.lookup (.text label) = some (.text above) ∨
        t.parents.lookup (.text label) = none ∧
          ∃ segment, label.toList = above.toList ++ ':' :: segment ∧ ':' ∉ segment := by
  simp only [RightAbove, parentOf, Datum.key?]
  cases hlookup : t.parents.lookup (.text label) with
  -- right above a label without a parent stands what it has before its last colon
  | none =>
    simp only [reduceCtorEq, true_and, false_or]
    rw [← beforeLastColon?_eq_some_iff]
    cases hbefore : beforeLastColon? label.toList with
    | none => simp
    | some before =>
      simp only [Option.map_some, Except.ok.injEq, Option.some.injEq, Datum.text.injEq]
      constructor
      · rintro rfl
        exact String.toList_ofList.symm
      · rintro rfl
        exact String.ofList_toList
  -- right above a label with a parent stands the parent, if it is a text
  | some parent => cases parent <;> simp

/-! ### Taxonomies of texts -/

/-- A taxonomy whose declared parents are texts, or null where there is none. -/
def IsTextual (t : Taxonomy) : Prop :=
  ∀ key parent, t.parents.lookup key = some parent → parent = .null ∨ ∃ text, parent = .text text

/-- A flat taxonomy has texts only, since it declares nothing. -/
theorem isTextual_flat : flat.IsTextual := nofun

/-- Above a text there is another text, or nothing. -/
theorem parentOf_text (ht : t.IsTextual) (label : String) :
    t.parentOf (.text label) = .ok none ∨ ∃ above, t.RightAbove label above := by
  simp only [RightAbove, parentOf, Datum.key?]
  split
  · exact .inl rfl
  · next parent hnull hparent =>
    rcases ht _ _ hparent with rfl | ⟨above, rfl⟩
    · exact absurd rfl hnull
    · exact .inr ⟨above, rfl⟩
  · cases beforeLastColon? label.toList with
    | none => exact .inl rfl
    | some before => exact .inr ⟨String.ofList before, rfl⟩

/-! ### What can be met on the way up -/

/-- A text, and what is left of it where it is cut off at one of its colons. -/
def cuts : List Char → List (List Char)
  | [] => [[]]
  | c :: rest => (if c = ':' then [[]] else []) ++ (cuts rest).map (c :: ·)

/-- A text can be cut at each of its colons. -/
theorem length_cuts (s : List Char) : (cuts s).length = s.count ':' + 1 := by
  induction s with
  | nil => rfl
  | cons c rest ih =>
    rw [cuts, List.length_append, List.length_map, ih, List.count_cons]
    by_cases hc : c = ':'
    · simp [hc]
      omega
    · simp [hc]

/-- The cuts of a text are the text and what is before each of its colons. -/
theorem mem_cuts {s x : List Char} : x ∈ cuts s ↔ x = s ∨ x ++ [':'] <+: s := by
  induction s generalizing x with
  | nil => simp [cuts]
  | cons c rest ih =>
    rw [cuts, List.mem_append, List.mem_map]
    cases x with
    -- the empty label is a cut of whatever begins with a colon
    | nil =>
      by_cases hc : c = ':'
      · simp [hc]
      · simp [hc, List.cons_prefix_cons, Ne.symm hc]
    | cons d x =>
      -- the cut before the first character is empty, so that it is not this one
      have hfirst : d :: x ∉ (if c = ':' then [[]] else ([] : List (List Char))) := by
        split <;> simp
      simp only [hfirst, false_or, List.cons.injEq, List.cons_append, List.cons_prefix_cons]
      constructor
      · rintro ⟨y, hy, rfl, rfl⟩
        exact (ih.1 hy).imp (fun h => ⟨rfl, h⟩) fun h => ⟨rfl, h⟩
      · rintro (⟨rfl, h⟩ | ⟨rfl, h⟩)
        · exact ⟨x, ih.2 (.inl h), rfl, rfl⟩
        · exact ⟨x, ih.2 (.inr h), rfl, rfl⟩

/-- What is cut off at some colon is what the last colon cuts off, or is cut off from that. -/
theorem exists_mem_cuts {s x : List Char} (hx : x ∈ cuts s) (hne : x ≠ s) :
    ∃ before segment, s = before ++ ':' :: segment ∧ ':' ∉ segment ∧ x ∈ cuts before := by
  obtain ⟨rest, hrest⟩ := (mem_cuts.1 hx).resolve_left hne
  have hcolon : ':' ∈ s := by
    rw [← hrest]
    simp
  obtain ⟨⟨before, segment⟩, hsplit⟩ := Option.ne_none_iff_exists'.1 fun hnone =>
    Graph.splitAtLast_eq_none_iff.1 hnone hcolon
  obtain ⟨hs, hsegment⟩ := Graph.splitAtLast_eq_some_iff.1 hsplit
  refine ⟨before, segment, hs, hsegment, ?_⟩
  rw [hs, List.append_assoc, List.append_eq_append_iff] at hrest
  -- the last colon is the one that `x` is cut off at, or stands after it
  rcases hrest with ⟨middle, rfl, hmiddle⟩ | ⟨middle, rfl, hmiddle⟩
  · cases middle with
    | nil => exact mem_cuts.2 (.inl (List.append_nil x).symm)
    | cons c middle =>
      obtain ⟨rfl, -⟩ := List.cons.inj hmiddle
      exact mem_cuts.2 (.inr ⟨middle, List.append_assoc _ _ _⟩)
  · cases middle with
    | nil => exact mem_cuts.2 (.inl (List.append_nil before))
    | cons c middle =>
      obtain ⟨-, hmiddle⟩ := List.cons.inj hmiddle
      refine absurd ?_ hsegment
      rw [hmiddle]
      simp

/-- What is cut off from a cut has been cut off from the whole. -/
theorem mem_cuts_trans {s x y : List Char} (hx : x ∈ cuts s) (hy : y ∈ cuts x) : y ∈ cuts s := by
  rw [mem_cuts] at *
  rcases hx with rfl | hx
  · exact hy
  · rcases hy with rfl | hy
    · exact .inr hx
    · exact .inr (hy.trans ((List.prefix_append x _).trans hx))

/-- A label and what its colons cut off. -/
def cutsOf : Datum → List String
  | .text s => (cuts s.toList).map String.ofList
  | _ => []

/-- The cuts of a label are those of its text. -/
theorem mem_cutsOf_text {x s : String} : x ∈ cutsOf (.text s) ↔ x.toList ∈ cuts s.toList := by
  rw [cutsOf, List.mem_map]
  constructor
  · rintro ⟨y, hy, rfl⟩
    rwa [String.toList_ofList]
  · intro h
    exact ⟨x.toList, h, String.ofList_toList⟩

/-- All labels that can be met on the way up from a label. -/
def within (t : Taxonomy) (label : String) : List String :=
  (t.parents.map Prod.snd).flatMap cutsOf ++ cutsOf (.text label)

/-- The bound on the way up counts every label that can be met on it. -/
theorem length_within (t : Taxonomy) (label : String) : (t.within label).length ≤ t.reach (.text label) := by
  obtain ⟨parents⟩ := t
  -- a label has as many cuts as colons, and one more
  have hcolons : ∀ s : String, (cutsOf (.text s)).length = s.toList.count ':' + 1 := by
    intro s
    rw [cutsOf, List.length_map, length_cuts]
  induction parents with
  | nil => exact (hcolons label).le
  -- each parent adds its own cuts, and the reach counts them the same way
  | cons entry rest ih =>
    obtain ⟨key, parent⟩ := entry
    have hparent : (cutsOf parent).length ≤
        match parent with
        | .text s => s.toList.count ':' + 1
        | _ => 1 := by
      cases parent with
      | text s => exact (hcolons s).le
      | _ => exact Nat.zero_le _
    calc (within ⟨(key, parent) :: rest⟩ label).length
        = (cutsOf parent).length + (within ⟨rest⟩ label).length := by
          simp [within]
      _ ≤ reach ⟨(key, parent) :: rest⟩ (.text label) := Nat.add_le_add hparent ih

/-- A label is within reach of itself. -/
theorem self_mem_within (t : Taxonomy) (label : String) : label ∈ t.within label :=
  List.mem_append_right _ (mem_cutsOf_text.2 (mem_cuts.2 (.inl rfl)))

/-- The way up does not leave the labels that can be met on it. -/
theorem mem_within_of_rightAbove {x y : String} (hx : x ∈ t.within label) (h : t.RightAbove x y) :
    y ∈ t.within label := by
  -- a parent that has been declared is one of its own cuts
  rcases rightAbove_iff.1 h with hdeclared | ⟨-, segment, hcut, -⟩
  · obtain ⟨before, after, hparents, -⟩ := List.lookup_eq_some_iff.1 hdeclared
    refine List.mem_append_left _ (List.mem_flatMap.2 ⟨.text y, ?_, mem_cutsOf_text.2 (mem_cuts.2 (.inl rfl))⟩)
    rw [hparents]
    simp
  · -- a label cut at its last colon is a cut of whatever the label was a cut of
    have hy : y.toList ∈ cuts x.toList := by
      refine mem_cuts.2 (.inr ⟨segment, ?_⟩)
      rw [hcut, List.append_assoc]
      rfl
    have hkeep : ∀ d, x ∈ cutsOf d → y ∈ cutsOf d := by
      intro d hd
      cases d with
      | text s => exact mem_cutsOf_text.2 (mem_cuts_trans (mem_cutsOf_text.1 hd) hy)
      | _ => cases hd
    rw [within, List.mem_append, List.mem_flatMap] at hx ⊢
    exact hx.imp (fun ⟨d, hd, hxd⟩ => ⟨d, hd, hkeep d hxd⟩) (hkeep _)

/-! ### Walks up -/

/-- What a walk up from a label finds, if some labels have been seen: each label right above the one before, none
twice or seen before, and as many as there are. -/
structure Ascends (t : Taxonomy) (seen : List String) (label : String) (labels : List String) : Prop where
  chain : (label :: labels).IsChain t.RightAbove
  nodup : labels.Nodup
  fresh : ∀ x ∈ labels, x ∉ seen
  closed : ∀ x ∈ label :: labels, ∀ y, t.RightAbove x y → y ∈ seen ∨ y ∈ labels

/-- At a label with nothing new right above it, the walk is over. -/
theorem Ascends.nil {seen : List String} (h : ∀ y, t.RightAbove label y → y ∈ seen) :
    t.Ascends seen label [] := by
  refine ⟨.singleton label, List.nodup_nil, nofun, fun x hx y hxy => ?_⟩
  obtain rfl := List.mem_singleton.1 hx
  exact .inl (h y hxy)

/-- A walk goes on from the label right above. -/
theorem Ascends.cons {seen labels : List String} (habove : t.RightAbove label above) (hnew : above ∉ seen)
    (h : t.Ascends (above :: seen) above labels) : t.Ascends seen label (above :: labels) := by
  refine ⟨List.isChain_cons_cons.2 ⟨habove, h.chain⟩, ?_, ?_, ?_⟩
  · -- what is new was not passed before, and so occurs once
    refine List.nodup_cons.2 ⟨fun hmem => ?_, h.nodup⟩
    exact h.fresh above hmem List.mem_cons_self
  · intro x hx hseen
    rcases List.mem_cons.1 hx with rfl | hx
    · exact hnew hseen
    · exact h.fresh x hx (List.mem_cons_of_mem _ hseen)
  · -- a step from the first label leads to the second one, from any other one it stays within
    intro x hx y hxy
    rcases List.mem_cons.1 hx with rfl | hx
    · obtain rfl := habove.eq hxy
      exact .inr List.mem_cons_self
    · rcases h.closed x hx y hxy with hy | hy
      · rcases List.mem_cons.1 hy with rfl | hy
        · exact .inr List.mem_cons_self
        · exact .inl hy
      · exact .inr (List.mem_cons_of_mem _ hy)

/-- A walk up has steps enough if there are no more labels to be met than it has seen and has steps left for. -/
theorem exists_ancestorsFrom (ht : t.IsTextual) {start : String} {fuel : Nat} {seen : List String}
    (hnodup : seen.Nodup) (hwithin : seen ⊆ t.within start) (hlabel : label ∈ seen)
    (hfuel : (t.within start).length < seen.length + fuel) :
    ∃ labels : List String, t.ancestorsFrom fuel (seen.map .text) (t.parentOf (.text label)) =
        .ofList (labels.map .text) ∧ t.Ascends seen label labels := by
  induction fuel generalizing seen label with
  | zero =>
    -- all labels have been seen, and one more
    have hlength : seen.length ≤ (t.within start).length := (hnodup.subperm hwithin).length_le
    omega
  | succ fuel ih =>
    rcases parentOf_text ht label with hnone | ⟨above, habove⟩
    · refine ⟨[], by rw [hnone]; rfl, .nil fun y hy => ?_⟩
      rw [RightAbove, hnone] at hy
      cases hy
    · have hstep : t.parentOf (.text label) = .ok (some (.text above)) := habove
      rw [hstep]
      by_cases hseen : above ∈ seen
      · refine ⟨[], ?_, .nil fun y hy => habove.eq hy ▸ hseen⟩
        have hmem : Datum.Key.text above ∈ seen.map Datum.Key.text := List.mem_map_of_mem hseen
        show (if Datum.Key.text above ∈ seen.map Datum.Key.text then _ else _) = _
        rw [if_pos hmem]
        rfl
      · have hmem : Datum.Key.text above ∉ seen.map Datum.Key.text := by
          rw [List.mem_map]
          rintro ⟨x, hx, hxa⟩
          injection hxa with hxa
          exact hseen (hxa ▸ hx)
        have habove_mem : above ∈ t.within start := mem_within_of_rightAbove (hwithin hlabel) habove
        obtain ⟨labels, hlabels, hascends⟩ := ih (List.nodup_cons.2 ⟨hseen, hnodup⟩)
          (List.cons_subset.2 ⟨habove_mem, hwithin⟩) List.mem_cons_self
          (by rw [List.length_cons]; omega)
        refine ⟨above :: labels, ?_, .cons habove hseen hascends⟩
        show (if Datum.Key.text above ∈ seen.map Datum.Key.text then _ else _) = _
        rw [if_neg hmem]
        exact congrArg (Results.next _) (funext fun _ => hlabels)

/-- What a walk finds that has seen nothing but its beginning is all that stands above it. -/
theorem Ascends.mem_iff {labels : List String} (h : t.Ascends [label] label labels) :
    above ∈ label :: labels ↔ Relation.ReflTransGen t.RightAbove label above := by
  constructor
  · intro hmem
    rcases List.mem_cons.1 hmem with rfl | hmem
    · exact .refl
    · exact h.chain.cons_induction (Relation.ReflTransGen t.RightAbove label) labels
        (fun _ _ hstep hreach => hreach.tail hstep) .refl above hmem
  · intro hreach
    induction hreach with
    | refl => exact List.mem_cons_self
    | tail _ hstep ih =>
      rcases h.closed _ ih _ hstep with hseen | hmem
      · rw [List.mem_singleton.1 hseen]
        exact List.mem_cons_self
      · exact List.mem_cons_of_mem _ hmem

/-- The labels above a label are listed to the last, each once, and the nearest first. -/
theorem exists_ancestors (ht : t.IsTextual) (label : String) :
    ∃ labels : List String, t.ancestors (.text label) = .ofList (labels.map .text) ∧
      (label :: labels).IsChain t.RightAbove ∧ labels.Nodup ∧
      ∀ above, above ∈ labels ↔ above ≠ label ∧ Relation.TransGen t.RightAbove label above := by
  -- what can be passed is finite, and each label is passed once
  have hfuel : (t.within label).length < [label].length + (t.reach (.text label) + 1) := by
    have hlength := t.length_within label
    rw [List.length_singleton]
    omega
  -- the way begins at the label itself, which counts as passed
  obtain ⟨labels, hlabels, hascends⟩ := exists_ancestorsFrom ht (List.nodup_singleton label)
    (List.cons_subset.2 ⟨t.self_mem_within label, List.nil_subset _⟩) List.mem_cons_self hfuel
  refine ⟨labels, hlabels, hascends.chain, hascends.nodup, fun above => ?_⟩
  have hmem : above ∈ label :: labels ↔ Relation.ReflTransGen t.RightAbove label above := hascends.mem_iff
  rw [List.mem_cons, Relation.reflTransGen_iff_eq_or_transGen] at hmem
  constructor
  · intro habove
    have hne : above ≠ label := fun heq => hascends.fresh above habove (heq ▸ List.mem_cons_self)
    exact ⟨hne, (hmem.1 (.inr habove)).resolve_left hne⟩
  · rintro ⟨hne, hreach⟩
    exact (hmem.2 (.inr hreach)).resolve_left hne

/-! ### Kinds -/

/-- A name is looked for among texts. -/
theorem isAmong_ofList (name : String) (labels : List String) :
    isAmong name (.ofList (labels.map .text)) = .ok (decide (name ∈ labels)) := by
  induction labels with
  | nil => rfl
  | cons label rest ih =>
    rw [List.map_cons, Results.ofList, isAmong, ih]
    by_cases hname : label = name
    · simp [Datum.key?, hname]
    · simp [Datum.key?, hname, Ne.symm hname]

/-- A label is a kind of a name just when it is the name, or the name stands somewhere above it. -/
theorem exists_isKindOf (ht : t.IsTextual) (label name : String) :
    ∃ answer, t.isKindOf label name = .ok answer ∧
      (answer = true ↔ name = label ∨ Relation.TransGen t.RightAbove label name) := by
  obtain ⟨labels, hlabels, -, -, hmem⟩ := exists_ancestors ht label
  rw [isKindOf]
  split
  · next hname => exact ⟨true, rfl, by simp [hname]⟩
  · next hname =>
    rw [hlabels, isAmong_ofList]
    refine ⟨decide (name ∈ labels), rfl, ?_⟩
    rw [decide_eq_true_eq, hmem]
    simp [hname]

/-- A filter that names a label: it is not empty and no regular expression. -/
def IsPlain (filter : String) : Prop := filter ≠ "" ∧ isRegexFilter filter.toList = false

/-- A plain filter accepts a label that is a kind of it. -/
theorem acceptsText_eq_isKindOf [Text.CharacterNames] {filter : String} (h : IsPlain filter) (label : String) :
    t.acceptsText (some filter) (some label) = (t.isKindOf label filter).mapError .label := by
  have hempty : filter.isEmpty = false := by
    rw [String.isEmpty_eq_false_iff]
    exact h.1
  rw [acceptsText]
  simp only [hempty, h.2, Bool.false_eq_true, if_false]

/-- A plain filter accepts a label that is of its kind, and no other. -/
theorem exists_acceptsText [Text.CharacterNames] (ht : t.IsTextual) {filter : String} (h : IsPlain filter)
    (label : String) :
    ∃ answer, t.acceptsText (some filter) (some label) = .ok answer ∧
      (answer = true ↔ filter = label ∨ Relation.TransGen t.RightAbove label filter) := by
  obtain ⟨answer, hanswer, hiff⟩ := exists_isKindOf ht label filter
  exact ⟨answer, by rw [acceptsText_eq_isKindOf h, hanswer]; rfl, hiff⟩

/-- A plain filter accepts a label from which it is reached upwards. -/
theorem acceptsText_eq_true_iff [Text.CharacterNames] (ht : t.IsTextual) {filter : String} (h : IsPlain filter)
    (label : String) :
    t.acceptsText (some filter) (some label) = .ok true ↔
      Relation.ReflTransGen t.RightAbove label filter := by
  obtain ⟨answer, hanswer, hiff⟩ := exists_acceptsText ht h label
  rw [hanswer, Except.ok.injEq, hiff, Relation.reflTransGen_iff_eq_or_transGen]

/-! ### Without declared parents -/

/-- Where no parent is declared, a label stands above those that it begins, up to one of their colons. -/
theorem reflTransGen_flat_iff :
    Relation.ReflTransGen flat.RightAbove label above ↔
      above = label ∨ above.toList ++ [':'] <+: label.toList := by
  rw [← String.toList_inj, ← mem_cuts]
  constructor
  · -- each step cuts at one more colon
    intro hreach
    induction hreach with
    | refl => exact mem_cuts.2 (.inl rfl)
    | tail _ hstep ih =>
      obtain h | ⟨-, segment, hcut, -⟩ := rightAbove_iff.1 hstep
      · cases h
      · refine mem_cuts_trans ih (mem_cuts.2 (.inr ⟨segment, ?_⟩))
        rw [hcut, List.append_assoc]
        rfl
  · -- the way is as long as there are colons to be cut, so the induction is on the length
    intro hcut
    induction hlength : label.toList.length using Nat.strong_induction_on generalizing label with
    | _ length ih =>
      by_cases heq : above.toList = label.toList
      · rw [String.toList_inj.1 heq]
      · -- one step leads to a shorter label, from which the rest of the way goes on
        obtain ⟨before, segment, hlabel, hsegment, hbefore⟩ := exists_mem_cuts hcut heq
        have hstep : flat.RightAbove label (String.ofList before) :=
          rightAbove_iff.2 (.inr ⟨rfl, segment, by rwa [String.toList_ofList], hsegment⟩)
        have hshorter : before.length < length := by
          rw [← hlength, hlabel, List.length_append, List.length_cons]
          omega
        refine .head hstep (ih before.length hshorter ?_ ?_)
        · rwa [String.toList_ofList]
        · rw [String.toList_ofList]

/-! ### Any declared parents -/

/-- The taxonomy in which each of some labels has been declared a text for its parent. -/
def ofTexts (parents : List (String × String)) : Taxonomy :=
  ofParents (parents.map fun (label, parent) => (.text label, .text parent))

/-- A taxonomy that is made of texts has texts only. -/
theorem isTextual_ofTexts (parents : List (String × String)) : (ofTexts parents).IsTextual := by
  intro key parent hparent
  obtain ⟨before, after, hentries, -⟩ := List.lookup_eq_some_iff.1 hparent
  have hmem : (key, parent) ∈ (ofTexts parents).parents := by
    rw [hentries]
    simp
  simp only [ofTexts, ofParents, List.mem_filterMap, List.mem_map] at hmem
  obtain ⟨_, ⟨⟨label, text⟩, -, rfl⟩, hentry⟩ := hmem
  cases hentry
  exact .inr ⟨text, rfl⟩

/-- **Kinds of kinds are kinds, whatever parents are declared.**  The declared parents may lead round in a circle,
or back to a label that a colon has been cut off from.  Still the way up from every label comes to an end: it lists
the labels that can be reached by one or more steps up, all but the label itself, each once, and each right above
the one before.  A plain filter accepts a label just when it is the label or can be reached from it, and the answer
never fails; so acceptance is reflexive and transitive.  Where no parent is declared, a plain filter accepts itself
and whatever begins with it and a colon. -/
theorem ancestors_ofTexts [Text.CharacterNames] (parents : List (String × String)) :
    (∀ label, ∃ labels : List String, (ofTexts parents).ancestors (.text label) = .ofList (labels.map .text) ∧
      (label :: labels).IsChain (ofTexts parents).RightAbove ∧ labels.Nodup ∧
      ∀ above, above ∈ labels ↔
        above ≠ label ∧ Relation.TransGen (ofTexts parents).RightAbove label above) ∧
    (∀ filter label, IsPlain filter →
      ∃ answer, (ofTexts parents).acceptsText (some filter) (some label) = .ok answer ∧
        (answer = true ↔ filter = label ∨ Relation.TransGen (ofTexts parents).RightAbove label filter)) ∧
    (∀ label, IsPlain label → (ofTexts parents).acceptsText (some label) (some label) = .ok true) ∧
    (∀ upper middle lower, IsPlain upper → IsPlain middle →
      (ofTexts parents).acceptsText (some upper) (some middle) = .ok true →
      (ofTexts parents).acceptsText (some middle) (some lower) = .ok true →
      (ofTexts parents).acceptsText (some upper) (some lower) = .ok true) ∧
    ∀ filter label, IsPlain filter →
      ((ofTexts []).acceptsText (some filter) (some label) = .ok true ↔
        label = filter ∨ filter.toList ++ [':'] <+: label.toList) := by
  have ht := isTextual_ofTexts parents
  refine ⟨exists_ancestors ht, fun filter label h => exists_acceptsText ht h label, ?_, ?_, ?_⟩
  · intro label h
    rw [acceptsText_eq_true_iff ht h]
  · intro upper middle lower hupper hmiddle habove hbelow
    rw [acceptsText_eq_true_iff ht hupper] at habove ⊢
    rw [acceptsText_eq_true_iff ht hmiddle] at hbelow
    exact hbelow.trans habove
  · intro filter label h
    rw [acceptsText_eq_true_iff (isTextual_ofTexts []) h]
    exact reflTransGen_flat_iff.trans (or_congr_left eq_comm)

/-- Two labels that are each other's parents, of which one is what a colon cuts off from a third. -/
example :
    let t := ofTexts [("a", "b:c"), ("b", "a")]
    (t.ancestors (.text "a")).toExcept = .ok [.text "b:c", .text "b"] ∧
      (t.ancestors (.text "b:c")).toExcept = .ok [.text "b", .text "a"] :=
  ⟨rfl, rfl⟩

end DependencyQuery.Taxonomy
