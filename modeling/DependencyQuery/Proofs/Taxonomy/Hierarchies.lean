import DependencyQuery.Proofs.Steps
import DependencyQuery.Proofs.Taxonomy.Ascent
import Mathlib.Data.List.Forall2

namespace DependencyQuery.Taxonomy

/-!
# Taxonomies from listings

A hierarchy lists labels, each with the labels that are kinds of it.  Its entries are declared one after the other,
but what counts is only which label is listed as a kind of which.

* `isTextual_ofHierarchy` — if the labels that list others are texts, every label can be placed;
* `isDeclared_ofHierarchy` — all that is listed is declared, `IsDisputed` — unless a label is listed as a kind of two
  others;
* `Listing` — labels with their kinds, `Listing.Lists` — what is listed, `Listing.pairs` — in which order;
* `Listing.Disputed` — whether a label is listed as a kind of two others;
* `Listing.RightAbove` — the label above a label: the one that it is listed for, else what its last colon cuts off;
* `Declares` — a taxonomy in which just what is listed has been declared;
* `declare_step`, `declare_run` — declarations go on as long as nothing is disputed;
* `ofHierarchy_cases` — so a listing makes up such a taxonomy, or has a conflict;
* `Listing.Rearranges` — the same kinds in another order, or more or less often, `acceptsText_congr` — which makes
  no difference;
* `ofHierarchy_listing` — the outcome for a listing tells no more and no less than what it lists.
-/

/-! ### Hierarchies of any data -/

/-- A label that is a text, or null. -/
def IsTextLabel (label : Datum) : Prop := label = .null ∨ ∃ text, label = .text text

/-- Nothing is listed under what counts as empty. -/
theorem childrenOf_eq_nil {d : Datum} (h : d.isEmptyish = true) : childrenOf d = .ok [] := by
  unfold childrenOf
  rw [if_pos h]

section Declaring

variable {parents new : List (Datum.Key × Datum)} {parent child : Datum}

/-- What a declaration does: it adds a label, or finds it declared already. -/
theorem declareParent_eq_ok (h : declareParent parent parents child = .ok new) :
    ∃ key, child.key? = some key ∧
      ((parents.lookup key = none ∧ new = parents ++ [(key, parent)]) ∨
        ∃ above, parents.lookup key = some above ∧ above.key? = parent.key? ∧ new = parents) := by
  unfold declareParent at h
  split at h
  · cases h
  · next key hkey =>
    refine ⟨key, hkey, ?_⟩
    split at h
    · next hnone => exact .inl ⟨hnone, (Except.ok.inj h).symm⟩
    · next above habove =>
      split at h
      · next hsame => exact .inr ⟨above, habove, hsame, (Except.ok.inj h).symm⟩
      · cases h

/-- What a declaration can fail on: what is no label, or is declared a kind of another. -/
theorem declareParent_eq_error {fault : HierarchyFault} (h : declareParent parent parents child = .error fault) :
    (child.key? = none ∧ fault = .notALabel) ∨ ∃ above, fault = .conflict child above parent := by
  unfold declareParent at h
  split at h
  · next hkey => exact .inl ⟨hkey, (Except.error.inj h).symm⟩
  · split at h
    · cases h
    · next above _ =>
      split at h
      · cases h
      · exact .inr ⟨above, (Except.error.inj h).symm⟩

/-- Declaring a text for a parent keeps a taxonomy one of texts. -/
theorem isTextual_declareParent (hparent : IsTextLabel parent) (ht : IsTextual ⟨parents⟩)
    (h : declareParent parent parents child = .ok new) : IsTextual ⟨new⟩ := by
  obtain ⟨key, -, ⟨-, rfl⟩ | ⟨_, -, -, rfl⟩⟩ := declareParent_eq_ok h
  · intro other above habove
    rw [List.lookup_append, Option.or_eq_some_iff] at habove
    rcases habove with habove | ⟨-, habove⟩
    · exact ht other above habove
    · rw [List.lookup_cons] at habove
      split at habove
      · cases habove
        exact hparent
      · cases habove
  · exact ht

/-- A label has been declared a kind of another. -/
def IsDeclared (parents : List (Datum.Key × Datum)) (label child : Datum) : Prop :=
  ∃ key above, child.key? = some key ∧ parents.lookup key = some above ∧ above.key? = label.key?

/-- A parent that has been declared is. -/
theorem isDeclared_declareParent (h : declareParent parent parents child = .ok new) :
    IsDeclared new parent child := by
  obtain ⟨key, hkey, ⟨hnone, rfl⟩ | ⟨above, habove, hsame, rfl⟩⟩ := declareParent_eq_ok h
  · exact ⟨key, parent, hkey, by simp [List.lookup_append, hnone], rfl⟩
  · exact ⟨key, above, hkey, habove, hsame⟩

/-- What has been declared stays so. -/
theorem IsDeclared.declareParent {label other : Datum} (hdeclared : IsDeclared parents label child)
    (h : declareParent parent parents other = .ok new) : IsDeclared new label child := by
  obtain ⟨_, -, ⟨-, rfl⟩ | ⟨_, -, -, rfl⟩⟩ := declareParent_eq_ok h
  · obtain ⟨key, above, hkey, habove, hlabel⟩ := hdeclared
    exact ⟨key, above, hkey, by rw [List.lookup_append, habove]; rfl, hlabel⟩
  · exact hdeclared

end Declaring

/-- Where the labels that list others are texts, the taxonomy is one of texts, whatever they list. -/
theorem isTextual_ofHierarchy {d : Datum} {t : Taxonomy}
    (hlabels : ∀ entries, d = .map entries → ∀ entry ∈ entries, entry.2.isEmptyish = false → IsTextLabel entry.1)
    (h : ofHierarchy d = .ok t) : t.IsTextual := by
  unfold ofHierarchy at h
  split at h
  · -- an empty hierarchy is the flat taxonomy
    cases h
    exact isTextual_flat
  · cases d with
    | map entries =>
      -- an entry that lists something stands under a text, so what it declares as a parent is a text
      obtain ⟨parents, hparents, h⟩ := Steps.bind_eq_ok h
      cases h
      refine Steps.foldlM_invariant (P := fun parents => IsTextual ⟨parents⟩) ?_ isTextual_flat hparents
      intro entry hentry before after hbefore hafter
      obtain ⟨children, hchildren, hafter⟩ := Steps.bind_eq_ok hafter
      refine Steps.foldlM_invariant (P := fun parents => IsTextual ⟨parents⟩) ?_ hbefore hafter
      intro child hchild
      refine isTextual_declareParent (hlabels entries rfl entry hentry ?_)
      rw [Bool.eq_false_iff]
      -- an entry with an empty listing has no children
      intro hempty
      rw [childrenOf_eq_nil hempty, Except.ok.injEq] at hchildren
      rw [← hchildren] at hchild
      cases hchild
    | _ => cases h

/-- All that a hierarchy lists is declared, if it makes up a taxonomy. -/
theorem isDeclared_ofHierarchy {entries : List (Datum × Datum)} {t : Taxonomy}
    (h : ofHierarchy (.map entries) = .ok t) :
    ∀ entry ∈ entries, ∃ children, childrenOf entry.2 = .ok children ∧
      ∀ child ∈ children, IsDeclared t.parents entry.1 child := by
  cases entries with
  | nil => exact List.forall_mem_nil _
  | cons first rest =>
    rw [ofHierarchy, if_neg (by exact Bool.false_ne_true)] at h
    -- the entries are gone through in order, each with the children that it lists
    obtain ⟨parents, hparents, h⟩ := Steps.bind_eq_ok h
    cases h
    refine Steps.foldlM_established (Q := fun entry parents => ∃ children, childrenOf entry.2 = .ok children ∧
      ∀ child ∈ children, IsDeclared parents entry.1 child) ?_ ?_ hparents
    · -- an entry declares all that it lists
      intro entry _ before after hafter
      obtain ⟨children, hchildren, hafter⟩ := Steps.bind_eq_ok hafter
      refine ⟨children, hchildren, ?_⟩
      exact Steps.foldlM_established (Q := fun child parents => IsDeclared parents entry.1 child)
        (fun child _ => isDeclared_declareParent) (fun child other => IsDeclared.declareParent) hafter
    · -- no other entry takes it back
      rintro entry other before after ⟨children, hchildren, hdeclared⟩ hafter
      obtain ⟨others, -, hafter⟩ := Steps.bind_eq_ok hafter
      refine ⟨children, hchildren, fun child hchild => ?_⟩
      exact Steps.foldlM_invariant (P := fun parents => IsDeclared parents entry.1 child)
        (fun other _ => IsDeclared.declareParent) (hdeclared child hchild) hafter

/-- A label is listed as a kind of two that differ. -/
def IsDisputed (entries : List (Datum × Datum)) : Prop :=
  ∃ entry ∈ entries, ∃ other ∈ entries, entry.1.key? ≠ other.1.key? ∧
    ∃ children others, childrenOf entry.2 = .ok children ∧ childrenOf other.2 = .ok others ∧
      ∃ child ∈ children, ∃ same ∈ others, child.key? = same.key?

/-- A hierarchy with a dispute makes up no taxonomy. -/
theorem not_isDisputed_of_ofHierarchy {entries : List (Datum × Datum)} {t : Taxonomy}
    (h : ofHierarchy (.map entries) = .ok t) : ¬ IsDisputed entries := by
  rintro ⟨entry, hentry, other, hother, hne, children, others, hchildren, hothers, child, hchild, same, hsame, heq⟩
  obtain ⟨_, hchildren', hdeclared⟩ := isDeclared_ofHierarchy h entry hentry
  obtain ⟨_, hothers', hdeclared'⟩ := isDeclared_ofHierarchy h other hother
  cases hchildren.symm.trans hchildren'
  cases hothers.symm.trans hothers'
  -- what stands above the one key in the end is the label of both entries
  obtain ⟨key, above, hkey, habove, hlabel⟩ := hdeclared child hchild
  obtain ⟨key', above', hkey', habove', hlabel'⟩ := hdeclared' same hsame
  rw [heq, hkey', Option.some.injEq] at hkey
  subst hkey
  rw [habove', Option.some.injEq] at habove
  exact hne (by rw [← hlabel, ← hlabel', habove])

/-! ### Listings -/

/-- Labels, each with the labels that are listed as kinds of it, or with null where there are none. -/
abbrev Listing := List (String × Option (List String))

namespace Listing

/-- The listing as a datum. -/
def datum (listing : Listing) : Datum :=
  .map (listing.map fun (label, kinds) =>
    (.text label, match kinds with
      | some kinds => .list (kinds.map .text)
      | none => .null))

/-- A label is listed as a kind of another. -/
def Lists (listing : Listing) (label kind : String) : Prop := ∃ kinds, (label, some kinds) ∈ listing ∧ kind ∈ kinds

/-- A label is listed as a kind of two others. -/
def Disputed (listing : Listing) : Prop :=
  ∃ kind label other, label ≠ other ∧ listing.Lists label kind ∧ listing.Lists other kind

/-- One label stands right above another: it lists it as a kind, or no label does and the last colon of the other one
cuts it off. -/
def RightAbove (listing : Listing) (label above : String) : Prop :=
  listing.Lists above label ∨
    (∀ other, ¬ listing.Lists other label) ∧
      ∃ segment, label.toList = above.toList ++ ':' :: segment ∧ ':' ∉ segment

/-- The kinds that are listed, each with the label that it is listed for. -/
def pairs (listing : Listing) : List (String × String) :=
  listing.flatMap fun (label, kinds) => (kinds.getD []).map fun kind => (kind, label)

/-- The pairs of a listing are what it lists. -/
theorem mem_pairs_iff {listing : Listing} {kind label : String} :
    (kind, label) ∈ listing.pairs ↔ listing.Lists label kind := by
  simp only [pairs, List.mem_flatMap, List.mem_map, Prod.mk.injEq, Prod.exists]
  constructor
  · rintro ⟨_, kinds, hentry, _, hkind, rfl, rfl⟩
    cases kinds with
    | none => cases hkind
    | some kinds => exact ⟨kinds, hentry, hkind⟩
  · rintro ⟨kinds, hentry, hkind⟩
    exact ⟨label, some kinds, hentry, kind, hkind, rfl, rfl⟩

end Listing

/-! ### Declaring what is listed -/

/-- Declares a kind of a label. -/
def declarePair (parents : List (Datum.Key × Datum)) (pair : String × String) :
    Except HierarchyFault (List (Datum.Key × Datum)) :=
  declareParent (.text pair.2) parents (.text pair.1)

/-- A listing is declared pair by pair. -/
theorem ofHierarchy_datum (listing : Listing) :
    ofHierarchy listing.datum = (listing.pairs.foldlM declarePair []).map Taxonomy.mk := by
  -- an entry declares its pairs in order, and one with null in place of its kinds has none
  have hentries : ∀ parents, (listing.map fun (label, kinds) => (Datum.text label,
      match kinds with
      | some kinds => Datum.list (kinds.map .text)
      | none => .null)).foldlM declareEntry parents = listing.pairs.foldlM declarePair parents := by
    induction listing with
    | nil => exact fun _ => rfl
    | cons entry rest ih =>
      obtain ⟨label, kinds⟩ := entry
      intro parents
      have hentry : declareEntry parents (Datum.text label,
          match kinds with
          | some kinds => Datum.list (kinds.map .text)
          | none => .null) =
          ((kinds.getD []).map fun kind => (kind, label)).foldlM declarePair parents := by
        rw [List.foldlM_map]
        cases kinds with
        | none => rfl
        | some kinds => cases kinds with
          | nil => rfl
          | cons kind kinds => exact List.foldlM_map
      rw [List.map_cons, List.foldlM_cons, hentry, Listing.pairs, List.flatMap_cons, List.foldlM_append]
      exact bind_congr ih
  cases listing with
  | nil => rfl
  | cons entry rest =>
    rw [← hentries]
    rfl

/-- What has been declared is just what some pairs say. -/
def DeclaresPairs (parents : List (Datum.Key × Datum)) (pairs : List (String × String)) : Prop :=
  ∀ key parent, parents.lookup key = some parent ↔
    ∃ kind label, key = .text kind ∧ parent = .text label ∧ (kind, label) ∈ pairs

variable {parents : List (Datum.Key × Datum)} {pairs : List (String × String)} {kind label other : String}

/-- A parent is looked up just if the pair is among those declared. -/
theorem DeclaresPairs.lookup_iff (h : DeclaresPairs parents pairs) :
    parents.lookup (.text kind) = some (.text label) ↔ (kind, label) ∈ pairs := by
  rw [h]
  constructor
  · rintro ⟨_, _, hkind, hlabel, hmem⟩
    cases hkind
    cases hlabel
    exact hmem
  · exact fun hmem => ⟨kind, label, rfl, rfl, hmem⟩

/-- Where everything has been declared, nothing is disputed. -/
theorem DeclaresPairs.eq (h : DeclaresPairs parents pairs) (hlabel : (kind, label) ∈ pairs)
    (hother : (kind, other) ∈ pairs) : label = other := by
  have hsame := (h.lookup_iff.2 hlabel).symm.trans (h.lookup_iff.2 hother)
  injection hsame with hsame
  injection hsame

/-- One more pair is declared, unless the same kind has been declared for another label. -/
theorem declare_step (h : DeclaresPairs parents pairs) (kind label : String) :
    (∃ new, declarePair parents (kind, label) = .ok new ∧ DeclaresPairs new (pairs ++ [(kind, label)])) ∨
      ∃ old, declarePair parents (kind, label) = .error (.conflict (.text kind) (.text old) (.text label)) ∧
        old ≠ label ∧ (kind, old) ∈ pairs := by
  -- the child may be new, or have this parent already, or have another one
  cases hlookup : parents.lookup (.text kind) with
  | none =>
    have hdeclare : declarePair parents (kind, label) = .ok (parents ++ [(.text kind, .text label)]) := by
      simp only [declarePair, declareParent, Datum.key?, hlookup]
    refine .inl ⟨_, hdeclare, fun key parent => ?_⟩
    rw [List.lookup_append, Option.or_eq_some_iff, h key parent]
    constructor
    · rintro (⟨k, l, hkey, hparent, hmem⟩ | ⟨-, hnew⟩)
      · exact ⟨k, l, hkey, hparent, List.mem_append_left _ hmem⟩
      · obtain ⟨before, after, hsplit, -⟩ := List.lookup_eq_some_iff.1 hnew
        have hmem : (key, parent) ∈ [(Datum.Key.text kind, Datum.text label)] := by
          rw [hsplit]
          simp
        obtain ⟨rfl, rfl⟩ := Prod.mk.inj (List.mem_singleton.1 hmem)
        exact ⟨kind, label, rfl, rfl, by simp⟩
    · rintro ⟨k, l, rfl, rfl, hmem⟩
      rcases List.mem_append.1 hmem with hmem | hmem
      · exact .inl ⟨k, l, rfl, rfl, hmem⟩
      · obtain ⟨rfl, rfl⟩ := Prod.mk.inj (List.mem_singleton.1 hmem)
        exact .inr ⟨hlookup, by simp⟩
  | some old =>
    obtain ⟨k, l, hkey, rfl, hmem⟩ := (h _ _).1 hlookup
    cases hkey
    have hdeclare : declarePair parents (kind, label) =
        if (Datum.text l).key? = some (.text label) then .ok parents
        else .error (.conflict (.text kind) (.text l) (.text label)) := by
      simp only [declarePair, declareParent, Datum.key?, hlookup]
      rfl
    rw [hdeclare]
    by_cases hsame : l = label
    · -- the pair has been declared before
      subst hsame
      refine .inl ⟨parents, if_pos rfl, fun key parent => ?_⟩
      rw [h key parent]
      have hmem' : ∀ pair, pair ∈ pairs ++ [(kind, l)] ↔ pair ∈ pairs := by
        intro pair
        rw [List.mem_append, List.mem_singleton]
        exact ⟨fun hpair => hpair.elim id fun heq => heq ▸ hmem, .inl⟩
      -- a pair that was there adds nothing to what is listed
      simp only [hmem']
    · -- the child has another parent, so that the two labels conflict
      have hkey : ¬ (Datum.text l).key? = some (.text label) := by
        intro heq
        injection heq with heq
        injection heq with heq
        exact hsame heq
      exact .inr ⟨l, if_neg hkey, hsame, hmem⟩

/-- Pairs are declared one after the other, unless two of them give the same kind different labels. -/
theorem declare_run (h : DeclaresPairs parents pairs) (more : List (String × String)) :
    (∃ new, more.foldlM declarePair parents = .ok new ∧ DeclaresPairs new (pairs ++ more)) ∨
      ∃ kind old new, more.foldlM declarePair parents =
          .error (.conflict (.text kind) (.text old) (.text new)) ∧
        old ≠ new ∧ (kind, old) ∈ pairs ++ more ∧ (kind, new) ∈ pairs ++ more := by
  induction more generalizing parents pairs with
  | nil => exact .inl ⟨parents, rfl, by rwa [List.append_nil]⟩
  | cons pair more ih =>
    obtain ⟨kind, label⟩ := pair
    rw [List.foldlM_cons]
    rcases declare_step h kind label with ⟨new, hnew, hdeclares⟩ | ⟨old, herror, hne, hmem⟩
    · rw [hnew, Steps.ok_bind]
      have hrun := ih hdeclares
      rwa [List.append_assoc] at hrun
    · refine .inr ⟨kind, old, label, by rw [herror]; rfl, hne, List.mem_append_left _ hmem, ?_⟩
      exact List.mem_append_right _ List.mem_cons_self

/-! ### The outcome -/

/-- Just what is listed has been declared. -/
def Declares (t : Taxonomy) (listing : Listing) : Prop :=
  ∀ key parent, t.parents.lookup key = some parent ↔
    ∃ label kind, key = .text kind ∧ parent = .text label ∧ listing.Lists label kind

variable {t t' : Taxonomy} {listing : Listing}

/-- What declares a listing has texts only. -/
theorem Declares.isTextual (h : t.Declares listing) : t.IsTextual := by
  intro key parent hparent
  obtain ⟨label, -, -, hlabel, -⟩ := (h key parent).1 hparent
  exact .inr ⟨label, hlabel⟩

/-- A parent is looked up just if the listing has it. -/
theorem Declares.lookup_iff (h : t.Declares listing) :
    t.parents.lookup (.text kind) = some (.text label) ↔ listing.Lists label kind := by
  rw [h]
  constructor
  · rintro ⟨_, _, hkind, hlabel, hlists⟩
    cases hkind
    cases hlabel
    exact hlists
  · exact fun hlists => ⟨label, kind, rfl, rfl, hlists⟩

/-- Above a label stands what the listing says. -/
theorem Declares.rightAbove_eq (h : t.Declares listing) : t.RightAbove = listing.RightAbove := by
  funext kind label
  have hnone : t.parents.lookup (.text kind) = none ↔ ∀ other, ¬ listing.Lists other kind := by
    rw [Option.eq_none_iff_forall_ne_some]
    constructor
    · exact fun hne other hlists => hne _ (h.lookup_iff.2 hlists)
    · intro hlists parent hparent
      obtain ⟨other, k, hkey, -, hother⟩ := (h _ _).1 hparent
      cases hkey
      exact hlists other hother
  rw [eq_iff_iff, rightAbove_iff, h.lookup_iff, hnone]
  rfl

/-- A listing makes up a taxonomy that declares what it lists, or a label is listed as a kind of two others. -/
theorem ofHierarchy_cases (listing : Listing) :
    (∃ t, ofHierarchy listing.datum = .ok t ∧ t.Declares listing ∧ ¬ listing.Disputed) ∨
      (∃ kind old new, ofHierarchy listing.datum =
        .error (.conflict (.text kind) (.text old) (.text new))) ∧ listing.Disputed := by
  have hempty : DeclaresPairs [] [] := by
    intro key parent
    simp
  rw [ofHierarchy_datum]
  rcases declare_run hempty listing.pairs with ⟨parents, hparents, h⟩ | ⟨kind, old, new, herror, hne, hold, hnew⟩
  · rw [List.nil_append] at h
    refine .inl ⟨⟨parents⟩, by rw [hparents]; rfl, fun key parent => ?_, ?_⟩
    · rw [h key parent, exists_comm]
      simp only [Listing.mem_pairs_iff]
    · rintro ⟨kind, label, other, hne, hlabel, hother⟩
      exact hne (h.eq (Listing.mem_pairs_iff.2 hlabel) (Listing.mem_pairs_iff.2 hother))
  · rw [List.nil_append, Listing.mem_pairs_iff] at hold hnew
    exact .inr ⟨⟨kind, old, new, by rw [herror]; rfl⟩, kind, old, new, hne, hold, hnew⟩

/-- A taxonomy that a listing makes up declares what it lists, and nothing is disputed. -/
theorem declares_of_ofHierarchy (h : ofHierarchy listing.datum = .ok t) : t.Declares listing ∧ ¬ listing.Disputed := by
  rcases ofHierarchy_cases listing with ⟨t', ht', hdeclares, hundisputed⟩ | ⟨⟨_, _, _, herror⟩, -⟩
  · rw [h, Except.ok.injEq] at ht'
    subst ht'
    exact ⟨hdeclares, hundisputed⟩
  · rw [herror] at h
    cases h

/-! ### Rearranging a listing -/

/-- Whether another listing has the same labels in another order, and for each of them the same kinds, in another
order or more or less often. -/
def Listing.Rearranges (listing other : Listing) : Prop :=
  ∃ middle : Listing, listing.Perm middle ∧
    List.Forall₂ (fun entry entry' =>
      entry.1 = entry'.1 ∧ ∀ kind, kind ∈ entry.2.getD [] ↔ kind ∈ entry'.2.getD []) middle other

/-- Rearranging a listing does not change what it lists. -/
theorem Listing.Rearranges.lists_iff {other : Listing} (h : listing.Rearranges other) {label kind : String} :
    other.Lists label kind ↔ listing.Lists label kind := by
  obtain ⟨middle, hperm, hkinds⟩ := h
  have hpairs : listing.pairs.Perm (Listing.pairs middle) := hperm.flatMap_right _
  rw [← mem_pairs_iff, ← mem_pairs_iff, hpairs.mem_iff]
  clear hperm hpairs
  induction hkinds with
  | nil => exact Iff.rfl
  | @cons entry entry' middle other hentry _ ih =>
    obtain ⟨hlabel, hkinds⟩ := hentry
    rw [pairs, pairs, List.flatMap_cons, List.flatMap_cons, List.mem_append, List.mem_append]
    refine or_congr ?_ ih
    simp only [List.mem_map, Prod.mk.injEq, hlabel, hkinds]

/-- A rearranged listing is disputed just if the listing is. -/
theorem Listing.Rearranges.disputed_iff {other : Listing} (h : listing.Rearranges other) :
    other.Disputed ↔ listing.Disputed := by
  simp only [Disputed, h.lists_iff]

/-- Taxonomies with the same steps up accept the same labels, whatever the filter. -/
theorem acceptsText_congr [Text.CharacterNames] (ht : t.IsTextual) (ht' : t'.IsTextual)
    (h : t'.RightAbove = t.RightAbove) (filter label : Option String) :
    t'.acceptsText filter label = t.acceptsText filter label := by
  have hkind : ∀ label name, t'.isKindOf label name = t.isKindOf label name := by
    intro label name
    obtain ⟨answer, hanswer, hiff⟩ := exists_isKindOf ht label name
    obtain ⟨answer', hanswer', hiff'⟩ := exists_isKindOf ht' label name
    rw [h, ← hiff, Bool.coe_iff_coe] at hiff'
    rw [hanswer, hanswer', hiff']
  simp only [acceptsText, hkind]

/-- **What a hierarchy lists is all that counts.**  A hierarchy of labels with their kinds has a conflict just when a
label is listed as a kind of two others.  Otherwise it makes up a taxonomy in which just the listed labels have been
declared kinds of what lists them; so a plain filter accepts a label just when it is the label, or there is a way up
to it, each step of which leads to the label that lists the one before, or, if none does, to what its last colon cuts
off.  The order of the labels, the order of their kinds and repetitions among these make no difference to whether
there is a conflict, nor to what is accepted. -/
theorem ofHierarchy_listing [Text.CharacterNames] (listing : Listing) :
    ((∃ child old new, ofHierarchy listing.datum = .error (.conflict child old new)) ↔ listing.Disputed) ∧
    (¬ listing.Disputed → ∃ t, ofHierarchy listing.datum = .ok t ∧ t.Declares listing ∧
      ∀ filter label, IsPlain filter →
        ∃ answer, t.acceptsText (some filter) (some label) = .ok answer ∧
          (answer = true ↔ filter = label ∨ Relation.TransGen listing.RightAbove label filter)) ∧
    ∀ other, listing.Rearranges other →
      ((∃ child old new, ofHierarchy other.datum = .error (.conflict child old new)) ↔
        ∃ child old new, ofHierarchy listing.datum = .error (.conflict child old new)) ∧
      ∀ t, ofHierarchy listing.datum = .ok t →
        ∃ t', ofHierarchy other.datum = .ok t' ∧
          ∀ filter label, t'.acceptsText filter label = t.acceptsText filter label := by
  -- to conflict and to be disputed is the same for every listing
  have hconflict : ∀ listing : Listing,
      (∃ child old new, ofHierarchy listing.datum = .error (.conflict child old new)) ↔ listing.Disputed := by
    intro listing
    rcases ofHierarchy_cases listing with ⟨t, ht, -, hnot⟩ | ⟨⟨kind, old, new, herror⟩, hdisputed⟩
    · rw [ht]
      simp [hnot]
    · exact iff_of_true ⟨_, _, _, herror⟩ hdisputed
  refine ⟨hconflict listing, fun hnot => ?_, fun other h => ⟨?_, fun t ht => ?_⟩⟩
  · obtain ⟨t, ht, hdeclares, -⟩ := (ofHierarchy_cases listing).resolve_right fun h => hnot h.2
    refine ⟨t, ht, hdeclares, fun filter label hplain => ?_⟩
    rw [← hdeclares.rightAbove_eq]
    exact exists_acceptsText hdeclares.isTextual hplain label
  · rw [hconflict, hconflict, h.disputed_iff]
  · -- what is listed is the same in any order, and so are the steps between labels
    obtain ⟨hdeclares, hnot⟩ := declares_of_ofHierarchy ht
    obtain ⟨t', ht', hdeclares', -⟩ :=
      (ofHierarchy_cases other).resolve_right fun hother => hnot (h.disputed_iff.1 hother.2)
    refine ⟨t', ht', acceptsText_congr hdeclares.isTextual hdeclares'.isTextual ?_⟩
    rw [hdeclares'.rightAbove_eq, hdeclares.rightAbove_eq]
    funext label above
    simp only [Listing.RightAbove, h.lists_iff]

end DependencyQuery.Taxonomy
