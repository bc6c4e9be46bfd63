import DependencyQuery.Proofs.Taxonomy.Hierarchies
import DependencyQuery.Proofs.Taxonomy.Paths

namespace DependencyQuery.Taxonomy

/-!
# When a taxonomy can be loaded

Where a file holds no hierarchy, the flat taxonomy takes its place.  But a hierarchy may also hold what is neither
refused quietly nor of use: a label whose kinds are a number, or that is a number itself.

* `HierarchyIn` — what a file holds under `hierarchy`;
* `ListsLabels` — a datum lists labels, `listsLabels_iff` — which can then be declared kinds of another;
* `HierarchyFault.IsTolerated` — the faults that make room for the flat taxonomy, `isTolerated_ofHierarchy` — which are
  the only ones where labels are listed;
* `loadBy_eq_of_ok` and its kin — what is loaded, by the outcome for the hierarchy, `loadBy_eq_error_barred_iff` — and
  when the path is what fails;
* `exists_loadBy` — if labels are listed, there is a taxonomy, and if texts list them, it never fails on a filter;
* `eq_instead_of_not_listsLabels` — otherwise there is none but the flat one;
* `load_not_total` — or there is none at all, or one that fails on a filter.
-/

/-! ### What a file holds -/

/-- The document in a file is a map with a given datum under `hierarchy`. -/
def HierarchyIn (read? : String → Option Datum) (files : Files) (path : String) (d : Datum) : Prop :=
  ∃ text fields, files path = .file text ∧ read? text = some (.map fields) ∧
    Datum.get? "hierarchy" fields = some d

variable {read? : String → Option Datum} {files : Files} {path : String} {d d' : Datum} {t : Taxonomy}
  {fault : HierarchyFault}

/-- There is no more than one hierarchy in a file. -/
theorem HierarchyIn.eq (h : HierarchyIn read? files path d) (h' : HierarchyIn read? files path d') : d = d' := by
  obtain ⟨text, fields, hfile, hread, hget⟩ := h
  obtain ⟨text', fields', hfile', hread', hget'⟩ := h'
  rw [hfile, FileEntry.file.injEq] at hfile'
  rw [← hfile', hread, Option.some.injEq, Datum.map.injEq] at hread'
  rw [← hread', hget] at hget'
  exact Option.some.inj hget'

/-- Labels are listed: as the items of a list, the keys of a map or the characters of a text, or there are none. -/
def ListsLabels : Datum → Prop
  | .list items => ∀ item ∈ items, item.key? ≠ none
  | .map entries => ∀ entry ∈ entries, entry.1.key? ≠ none
  | .text _ => True
  | d => d.isEmptyish = true

/-- Labels are listed just where they can be taken for the kinds of another. -/
theorem listsLabels_iff :
    ListsLabels d ↔ ∃ children, childrenOf d = .ok children ∧ ∀ child ∈ children, child.key? ≠ none := by
  have hempty (h : d.isEmptyish = true) :
      ∃ children, childrenOf d = .ok children ∧ ∀ child ∈ children, child.key? ≠ none :=
    ⟨[], childrenOf_eq_nil h, List.forall_mem_nil _⟩
  cases d with
  | text value =>
    refine iff_of_true trivial ?_
    by_cases h : (Datum.text value).isEmptyish = true
    · exact hempty h
    · refine ⟨value.toList.map fun c => .text c.toString, ?_, List.forall_mem_map.2 fun c _ => ?_⟩
      · rw [childrenOf, if_neg h]
      · exact Option.some_ne_none _
  | list items =>
    cases items with
    | nil => exact iff_of_true (List.forall_mem_nil _) (hempty rfl)
    | cons item items =>
      refine ⟨fun hitems => ⟨item :: items, rfl, hitems⟩, ?_⟩
      rintro ⟨_, ⟨⟩, hkeys⟩
      exact hkeys
  | map entries =>
    cases entries with
    | nil => exact iff_of_true (List.forall_mem_nil _) (hempty rfl)
    | cons entry entries =>
      refine ⟨fun hentries => ⟨(entry :: entries).map Prod.fst, rfl, List.forall_mem_map.2 hentries⟩, ?_⟩
      rintro ⟨_, ⟨⟩, hkeys⟩
      exact fun entry hentry => hkeys _ (List.mem_map_of_mem hentry)
  | _ =>
    -- a single value lists nothing, and is passed over only where it counts as nothing
    refine ⟨hempty, fun ⟨children, hchildren, _⟩ => ?_⟩
    by_contra (h : ¬ Datum.isEmptyish _ = true)
    unfold childrenOf at hchildren
    rw [if_neg h] at hchildren
    cases hchildren

/-! ### Faults -/

/-- The faults for which the flat taxonomy takes the place of what a file holds. -/
def HierarchyFault.IsTolerated : HierarchyFault → Prop
  | .conflict _ _ _ => True
  | .notAMap => True
  | .noChildren => False
  | .notALabel => False

/-- A label is declared a kind of another, unless it is one of a third. -/
theorem isTolerated_declareParent {parents : List (Datum.Key × Datum)} {parent child : Datum}
    (hchild : child.key? ≠ none) (h : declareParent parent parents child = .error fault) : fault.IsTolerated := by
  obtain ⟨hkey, -⟩ | ⟨_, rfl⟩ := declareParent_eq_error h
  · exact absurd hkey hchild
  · trivial

/-- Where labels are listed, a hierarchy has no fault but a conflict. -/
theorem isTolerated_ofHierarchy
    (hlabels : ∀ entries, d = .map entries → ∀ entry ∈ entries, ListsLabels entry.2)
    (h : ofHierarchy d = .error fault) : fault.IsTolerated := by
  unfold ofHierarchy at h
  split at h
  · cases h
  · cases d with
    | map entries =>
      -- the fault is met at an entry, while its children are declared
      rcases Steps.bind_eq_error h with h | ⟨parents, -, h⟩
      · refine Steps.foldlM_failure (Q := HierarchyFault.IsTolerated) ?_ h
        intro entry hentry before fault herror
        obtain ⟨children, hchildren, hkeys⟩ := listsLabels_iff.1 (hlabels entries rfl entry hentry)
        rw [declareEntry, hchildren, Steps.ok_bind] at herror
        exact Steps.foldlM_failure (fun child hchild => isTolerated_declareParent (hkeys child hchild)) herror
      · cases h
    -- anything but a mapping is refused, and this is tolerated
    | _ =>
      cases h
      trivial

/-- What makes up a taxonomy lists labels. -/
theorem listsLabels_of_ofHierarchy {entries : List (Datum × Datum)} (h : ofHierarchy (.map entries) = .ok t) :
    ∀ entry ∈ entries, ListsLabels entry.2 := by
  intro entry hentry
  obtain ⟨children, hchildren, hdeclared⟩ := isDeclared_ofHierarchy h entry hentry
  refine listsLabels_iff.2 ⟨children, hchildren, fun child hchild hkey => ?_⟩
  obtain ⟨key, above, hsome, -⟩ := hdeclared child hchild
  rw [hkey] at hsome
  cases hsome

/-- What is no map, but makes up a taxonomy, counts as nothing. -/
theorem eq_flat_of_ofHierarchy (hnot : ∀ entries, d ≠ .map entries) (h : ofHierarchy d = .ok t) : t = flat := by
  unfold ofHierarchy at h
  split at h
  · exact (Except.ok.inj h).symm
  · cases d with
    | map entries => exact absurd rfl (hnot entries)
    | _ => cases h

/-! ### What is loaded -/

/-- A document that is a hierarchy is taken. -/
theorem ofDocument?_of_ok {document : Datum} (h : ofDocument document = .ok t) :
    ofDocument? (some document) = .ok { taxonomy := t } := by
  simp only [ofDocument?, h]

/-- A document with a fault that is tolerated is not usable. -/
theorem ofDocument?_of_isTolerated {document : Datum} (h : ofDocument document = .error fault)
    (hfault : fault.IsTolerated) : ofDocument? (some document) = .ok (.instead .unusable) := by
  cases fault with
  | conflict | notAMap => simp only [ofDocument?, h]
  | noChildren | notALabel => exact hfault.elim

/-- A file that can be read is loaded through its document. -/
theorem loadBy_of_file {text : String} (h : files path = .file text) :
    loadBy read? files path = (ofDocument? (read? text)).mapError .hierarchy := by
  simp only [loadBy, h]

/-- The outcome for what stands under `hierarchy` is the outcome for the document. -/
theorem HierarchyIn.exists_document (h : HierarchyIn read? files path d) :
    ∃ document, loadBy read? files path = (ofDocument? (some document)).mapError .hierarchy ∧
      ofDocument document = ofHierarchy d := by
  obtain ⟨text, fields, hfile, hread, hget⟩ := h
  refine ⟨.map fields, by rw [loadBy_of_file hfile, hread], ?_⟩
  cases fields with
  | nil => cases hget
  | cons field fields =>
    have hhierarchy : hierarchyOf (.map (field :: fields)) = .ok d := by
      unfold hierarchyOf
      rw [if_neg (by exact Bool.false_ne_true)]
      simp only [hget, Option.getD_some]
    rw [ofDocument, hhierarchy, Steps.ok_bind]

/-- A hierarchy without a fault is loaded. -/
theorem loadBy_eq_of_ok (h : HierarchyIn read? files path d) (ht : ofHierarchy d = .ok t) :
    loadBy read? files path = .ok { taxonomy := t } := by
  obtain ⟨document, hload, hdocument⟩ := h.exists_document
  rw [hload, ofDocument?_of_ok (hdocument.trans ht)]
  rfl

/-- A hierarchy with a fault that is tolerated gives a flat taxonomy, which says so. -/
theorem loadBy_eq_of_isTolerated (h : HierarchyIn read? files path d) (herror : ofHierarchy d = .error fault)
    (hfault : fault.IsTolerated) : loadBy read? files path = .ok (.instead .unusable) := by
  obtain ⟨document, hload, hdocument⟩ := h.exists_document
  rw [hload, ofDocument?_of_isTolerated (hdocument.trans herror) hfault]
  rfl

/-- Only a path fails as a path, and nothing else then matters. -/
theorem loadBy_eq_error_barred_iff {named : String} {refusal : PathFault} :
    loadBy read? files path = .error (.barred named refusal) ↔ named = path ∧ files path = .barred refusal := by
  unfold loadBy
  cases files path with
  | barred other =>
    rw [Except.error.injEq, LoadFault.barred.injEq, FileEntry.barred.injEq]
    exact and_congr_left' eq_comm
  | missing | folder | unreadable => simp only [reduceCtorEq, and_false]
  | file text => cases houtcome : ofDocument? (read? text) <;> simp [houtcome, Except.mapError]

/-- A document without a hierarchy gives a flat taxonomy, or is no map. -/
theorem ofDocument_of_get?_eq_none {document : Datum}
    (h : ∀ fields, document = .map fields → Datum.get? "hierarchy" fields = none) :
    ofDocument document = .ok flat ∨ ofDocument document = .error .notAMap := by
  unfold ofDocument hierarchyOf
  by_cases hempty : document.isEmptyish = true
  · rw [if_pos hempty]
    exact .inl rfl
  · rw [if_neg hempty]
    cases document with
    | map fields =>
      simp only [h fields rfl]
      exact .inl rfl
    | _ => exact .inr rfl

/-- Where a file holds nothing under `hierarchy`, the taxonomy is flat. -/
theorem exists_loadBy_of_not_hierarchyIn (hpath : ∀ refusal, files path ≠ .barred refusal)
    (h : ∀ d, ¬ HierarchyIn read? files path d) : ∃ notice, loadBy read? files path = .ok ⟨flat, notice⟩ := by
  unfold loadBy
  cases hfile : files path with
  | barred refusal => exact absurd hfile (hpath refusal)
  | missing | folder | unreadable => exact ⟨_, rfl⟩
  | file text =>
    cases hread : read? text with
    | none => exact ⟨some .unusable, by simp only [hread]; rfl⟩
    | some document =>
      have hnone : ∀ fields, document = .map fields → Datum.get? "hierarchy" fields = none := by
        rintro fields rfl
        exact Option.eq_none_iff_forall_ne_some.2 fun d hd => h d ⟨text, fields, hfile, hread, hd⟩
      simp only [hread]
      rcases ofDocument_of_get?_eq_none hnone with hflat | herror
      · exact ⟨none, by rw [ofDocument?_of_ok hflat]; rfl⟩
      · exact ⟨some .unusable, by rw [ofDocument?_of_isTolerated herror trivial]; rfl⟩

/-- What is loaded where labels are listed: the taxonomy of the hierarchy, or the flat one in its place. -/
theorem loadBy_cases (hpath : ∀ refusal, files path ≠ .barred refusal)
    (hlabels : ∀ entries, HierarchyIn read? files path (.map entries) →
      ∀ entry ∈ entries, ListsLabels entry.2) :
    (∃ d t, HierarchyIn read? files path d ∧ ofHierarchy d = .ok t ∧
        loadBy read? files path = .ok { taxonomy := t }) ∨
      (∀ d t, HierarchyIn read? files path d → ofHierarchy d ≠ .ok t) ∧
        ∃ notice, loadBy read? files path = .ok ⟨flat, notice⟩ := by
  -- nothing that can be read stands under the path, or it is read and declared
  by_cases hnone : ∀ d, ¬ HierarchyIn read? files path d
  · exact .inr ⟨fun d t h => absurd h (hnone d), exists_loadBy_of_not_hierarchyIn hpath hnone⟩
  · obtain ⟨d, hd⟩ := not_forall_not.1 hnone
    cases houtcome : ofHierarchy d with
    | ok t => exact .inl ⟨d, t, hd, houtcome, loadBy_eq_of_ok hd houtcome⟩
    -- what it declares is refused, and the refusal is one of those that are met with the flat taxonomy
    | error fault =>
      refine .inr ⟨fun d' t hd' ht => ?_, some .unusable, loadBy_eq_of_isTolerated hd houtcome ?_⟩
      · rw [← hd.eq hd', houtcome] at ht
        cases ht
      · refine isTolerated_ofHierarchy (fun entries hentries => ?_) houtcome
        exact hlabels entries (hentries ▸ hd)

/-- What does not list labels is never part of a taxonomy. -/
theorem eq_instead_of_not_listsLabels {entries : List (Datum × Datum)} {entry : Datum × Datum} {loaded : Loaded}
    (h : HierarchyIn read? files path (.map entries)) (hentry : entry ∈ entries) (hnot : ¬ ListsLabels entry.2)
    (hload : loadBy read? files path = .ok loaded) : loaded = .instead .unusable := by
  obtain ⟨document, hloadBy, hdocument⟩ := h.exists_document
  cases houtcome : ofHierarchy (.map entries) with
  | ok t => exact absurd (listsLabels_of_ofHierarchy houtcome entry hentry) hnot
  | error fault =>
    have herror := hdocument.trans houtcome
    cases fault with
    | conflict | notAMap =>
      rw [loadBy_eq_of_isTolerated h houtcome trivial] at hload
      exact (Except.ok.inj hload).symm
    | noChildren | notALabel =>
      rw [hloadBy] at hload
      simp only [ofDocument?, herror] at hload
      cases hload

/-- A taxonomy of texts never fails on a filter that is no regular expression. -/
theorem exists_acceptsText_of_not_regex [Text.CharacterNames] (ht : t.IsTextual) {filter : Option String}
    (hfilter : ∀ text ∈ filter, isRegexFilter text.toList = false) (label : String) :
    ∃ answer, t.acceptsText filter (some label) = .ok answer := by
  cases filter with
  | none => exact ⟨true, rfl⟩
  | some text =>
    by_cases hempty : text = ""
    · subst hempty
      exact ⟨true, rfl⟩
    · obtain ⟨answer, hanswer, -⟩ := exists_acceptsText ht ⟨hempty, hfilter text rfl⟩ label
      exact ⟨answer, hanswer⟩

/-- **A hierarchy of labels never fails to load.**  Whatever stands under a path, if the system tells at all, and
however documents are read: if all that the hierarchy there lists is labels, there is a taxonomy.  It is the flat one
where the file is missing, or cannot be read, or holds no map under `hierarchy`, or lists a label as a kind of two
others.  Where texts list texts and none is disputed, just what is listed has been declared.  If the labels that list
others are texts, or null, the taxonomy gives an answer for every label and every filter that is no regular
expression. -/
theorem exists_loadBy [Text.CharacterNames] (read? : String → Option Datum) (files : Files) (path : String)
    (hpath : ∀ refusal, files path ≠ .barred refusal)
    (hlabels : ∀ entries, HierarchyIn read? files path (.map entries) → ∀ entry ∈ entries, ListsLabels entry.2) :
    ∃ loaded, loadBy read? files path = .ok loaded ∧
      ((∀ entries, ¬ HierarchyIn read? files path (.map entries)) → loaded.taxonomy = flat) ∧
      (∀ entries, HierarchyIn read? files path (.map entries) → IsDisputed entries → loaded.taxonomy = flat) ∧
      (∀ listing : Listing, HierarchyIn read? files path listing.datum →
        (listing.Disputed → loaded.taxonomy = flat) ∧
        (¬ listing.Disputed → loaded.taxonomy.Declares listing)) ∧
      ((∀ entries, HierarchyIn read? files path (.map entries) →
          ∀ entry ∈ entries, entry.2.isEmptyish = false → IsTextLabel entry.1) →
        ∀ (filter : Option String) (label : String), (∀ text ∈ filter, isRegexFilter text.toList = false) →
          ∃ answer, loaded.taxonomy.acceptsText filter (some label) = .ok answer) := by
  rcases loadBy_cases hpath hlabels with ⟨d, t, hd, ht, hload⟩ | ⟨hnot, notice, hload⟩
  · refine ⟨_, hload, fun hnone => ?_, fun entries hentries hdisputed => ?_, fun listing hlisting => ?_,
      fun htexts filter label hfilter => ?_⟩
    · exact eq_flat_of_ofHierarchy (fun entries hentries => hnone entries (hentries ▸ hd)) ht
    · rw [hd.eq hentries] at ht
      exact absurd hdisputed (not_isDisputed_of_ofHierarchy ht)
    · rw [hd.eq hlisting] at ht
      obtain ⟨hdeclares, hundisputed⟩ := declares_of_ofHierarchy ht
      exact ⟨fun hdisputed => absurd hdisputed hundisputed, fun _ => hdeclares⟩
    · refine exists_acceptsText_of_not_regex (isTextual_ofHierarchy (fun entries hentries => ?_) ht) hfilter label
      exact htexts entries (hentries ▸ hd)
  · -- the taxonomy is flat, and a listing without disputes would have made up another one
    refine ⟨_, hload, fun _ => rfl, fun _ _ _ => rfl, fun listing hlisting => ⟨fun _ => rfl, fun hundisputed => ?_⟩,
      fun _ filter label hfilter => exists_acceptsText_of_not_regex isTextual_flat hfilter label⟩
    obtain ⟨t, ht, -⟩ := (ofHierarchy_cases listing).resolve_right fun h => hundisputed h.2
    exact absurd ht (hnot _ t hlisting)

/-- A file with one kind of a label. -/
theorem exists_loadBy_single :
    let files := (FileTree.ofTexts [("t.yaml", "hierarchy:\n  mod: [amod]\n")]).find
    (∀ refusal, files "t.yaml" ≠ .barred refusal) ∧
      (∀ entries, HierarchyIn Yaml.read? files "t.yaml" (.map entries) → ∀ entry ∈ entries, ListsLabels entry.2) ∧
      ∃ loaded, loadBy Yaml.read? files "t.yaml" = .ok loaded ∧
        loaded.taxonomy.Declares [("mod", some ["amod"])] ∧
        ∀ filter ∈ [none, some "", some "mod"],
          ∃ answer, loaded.taxonomy.acceptsText filter (some "amod:x") = .ok answer := by
  intro files
  have hpath : ∀ refusal, files "t.yaml" ≠ .barred refusal :=
    FileTree.find_ne_barred rfl (by decide) (by decide)
  have hfile : files "t.yaml" = .file "hierarchy:\n  mod: [amod]\n" := rfl
  have hlisting : HierarchyIn Yaml.read? files "t.yaml" (Listing.datum [("mod", some ["amod"])]) :=
    ⟨_, _, hfile, rfl, rfl⟩
  have hentries : ∀ entries, HierarchyIn Yaml.read? files "t.yaml" (.map entries) →
      ∀ entry ∈ entries, ListsLabels entry.2 ∧ IsTextLabel entry.1 := by
    intro entries h entry hentry
    obtain rfl := Datum.map.inj (h.eq hlisting)
    obtain rfl := List.mem_singleton.1 hentry
    exact ⟨fun item hitem => List.mem_singleton.1 hitem ▸ Option.some_ne_none _, .inr ⟨_, rfl⟩⟩
  have hlabels : ∀ entries, HierarchyIn Yaml.read? files "t.yaml" (.map entries) →
      ∀ entry ∈ entries, ListsLabels entry.2 :=
    fun entries h entry hentry => (hentries entries h entry hentry).1
  obtain ⟨loaded, hloaded, -, -, hdeclares, hanswers⟩ := exists_loadBy Yaml.read? files "t.yaml" hpath hlabels
  refine ⟨hpath, hlabels, loaded, hloaded, (hdeclares _ hlisting).2 ?_, fun filter hfilter => ?_⟩
  · rintro ⟨kind, label, other, hne, ⟨kinds, hentry, -⟩, ⟨kinds', hentry', -⟩⟩
    exact hne ((Prod.mk.inj (List.mem_singleton.1 hentry)).1.trans
      (Prod.mk.inj (List.mem_singleton.1 hentry')).1.symm)
  · refine hanswers (fun entries h entry hentry _ => (hentries entries h entry hentry).2) filter _ ?_
    revert filter
    decide

/-- **Loading does fail.**  There is no taxonomy under a name that is too long to be looked up, nor where a label lists
a number; where a number lists a label, the taxonomy fails on that label; and where a label lists a text, each of its
characters becomes a kind of it. -/
theorem load_not_total :
    (∃ path, path = String.ofList (List.replicate 300 'a') ∧
      load (FileTree.ofTexts []).find path = .error (.barred path .nameTooLong)) ∧
    load (FileTree.ofTexts [("t.yaml", "hierarchy:\n  a: 5\n")]).find "t.yaml" =
      .error (.hierarchy .noChildren) ∧
    (∃ loaded, load (FileTree.ofTexts [("t.yaml", "hierarchy:\n  5: [a]\n")]).find "t.yaml" = .ok loaded ∧
      loaded.taxonomy.acceptsText (some "x") (some "a") = .error (.label .notAText)) ∧
    ∃ loaded, load (FileTree.ofTexts [("t.yaml", "hierarchy:\n  a: bc\n")]).find "t.yaml" = .ok loaded ∧
      loaded.taxonomy.acceptsText (some "a") (some "b") = .ok true := by
  have hlong : Path.longestName < (String.ofList (List.replicate 300 'a')).utf8ByteSize := by
    rw [Path.utf8ByteSize_replicate]
    decide
  refine ⟨⟨_, rfl, loadBy_eq_error_barred_iff.2 ⟨rfl, ?_⟩⟩, (loadBy_of_file rfl).trans rfl,
    ⟨_, (loadBy_of_file rfl).trans rfl, rfl⟩, ⟨_, (loadBy_of_file rfl).trans rfl, rfl⟩⟩
  exact (FileTree.find_name (Path.isName_replicate (by decide)) rfl List.not_mem_nil).trans (if_pos hlong)

end DependencyQuery.Taxonomy
