import DependencyQuery.Proofs.Taxonomy.Hierarchies
import DependencyQuery.Proofs.Walk.Witnesses
import DependencyQuery.Request.Answer

namespace DependencyQuery.Taxonomy

/-!
# Searches with taxonomies of texts

Where all declared parents are texts, every label can be placed, and a search does not fail on one.

* `exists_predicate_eq_total` — a taxonomy of texts decides about every label;
* `isTextual_hierarchyDatum` — such as one that a request declares.
-/

variable {t : Taxonomy}

/-- A taxonomy of texts decides about every label. -/
theorem exists_predicate_eq_total [Text.CharacterNames] (ht : t.IsTextual) :
    ∃ accepts, t.predicate = .total accepts := by
  have hanswer : ∀ filter label, ∃ answer, t.predicate filter label = .ok answer := by
    intro filter label
    unfold predicate
    cases label with
    | none => exact ⟨false, by simp [Taxonomy.accepts]⟩
    | some label =>
      cases filter with
      | regex expression => exact ⟨expression.fullMatches label, rfl⟩
      | name name =>
        obtain ⟨answer, hkind, -⟩ := exists_isKindOf ht label name
        exact ⟨answer, by rw [Taxonomy.accepts, hkind]⟩
  refine ⟨fun filter label => (t.predicate filter label).toOption.getD false, ?_⟩
  funext filter label
  obtain ⟨answer, h⟩ := hanswer filter label
  rw [LabelPredicate.total, h]
  rfl

/-! ### Taxonomies of requests -/

/-- The hierarchy of a request makes up a taxonomy of texts. -/
theorem isTextual_hierarchyDatum {entries : List (String × List String)}
    (h : ofHierarchy (hierarchyDatum entries) = .ok t) : t.IsTextual := by
  refine isTextual_ofHierarchy (fun others hothers entry hentry _ => ?_) h
  obtain rfl := Datum.map.inj hothers
  obtain ⟨⟨label, kinds⟩, -, rfl⟩ := List.mem_map.1 hentry
  exact .inr ⟨label, rfl⟩

end DependencyQuery.Taxonomy
