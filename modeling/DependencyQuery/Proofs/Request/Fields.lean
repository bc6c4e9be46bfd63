import DependencyQuery.Proofs.Steps
import DependencyQuery.Request.Answer

namespace DependencyQuery

open Payload

/-!
# What a checked request holds

* `Payload.Checked.ap_eq_ok` — checks put together succeed where all of them do;
* `Payload.textMap_eq_ok_iff` — a map with string keys is one in which every key is a string and every value reads;
* `RequestFields.Reads` — whether each field of a request reads as it should, `RequestFields.check_eq_ok_iff`
  — which is what the check of all fields asks for; `RequestFields.Reads.withLimit` — and a limit bears on its
  own field only;
* `MatchRequest.patternField_of_check` — the pattern of a request that passes its checks is the text in
  its field, which is not empty;
* `answerMatch_eq_done_iff` — a request is answered with matches where it passes its checks and has a pattern,
  `matchesOf_eq_ok_iff` — and they are the records of a search, once its graph and its taxonomy are there.
-/

namespace Payload

variable {α β : Type}

/-- Two checks succeed together just where each of them does. -/
theorem Checked.ap_eq_ok {f : Checked (α → β)} {a : Checked α} {b : β} (h : f.ap a = .ok b) :
    ∃ f' a', f = .ok f' ∧ a = .ok a' ∧ b = f' a' := by
  cases f with
  | error issues => cases a <;> cases h
  | ok f' =>
    cases a with
    | error issues => cases h
    | ok a' =>
      cases h
      exact ⟨f', a', rfl, rfl, rfl⟩

/-- Where a check succeeds does not matter to what it gives. -/
theorem Checked.under_eq_ok {step : Step} {a : Checked α} {b : α} (h : Checked.under step a = .ok b) :
    a = .ok b := by
  cases a with
  | error issues => cases h
  | ok a' => exact h

/-- The entries of a map pass if each key is a text and each value passes. -/
theorem entriesOf_eq_ok_iff {check : Datum → Checked α} {entries : List (Datum × Datum)} {found : List (String × α)} :
    entriesOf check entries = .ok found ↔
      List.Forall₂ (fun entry each => entry.1 = .text each.1 ∧ check entry.2 = .ok each.2) entries found := by
  induction entries generalizing found with
  | nil => exact ⟨fun h => (by cases h; exact .nil), fun h => (by cases h; rfl)⟩
  | cons entry entries ih =>
    obtain ⟨key, value⟩ := entry
    constructor
    · intro h
      obtain ⟨f, rest, hf, hrest, rfl⟩ := Checked.ap_eq_ok h
      obtain ⟨g, a, hg, ha, rfl⟩ := Checked.ap_eq_ok hf
      -- a key that is no text is refused, whatever stands under it
      cases key with
      | text name =>
        cases hg
        exact .cons ⟨rfl, Checked.under_eq_ok ha⟩ (ih.1 hrest)
      | _ => cases hg
    · rintro (_ | ⟨⟨rfl, ha⟩, hrest⟩)
      rw [entriesOf, ih.2 hrest]
      dsimp only at ha ⊢
      rw [ha]
      rfl

/-- A map with string keys is one in which every key is a string and every value reads. -/
theorem textMap_eq_ok_iff {check : Datum → Checked α} {d : Datum} {found : List (String × α)} :
    textMap check d = .ok found ↔
      ∃ entries, d = .map entries ∧
        List.Forall₂ (fun entry each => entry.1 = .text each.1 ∧ check entry.2 = .ok each.2) entries found := by
  cases d with
  | map entries =>
    refine entriesOf_eq_ok_iff.trans ⟨fun h => ⟨entries, rfl, h⟩, ?_⟩
    rintro ⟨_, ⟨⟩, h⟩
    exact h
  | _ =>
    refine ⟨fun h => (by cases h), ?_⟩
    rintro ⟨_, ⟨⟩, _⟩

/-- What passes as a text that is not empty is one. -/
theorem nonemptyString_eq_ok {d : Datum} {text : String} (h : nonemptyString d = .ok text) :
    d = .text text ∧ text.isEmpty = false := by
  unfold nonemptyString at h
  split at h
  · split at h
    · cases h
    · next hempty =>
      cases h
      exact ⟨rfl, Bool.eq_false_iff.2 hempty⟩
  · cases h

variable {fields other : List (Datum × Datum)} {name : String} {check : Datum → Checked α}

/-- A required field passes if it is there and what it holds passes. -/
theorem required_eq_ok {a : α} (h : required fields name check = .ok a) :
    ∃ d, Datum.get? name fields = some d ∧ check d = .ok a := by
  unfold required at h
  split at h
  · next d hd => exact ⟨d, hd, Checked.under_eq_ok h⟩
  · cases h

/-- A required field depends on nothing but what is under its name. -/
theorem required_congr (h : Datum.get? name other = Datum.get? name fields) :
    required other name check = required fields name check := by
  rw [required, required, h]

/-- A field with a default depends on nothing but what is under its name. -/
theorem withDefault_congr {default : α} (h : Datum.get? name other = Datum.get? name fields) :
    withDefault other name default check = withDefault fields name default check := by
  rw [withDefault, withDefault, h]

/-- A field that may be null is read as nothing where it is null or absent. -/
theorem withDefault_optional_none (h : ∀ d, Datum.get? name fields = some d → d = .null) :
    withDefault fields name none (optional check) = .ok none := by
  unfold withDefault
  split
  · next d hd =>
    rw [h d hd]
    rfl
  · rfl

/-- An integer that is at least one is not null. -/
theorem withDefault_optional_positive {d : Datum} {n : Int} (h : Datum.get? name fields = some d)
    (hn : positive d = .ok n) : withDefault fields name none (optional positive) = .ok (some n) := by
  rw [withDefault, h]
  cases d with
  | null => cases hn
  | bool _ | int _ | decimal _ | text _ | list _ | map _ =>
    dsimp only [optional]
    rw [hn]
    rfl

end Payload

/-! ### Fields -/

/-- Whether the fields of a request read as they should. -/
structure RequestFields.Reads (fields : List (Datum × Datum)) (f : RequestFields) : Prop where
  pattern : required fields "pattern" nonemptyString = .ok f.pattern
  graph : withDefault fields "graph" none (optional GraphData.check) = .ok f.graph
  bracketed : withDefault fields "notation" none (optional string) = .ok f.bracketed
  bindings : withDefault fields "bindings" [] (textMap integer) = .ok f.bindings
  hierarchy : withDefault fields "taxonomy" none (optional (textMap (listOf string))) = .ok f.hierarchy
  settings : withDefault fields "settings" (.map []) anyMap = .ok f.settings
  limit : withDefault fields "limit" none (optional positive) = .ok f.limit

variable {fields limited : List (Datum × Datum)} {f : RequestFields}

/-- The fields of a request pass just if they are what their checks make of them. -/
theorem RequestFields.check_eq_ok_iff : RequestFields.check fields = .ok f ↔ f.Reads fields := by
  constructor
  · intro h
    unfold RequestFields.check at h
    obtain ⟨f₆, limit, h₆, hlimit, rfl⟩ := Checked.ap_eq_ok h
    obtain ⟨f₅, settings, h₅, hsettings, rfl⟩ := Checked.ap_eq_ok h₆
    obtain ⟨f₄, hierarchy, h₄, hhierarchy, rfl⟩ := Checked.ap_eq_ok h₅
    obtain ⟨f₃, bindings, h₃, hbindings, rfl⟩ := Checked.ap_eq_ok h₄
    obtain ⟨f₂, bracketed, h₂, hbracketed, rfl⟩ := Checked.ap_eq_ok h₃
    obtain ⟨f₁, graph, h₁, hgraph, rfl⟩ := Checked.ap_eq_ok h₂
    obtain ⟨pattern, hpattern, rfl⟩ := Steps.map_eq_ok h₁
    exact ⟨hpattern, hgraph, hbracketed, hbindings, hhierarchy, hsettings, hlimit⟩
  · rintro ⟨hpattern, hgraph, hbracketed, hbindings, hhierarchy, hsettings, hlimit⟩
    rw [RequestFields.check, hpattern, hgraph, hbracketed, hbindings, hhierarchy, hsettings, hlimit]
    rfl

/-- With a limit, and all other fields as they are, the fields of a request read as before. -/
theorem RequestFields.Reads.withLimit (h : f.Reads fields) {d : Datum} {limit : Int}
    (hd : Datum.get? "limit" limited = some d) (hlimit : positive d = .ok limit)
    (hothers : ∀ name, name ≠ "limit" → Datum.get? name limited = Datum.get? name fields) :
    RequestFields.Reads limited { f with limit := some limit } where
  pattern := (required_congr (hothers _ (by decide))).trans h.pattern
  graph := (withDefault_congr (hothers _ (by decide))).trans h.graph
  bracketed := (withDefault_congr (hothers _ (by decide))).trans h.bracketed
  bindings := (withDefault_congr (hothers _ (by decide))).trans h.bindings
  hierarchy := (withDefault_congr (hothers _ (by decide))).trans h.hierarchy
  settings := (withDefault_congr (hothers _ (by decide))).trans h.settings
  limit := withDefault_optional_positive hd hlimit

namespace MatchRequest

variable {request : Datum} {r : MatchRequest}

/-- A request passes its checks if all its fields read as they should and its graph is given once. -/
theorem check_eq_ok_iff :
    MatchRequest.check request = .ok r ↔
      ∃ fields f source, request = .map fields ∧ RequestFields.Reads fields f ∧ f.source? = some source ∧
        r = ⟨f.pattern, source, f.bindings, f.hierarchy, f.settings, f.limit.map Int.toNat⟩ := by
  constructor
  · intro h
    unfold MatchRequest.check at h
    split at h
    · next fields =>
      -- the fields are checked first, and what the graph is read from afterwards
      obtain ⟨f, hf, h⟩ := Steps.bind_eq_ok h
      split at h
      · next source hsource =>
        cases h
        exact ⟨fields, f, source, rfl, RequestFields.check_eq_ok_iff.1 hf, hsource, rfl⟩
      · cases h
    · cases h
  · rintro ⟨fields, f, source, rfl, hf, hsource, rfl⟩
    rw [MatchRequest.check, RequestFields.check_eq_ok_iff.2 hf, Steps.ok_bind, hsource]
    rfl

/-- A request that passes has the pattern as its field, and it is not empty. -/
theorem patternField_of_check (h : MatchRequest.check request = .ok r) :
    patternField request = .text r.pattern ∧ (patternField request).isEmptyish = false := by
  obtain ⟨fields, f, source, rfl, hf, -, rfl⟩ := check_eq_ok_iff.1 h
  obtain ⟨d, hd, htext⟩ := required_eq_ok hf.pattern
  obtain ⟨rfl, hempty⟩ := nonemptyString_eq_ok htext
  have hfield : patternField (.map fields) = .text f.pattern := by
    rw [patternField, hd, Option.getD_some]
  rw [hfield]
  exact ⟨rfl, hempty⟩

end MatchRequest

/-! ### Answers -/

variable [Text.CharacterNames] {files : Files} {request : Datum} {r : MatchRequest} {p : Pattern}

/-- A request that passes its checks and has a pattern is answered with the matches, or with what goes
wrong on the way to them. -/
theorem answerMatch_of_compile (hr : MatchRequest.check request = .ok r)
    (hp : Pattern.compile r.pattern = .ok p) :
    answerMatch files request = (r.matchesOf files p).map .done := by
  have hpattern := (MatchRequest.patternField_of_check hr).2
  rw [answerMatch, if_neg (by rw [hpattern]; decide), hr]
  dsimp only
  rw [MatchRequest.matches?, hp]

/-- Requests are answered with matches if they pass their checks, have a pattern and nothing goes wrong. -/
theorem answerMatch_eq_done_iff {found : Matches} :
    answerMatch files request = .ok (.done found) ↔
      ∃ r p, MatchRequest.check request = .ok r ∧ Pattern.compile r.pattern = .ok p ∧
        r.matchesOf files p = .ok found := by
  constructor
  · intro h
    -- of all the outcomes of a request only one has found something
    have hanswer := h
    unfold answerMatch at h
    split at h
    · cases h
    · split at h
      · cases h
      · next r hr =>
        unfold MatchRequest.matches? at h
        split at h
        · cases h
        · cases h
        · next p hp =>
          obtain ⟨found', hfound, hsame⟩ := Steps.map_eq_ok h
          cases hsame
          exact ⟨r, p, hr, hp, hfound⟩
  · rintro ⟨r, p, hr, hp, hfound⟩
    rw [answerMatch_of_compile hr hp, hfound]
    rfl

/-- With its graph and taxonomy at hand, a request has the records of a search for its matches. -/
theorem matchesOf_of_records {g : Graph} {t : Taxonomy}
    (hg : r.source.graph (Settings.ofDatum r.settings) = .ok g) (ht : r.taxonomy files = .ok t) :
    r.matchesOf files p =
      match records g r.limit (search p g t.predicate r.environment) with
      | .ok (found, truncated) => .ok ⟨p.render, found, truncated⟩
      | .error fault => .error (.search fault) := by
  rw [MatchRequest.matchesOf, hg, ht]
  show ((records g r.limit (search p g t.predicate r.environment)).mapError RequestFault.search >>=
    fun read => .ok (Matches.mk p.render read.1 read.2)) = _
  cases records g r.limit (search p g t.predicate r.environment) <;> rfl

/-- The matches of a request are the records of a search, with the pattern as it is written. -/
theorem matchesOf_eq_ok_iff {found : Matches} :
    r.matchesOf files p = .ok found ↔
      ∃ g t, r.source.graph (Settings.ofDatum r.settings) = .ok g ∧ r.taxonomy files = .ok t ∧
        records g r.limit (search p g t.predicate r.environment) = .ok (found.records, found.truncated) ∧
        found.pattern = p.render := by
  constructor
  · intro h
    unfold MatchRequest.matchesOf at h
    obtain ⟨g, hg, h⟩ := Steps.bind_eq_ok h
    obtain ⟨t, ht, h⟩ := Steps.bind_eq_ok h
    obtain ⟨⟨list, truncated⟩, hlist, h⟩ := Steps.bind_eq_ok h
    cases h
    exact ⟨g, t, Steps.mapError_eq_ok hg, Steps.mapError_eq_ok ht, Steps.mapError_eq_ok hlist, rfl⟩
  · rintro ⟨g, t, hg, ht, hrecords, hpattern⟩
    rw [matchesOf_of_records hg ht, hrecords, ← hpattern]

end DependencyQuery
