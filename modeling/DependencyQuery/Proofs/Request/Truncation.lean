import DependencyQuery.Proofs.Pattern.RoundTrip
import DependencyQuery.Proofs.Request.Fields
import DependencyQuery.Proofs.Search.Sessions

namespace DependencyQuery

open Payload

/-!
# Requests with a limit

A limit cuts the matches of a request short and changes nothing else about them.

* `Finding.told` — what is told of a result whose nodes are all in the graph;
* `exists_ofList_of_records` — where there are records without a limit, the search comes to its end, and its
  results are told in their order; `records_ofList` — with a limit the first of them are, and it shows whether
  there are others;
* `answerMatch_limited` — so a request with a limit is answered with the first matches of all, and says
  whether there are more.
-/

/-- A node of the graph with its word. -/
def Graph.told (g : Graph) (n : Node) : NodeRecord := ⟨n, g.word n⟩

/-- What is told of a result: the words of its root and of the nodes that names are bound to. -/
def Finding.told (f : Finding) (g : Graph) : MatchRecord :=
  ⟨g.told f.root, f.bindings.map fun binding => (binding.1, g.told binding.2)⟩

variable {g : Graph}

/-! ### Records -/

/-- The record of a node tells what the graph holds of it. -/
theorem Graph.record_eq_ok {n : Node} {record : NodeRecord} (h : g.record n = .ok record) :
    record = g.told n := by
  obtain ⟨word, hword, h⟩ := Steps.bind_eq_ok h
  cases h
  rw [told, (ask_eq_ok.1 hword).2]

/-- The records of bindings tell what the graph holds of each of their nodes. -/
theorem Graph.recordAll_eq_ok {env : Environment} {told : List (String × NodeRecord)}
    (h : g.recordAll env = .ok told) : told = env.map fun binding => (binding.1, g.told binding.2) := by
  induction env generalizing told with
  | nil =>
    cases h
    rfl
  | cons binding rest ih =>
    rw [Graph.recordAll] at h
    obtain ⟨record, hrecord, h⟩ := Steps.bind_eq_ok h
    obtain ⟨more, hmore, h⟩ := Steps.bind_eq_ok h
    cases h
    rw [ih hmore, record_eq_ok hrecord]
    rfl

/-- The record of a result tells what the graph holds of its nodes. -/
theorem Finding.record_eq_ok {f : Finding} {record : MatchRecord} (h : f.record g = .ok record) :
    record = f.told g := by
  obtain ⟨root, hroot, h⟩ := Steps.bind_eq_ok h
  obtain ⟨bindings, hbindings, h⟩ := Steps.bind_eq_ok h
  cases h
  rw [told, Graph.record_eq_ok hroot, Graph.recordAll_eq_ok hbindings]

/-- Where all records of a search are asked for and there are some, the search comes to its end, and each of
its results can be told. -/
theorem exists_ofList_of_records {found : Results SearchFault Finding} {list : List MatchRecord}
    {truncated : Bool} (h : records g none found = .ok (list, truncated)) :
    ∃ results : List Finding, found = .ofList results ∧ list = results.map (·.told g) ∧ truncated = false ∧
      ∀ f ∈ results, f.record g = .ok (f.told g) := by
  induction found generalizing list with
  | done =>
    cases h
    exact ⟨[], rfl, rfl, rfl, List.forall_mem_nil _⟩
  | failed e => cases h
  | next f rest ih =>
    -- a record that can be told is followed by the others, and one that cannot ends the run
    simp only [records] at h
    split at h
    · cases h
    · next record hrecord =>
      obtain ⟨⟨more, cut⟩, hmore, h⟩ := Steps.bind_eq_ok h
      cases h
      obtain ⟨results, hrest, rfl, rfl, hresults⟩ := ih () hmore
      have htold := Finding.record_eq_ok hrecord
      refine ⟨f :: results, ?_, ?_, rfl, List.forall_mem_cons.2 ⟨htold ▸ hrecord, hresults⟩⟩
      · rw [Results.ofList]
        exact congrArg _ (funext fun _ => hrest)
      · rw [htold, List.map_cons]

/-- With a limit, the first results are told, and whether there are others is known as soon as one more has been
found. -/
theorem records_ofList {results : List Finding} (h : ∀ f ∈ results, f.record g = .ok (f.told g))
    (limit : Nat) :
    records g (some limit) (.ofList results) =
      .ok ((results.take limit).map (·.told g), decide (limit < results.length)) := by
  induction results generalizing limit with
  | nil => rw [Results.ofList, records, List.take_nil]; rfl
  | cons f rest ih =>
    rw [List.forall_mem_cons] at h
    cases limit with
    | zero => rfl
    | succ limit =>
      simp only [Results.ofList, records, h.1, Option.map_some, Nat.add_sub_cancel, ih h.2, Steps.ok_bind,
        List.take_succ_cons, List.map_cons, List.length_cons, Nat.add_lt_add_iff_right]
      rfl

/-! ### Requests -/

variable {files : Files} {fields limited : List (Datum × Datum)} {found : Matches}

/-- A request passes its checks with a limit as it does without one. -/
theorem MatchRequest.check_limited {r : MatchRequest} (hr : MatchRequest.check (.map fields) = .ok r)
    {d : Datum} {limit : Nat} (hd : Datum.get? "limit" limited = some d)
    (hlimit : positive d = .ok (limit : Int))
    (hothers : ∀ name, name ≠ "limit" → Datum.get? name limited = Datum.get? name fields) :
    MatchRequest.check (.map limited) = .ok { r with limit := some limit } := by
  obtain ⟨_, f, source, ⟨⟩, hf, hsource, rfl⟩ := check_eq_ok_iff.1 hr
  exact check_eq_ok_iff.2 ⟨limited, _, source, rfl, hf.withLimit hd hlimit hothers, hsource, rfl⟩

/-- Without a limit, all matches are asked for. -/
theorem MatchRequest.limit_of_check {r : MatchRequest} (hr : MatchRequest.check (.map fields) = .ok r)
    (hunlimited : ∀ d, Datum.get? "limit" fields = some d → d = .null) : r.limit = none := by
  obtain ⟨_, f, source, ⟨⟩, hf, -, rfl⟩ := check_eq_ok_iff.1 hr
  have hlimit : f.limit = none := Except.ok.inj (hf.limit.symm.trans (withDefault_optional_none hunlimited))
  rw [hlimit]
  rfl

/-- **A limit takes the first matches, and tells whether there are more.**  Let a request without a limit be
answered with matches.  Then

* they are the results of the search for its pattern in its graph, from its bindings and with its taxonomy, as
  they are told, in their order; a cursor that moves through the search passes just these;
* the same request with a limit is answered as well, with as many of the first matches as the limit allows.  It
  is said that matches are left out just when there are more, and the pattern in the answer is compiled to
  the pattern of the request. -/
theorem answerMatch_limited [Text.CharacterNames] {d : Datum} {limit : Nat}
    (hunlimited : ∀ d, Datum.get? "limit" fields = some d → d = .null)
    (hanswer : answerMatch files (.map fields) = .ok (.done found))
    (hd : Datum.get? "limit" limited = some d) (hlimit : positive d = .ok (limit : Int))
    (hothers : ∀ name, name ≠ "limit" → Datum.get? name limited = Datum.get? name fields) :
    ∃ r p g t results,
      (MatchRequest.check (.map fields) = .ok r ∧ Pattern.compile r.pattern = .ok p ∧
        r.source.graph (Settings.ofDatum r.settings) = .ok g ∧ r.taxonomy files = .ok t) ∧
      (search p g t.predicate r.environment = .ofList results ∧
        (∀ count, (Cursor.findMany count (.start (search p g t.predicate r.environment))).1 =
          .ok (results.take count)) ∧
        found.records = results.map (·.told g) ∧ found.truncated = false) ∧
      ∃ cut, answerMatch files (.map limited) = .ok (.done cut) ∧
        cut.records = found.records.take limit ∧
        cut.count = min limit found.records.length ∧ cut.count = cut.records.length ∧
        (cut.truncated = true ↔ limit < found.records.length) ∧
        Pattern.compile cut.pattern = Pattern.compile r.pattern := by
  obtain ⟨r, p, hr, hp, hmatches⟩ := answerMatch_eq_done_iff.1 hanswer
  obtain ⟨g, t, hg, ht, hrecords, -⟩ := matchesOf_eq_ok_iff.1 hmatches
  rw [MatchRequest.limit_of_check hr hunlimited] at hrecords
  -- the request without a limit tells all that the search has found
  obtain ⟨results, hsearch, hfound, htruncated, htold⟩ := exists_ofList_of_records hrecords
  refine ⟨r, p, g, t, results, ⟨hr, hp, hg, ht⟩, ⟨hsearch, fun count => ?_, hfound, htruncated⟩,
    ⟨p.render, (results.take limit).map (·.told g), decide (limit < results.length)⟩, ?_, ?_, ?_, rfl, ?_, ?_⟩
  · rw [hsearch]
    exact ((Cursor.standsAt_start results).findMany count).1
  · -- the graph, the taxonomy and the search are those of the request without a limit
    refine answerMatch_eq_done_iff.2 ⟨_, p, MatchRequest.check_limited hr hd hlimit hothers, hp, ?_⟩
    refine matchesOf_eq_ok_iff.2 ⟨g, t, hg, ht, ?_, rfl⟩
    exact (congrArg (records g (some limit)) hsearch).trans (records_ofList htold limit)
  · rw [hfound, List.map_take]
  · rw [Matches.count, hfound, List.length_map, List.length_map, List.length_take]
  · rw [hfound, List.length_map]
    exact decide_eq_true_iff
  · rw [hp]
    exact compile_render_of_legible (Pattern.compile_legible hp)

/-- A word with two others below it. -/
def threeWords : Graph where
  entries := [(.index 1, [("word", some "a"), ("value", some "a")]),
    (.index 2, [("word", some "b"), ("value", some "b")]),
    (.index 3, [("word", some "c"), ("value", some "c")])]
  edges := [⟨.index 1, .index 2, some "obj"⟩, ⟨.index 1, .index 3, some "obj"⟩]
  declared := [.index 1]
  nodup := by decide
  closed := by decide

/-- A request for all words of that graph. -/
def wordsRequest : List (Datum × Datum) :=
  [(.text "pattern", .text "{}=x"), (.text "notation", .text "[a obj:b obj:c]")]

/-- A node that is found as `x`. -/
def wordAsX : Pattern := ⟨.node { name := some "x" } [], []⟩

/-- What is told of a word that is found as `x`. -/
def wordRecord (index : Int) (word : String) : MatchRecord :=
  ⟨⟨.index index, word⟩, [("x", ⟨.index index, word⟩)]⟩

/-- Of three words a limit of two, which may be given as a text, leaves out the last. -/
theorem answerMatch_limited_threeWords :
    (∀ d, Datum.get? "limit" wordsRequest = some d → d = .null) ∧
      answerMatch (FileTree.find {}) (.map wordsRequest) =
        .ok (.done ⟨wordAsX.render, [wordRecord 1 "a", wordRecord 2 "b", wordRecord 3 "c"], false⟩) ∧
      Datum.get? "limit" ((.text "limit", .text " +2") :: wordsRequest) = some (.text " +2") ∧
      positive (.text " +2") = .ok 2 ∧
      (∀ name, name ≠ "limit" →
        Datum.get? name ((.text "limit", .text " +2") :: wordsRequest) = Datum.get? name wordsRequest) ∧
      ∃ cut, answerMatch (FileTree.find {}) (.map ((.text "limit", .text " +2") :: wordsRequest)) = .ok (.done cut) ∧
        cut.records = [wordRecord 1 "a", wordRecord 2 "b"] ∧ cut.count = 2 ∧ cut.truncated = true := by
  have hunlimited : ∀ d, Datum.get? "limit" wordsRequest = some d → d = .null := by
    intro d hd
    cases hd
  have hcompile : Pattern.compile "{}=x" = .ok wordAsX := by decide +kernel
  have hcheck : MatchRequest.check (.map wordsRequest) =
      .ok ⟨"{}=x", .bracketed "[a obj:b obj:c]", [], none, .map [], none⟩ := rfl
  have hgraph : GraphSource.graph (Settings.ofDatum (.map [])) (.bracketed "[a obj:b obj:c]") =
      -- the search of this request runs by computation, the theorem does the rest
      .ok threeWords := rfl
  have hrecords : records threeWords none (search wordAsX threeWords Taxonomy.flat.predicate []) =
      .ok ([wordRecord 1 "a", wordRecord 2 "b", wordRecord 3 "c"], false) := rfl
  have hanswer : answerMatch (FileTree.find {}) (.map wordsRequest) =
      .ok (.done ⟨wordAsX.render, [wordRecord 1 "a", wordRecord 2 "b", wordRecord 3 "c"], false⟩) :=
    answerMatch_eq_done_iff.2 ⟨_, wordAsX, hcheck, hcompile,
      matchesOf_eq_ok_iff.2 ⟨threeWords, .flat, hgraph, rfl, hrecords, rfl⟩⟩
  have hlimit : positive (.text " +2") = .ok ((2 : Nat) : Int) := rfl
  have hothers : ∀ name, name ≠ "limit" →
      Datum.get? name ((.text "limit", .text " +2") :: wordsRequest) = Datum.get? name wordsRequest := by
    intro name hname
    exact if_neg hname.symm
  obtain ⟨r, p, g, t, results, -, -, cut, hcut, hfirst, hcount, -, htruncated, -⟩ :=
    answerMatch_limited hunlimited hanswer rfl hlimit hothers
  exact ⟨hunlimited, hanswer, rfl, hlimit, hothers, cut, hcut, hfirst, hcount, htruncated.2 (by decide)⟩

end DependencyQuery
