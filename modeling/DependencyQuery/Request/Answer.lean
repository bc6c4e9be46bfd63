import DependencyQuery.Graph.Notation.Reader
import DependencyQuery.Pattern.Render
import DependencyQuery.Request.Basic
import DependencyQuery.Search.Record
import DependencyQuery.Taxonomy.File

namespace DependencyQuery

open Payload

/-!
# Answering requests

* `MatchRequest.matches?` — the matches that a request asks for;
* `answerMatch`, `answerRender`, `answerValidate` — from a request as data to the answer: matches, the
  canonical text of a pattern, or whether a text is a pattern.

A malformed pattern is part of an answer; whatever else is wrong with a request means that there is
none.
-/

/-- Why a request has no answer. -/
inductive RequestFault where
  | noPattern
  | invalid (issues : List Issue)
  | beyond (limit : Regex.Limit)
  | graph (refusal : Graph.Refusal)
  | taxonomy (fault : Taxonomy.LoadFault)
  | search (fault : RecordFault)

/-- The answer to a request. -/
inductive Answer (α : Type) where
  | done (result : α)
  /-- The text is no pattern. -/
  | malformed (text : String) (error : Pattern.Malformed)

/-- Matches, with the pattern in its canonical form. -/
structure Matches where
  pattern : String
  records : List MatchRecord
  /-- Whether the limit leaves out matches. -/
  truncated : Bool

/-- The number of matches that are reported. -/
def Matches.count (m : Matches) : Nat := m.records.length

/-- The message for a request without a pattern. -/
def noPatternMessage : String := "Missing 'pattern' field"

/-! ### Matches -/

/-- The graph of a request. -/
def GraphSource.graph (settings : Settings) : GraphSource → Except Graph.Refusal Graph
  | data graph => Graph.ofData settings graph
  | bracketed text => Graph.ofNotation settings text

variable [Text.CharacterNames]

namespace MatchRequest

/-- The taxonomy of a request. -/
def taxonomy (r : MatchRequest) (files : Files) : Except Taxonomy.LoadFault Taxonomy :=
  match r.hierarchy with
  | some entries => (Taxonomy.ofHierarchy (hierarchyDatum entries)).mapError .hierarchy
  | none => (Taxonomy.ofSettings files (Settings.ofDatum r.settings)).map (·.taxonomy)

/-- The environment from which the search sets out. -/
def environment (r : MatchRequest) : Environment :=
  r.bindings.map fun (name, index) => (name, .index index)

/-- The matches of the request, once its pattern has been compiled. -/
def matchesOf (r : MatchRequest) (files : Files) (p : Pattern) : Except RequestFault Matches := do
  let g ← (r.source.graph (Settings.ofDatum r.settings)).mapError .graph
  let t ← (r.taxonomy files).mapError .taxonomy
  let (found, truncated) ←
    (records g r.limit (search p g t.predicate r.environment)).mapError .search
  return ⟨p.render, found, truncated⟩

/-- The matches that the request asks for. -/
def matches? (r : MatchRequest) (files : Files) : Except RequestFault (Answer Matches) :=
  match Pattern.compile r.pattern with
  | .error (.malformed e) => .ok (.malformed r.pattern e)
  | .error (.beyond limit) => .error (.beyond limit)
  | .ok p => (r.matchesOf files p).map .done

end MatchRequest

/-- The field that holds the pattern of a request. -/
def patternField (request : Datum) : Datum :=
  match request with
  | .map fields => (Datum.get? "pattern" fields).getD .null
  | _ => .null

/-- Answers a request for matches. -/
def answerMatch (files : Files) (request : Datum) : Except RequestFault (Answer Matches) :=
  if (patternField request).isEmptyish then .error .noPattern
  else
    match MatchRequest.check request with
    | .error issues => .error (.invalid issues)
    | .ok r => r.matches? files

/-! ### Texts of patterns -/

/-- A pattern's canonical text, and its names. -/
structure Rendering where
  pattern : String
  names : List String

/-- The text that a request has for a pattern; what is no text counts as an empty one. -/
def patternText : Datum → String
  | .text s => s
  | _ => ""

/-- Answers a request for the canonical text of a pattern. -/
def answerRender (request : Datum) : Except RequestFault (Answer Rendering) :=
  let field := patternField request
  let text := patternText field
  if field.isEmptyish then .error .noPattern
  else
    match Pattern.compile text with
    | .error (.malformed e) => .ok (.malformed text e)
    | .error (.beyond limit) => .error (.beyond limit)
    | .ok p => .ok (.done ⟨p.render, p.names⟩)

/-- Answers whether the text in a request is a pattern: what is wrong with it, if anything is. -/
def answerValidate (request : Datum) : Except RequestFault (Option Pattern.Malformed) :=
  match patternField request with
  | .null => .error .noPattern
  | field => (Pattern.validate (patternText field)).mapError .beyond

end DependencyQuery
