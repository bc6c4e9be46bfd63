import DependencyQuery.Proofs.Notation.Reading
import DependencyQuery.Proofs.Settings.Alike

namespace DependencyQuery.Graph

open Steps (foldlM_related)

/-!
# Readings side by side

A text in bracket notation may be read under two settings.  As far as neither of the readings fails, they
take the same steps.

* `Reading.Beside` — two readings that have come equally far, with graphs that are alike;
* `Alike.nodeOf`, `Beside.delivers`, `Beside.reads` — they stay so with a word, with an item that has been
  read, and with any token;
* `alike_of_ofNotation` — and so the graphs that a text writes are alike under any two settings.
-/

variable {settings other : Settings} {g h g' h' : Graph} {m n : Node} {run : List Char}

/-- Graphs that are alike have the same next index. -/
theorem Alike.nextIndex (hgh : Alike settings other g h) : nextIndex h = nextIndex g := by
  rw [Graph.nextIndex, Graph.nextIndex, hgh.nodes]

/-- In graphs that are alike, a word stands for the same node. -/
theorem Alike.nodeOf (hgh : Alike settings other g h) (hg : nodeOf g run = .ok (n, g'))
    (hh : nodeOf h run = .ok (m, h')) : m = n ∧ Alike settings other g' h' := by
  rcases nodeOf_eq_ok_iff.1 hg with ⟨k, hk, rfl, hmem, -, rfl⟩ | ⟨rfl, hnew, hadd⟩
  · rcases nodeOf_eq_ok_iff.1 hh with ⟨k', hk', rfl, -, -, rfl⟩ | ⟨rfl, hnew, -⟩
    · rw [hk] at hk'
      cases hk'
      exact ⟨rfl, hgh⟩
    · rw [hk, hgh.mem_iff] at hnew
      exact absurd hmem hnew
  · rw [← hgh.nextIndex, ← hgh.mem_iff] at hnew
    rcases nodeOf_eq_ok_iff.1 hh with ⟨k', hk', rfl, hmem, -, rfl⟩ | ⟨rfl, -, hadd'⟩
    · rw [hk'] at hnew
      exact absurd hmem hnew
    · rw [hgh.nextIndex] at hadd' ⊢
      exact ⟨rfl, hgh.addNode? hadd hadd'⟩

/-- Whether two readings have come equally far. -/
structure Reading.Beside (settings other : Settings) (r q : Reading) : Prop where
  graph : Alike settings other r.graph q.graph
  items : q.items = r.items
  frames : q.frames = r.frames

variable {items : List Node} {frames : List Frame} {t : Token} {r q : Reading}

/-- An item is delivered alike to graphs that are alike. -/
theorem Alike.delivers (hgh : Alike settings other g h) (hr : Delivers ⟨g, items, frames⟩ n r)
    (hq : Delivers ⟨h, items, frames⟩ n q) : Reading.Beside settings other r q := by
  cases hr with
  | attach _ hadd =>
    cases hq with
    | attach _ hadd' => exact ⟨hgh.addEdge? hadd hadd', rfl, rfl⟩
    | list hfree => exact absurd rfl (hfree _ _ _)
  | list hfree =>
    cases hq with
    | attach _ _ => exact absurd rfl (hfree _ _ _)
    | list _ => exact ⟨hgh, rfl, rfl⟩

/-- A token takes two readings that have come equally far equally further. -/
theorem Alike.reads (hgh : Alike settings other g h) (hr : Reads ⟨g, items, frames⟩ t r)
    (hq : Reads ⟨h, items, frames⟩ t q) : Reading.Beside settings other r q := by
  -- token and frames are the same, and they tell which rule applies to both readings
  cases hr with
  | opening _ =>
    cases hq with
    | opening _ => exact ⟨hgh, rfl, rfl⟩
  | head hnode =>
    cases hq with
    | head hnode' =>
      obtain ⟨rfl, halike⟩ := hgh.nodeOf hnode hnode'
      exact ⟨halike, rfl, rfl⟩
    | item hawaits _ _ => exact absurd rfl (hawaits.1 _)
  | closing hdelivers =>
    cases hq with
    | closing hdelivers' => exact hgh.delivers hdelivers hdelivers'
  | label hsplit =>
    cases hq with
    | label hsplit' =>
      rw [hsplit] at hsplit'
      cases hsplit'
      exact ⟨hgh, rfl, rfl⟩
    | entry hsplit' hbare _ _ _ =>
      rw [hsplit] at hsplit'
      cases hsplit'
      exact absurd rfl hbare
    | item hawaits _ _ => exact absurd rfl (hawaits.2 _ _)
  | entry hsplit hbare hnode _ hadd =>
    cases hq with
    | label hsplit' =>
      rw [hsplit] at hsplit'
      cases hsplit'
      exact absurd rfl hbare
    | entry hsplit' _ hnode' _ hadd' =>
      rw [hsplit] at hsplit'
      cases hsplit'
      obtain ⟨rfl, halike⟩ := hgh.nodeOf hnode hnode'
      exact ⟨halike.addEdge? hadd hadd', rfl, rfl⟩
    | item hawaits _ _ => exact absurd rfl (hawaits.2 _ _)
  | item hawaits hnode hdelivers =>
    cases hq with
    | head _ => exact absurd rfl (hawaits.1 _)
    | label _ => exact absurd rfl (hawaits.2 _ _)
    | entry _ _ _ _ _ => exact absurd rfl (hawaits.2 _ _)
    | item _ hnode' hdelivers' =>
      obtain ⟨rfl, halike⟩ := hgh.nodeOf hnode hnode'
      exact halike.delivers hdelivers hdelivers'

/-- A token keeps readings beside each other. -/
theorem Reading.Beside.step {r' q' : Reading} (hrq : Reading.Beside settings other r q)
    (hr : r.step t = .ok r') (hq : q.step t = .ok q') : Reading.Beside settings other r' q' := by
  obtain ⟨h, items, frames⟩ := q
  obtain ⟨hgh, rfl, rfl⟩ := hrq
  exact hgh.reads (step_eq_ok_iff.1 hr) (step_eq_ok_iff.1 hq)

/-- The graphs that a text writes under any two settings are alike. -/
theorem alike_of_ofNotation {text : String} (hg : ofNotation settings text = .ok g)
    (hh : ofNotation other text = .ok h) : Alike settings other g h := by
  obtain ⟨-, g', items, hread, rfl⟩ := ofNotation_eq_ok_iff.1 hg
  obtain ⟨-, h', items', hread', rfl⟩ := ofNotation_eq_ok_iff.1 hh
  have hbeside : Reading.Beside settings other ⟨g', items, []⟩ ⟨h', items', []⟩ := by
    refine foldlM_related (R := Reading.Beside settings other) ?_ ?_ hread hread'
    · intro _ _ _ _ _ hrq hr hq
      exact hrq.step hr hq
    · exact ⟨alike_empty settings other, rfl, rfl⟩
  exact hbeside.graph.setRoots items items'

end DependencyQuery.Graph
