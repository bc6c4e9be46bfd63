import Mathlib.Data.List.Basic

namespace DependencyQuery.Steps

/-!
# Steps that may fail

* `bind_eq_ok` — two steps in a row give a result only where both of them do, `bind_eq_error` — and fail where
  one of them does; `map_eq_ok`, `mapError_eq_ok` — what a result or a failure is turned into afterwards;
* `foldlM_invariant` — what every step preserves holds after all of them;
* `foldlM_established` — so does what each step brings about and no other undoes;
* `foldlM_failure` — a run fails as one of its steps does;
* `foldlM_related` — two runs over the same items stay related, if each step keeps them so.
-/

variable {ε α β σ : Type}

/-- A step that succeeds hands its value on. -/
@[simp] theorem ok_bind (a : α) (f : α → Except ε β) : (Except.ok a >>= f) = f a := rfl

/-- Two steps that succeed together succeed one after the other. -/
theorem bind_eq_ok {x : Except ε α} {f : α → Except ε β} {b : β} (h : x >>= f = .ok b) :
    ∃ a, x = .ok a ∧ f a = .ok b := by
  cases x with
  | error e => cases h
  | ok a => exact ⟨a, rfl, h⟩

/-- If two steps fail together, either the first one does, or it succeeds and the second one fails. -/
theorem bind_eq_error {x : Except ε α} {f : α → Except ε β} {e : ε} (h : x >>= f = .error e) :
    x = .error e ∨ ∃ a, x = .ok a ∧ f a = .error e := by
  cases x with
  | error e' =>
    cases h
    exact .inl rfl
  | ok a => exact .inr ⟨a, rfl, h⟩

/-- A mapped value comes from a value. -/
theorem map_eq_ok {f : α → β} {x : Except ε α} {b : β} (h : x.map f = .ok b) : ∃ a, x = .ok a ∧ b = f a := by
  cases x with
  | error e => cases h
  | ok a =>
    cases h
    exact ⟨a, rfl, rfl⟩

/-- A success does not depend on how failures are told. -/
theorem mapError_eq_ok {δ : Type} {f : ε → δ} {x : Except ε α} {a : α} (h : x.mapError f = .ok a) :
    x = .ok a := by
  cases x with
  | error e => cases h
  | ok a' =>
    cases h
    rfl

/-- What each step preserves holds after a run, if it holds before. -/
theorem foldlM_invariant {P : σ → Prop} {step : σ → α → Except ε σ} {items : List α} {s s' : σ}
    (hstep : ∀ item ∈ items, ∀ {s s' : σ}, P s → step s item = .ok s' → P s') (hs : P s)
    (h : items.foldlM step s = .ok s') : P s' := by
  induction items generalizing s with
  | nil =>
    cases h
    exact hs
  | cons item items ih =>
    rw [List.forall_mem_cons] at hstep
    rw [List.foldlM_cons] at h
    obtain ⟨next, hnext, h⟩ := bind_eq_ok h
    exact ih hstep.2 (hstep.1 hs hnext) h

/-- What a step brings about for its item and all further steps preserve holds for each item after a run. -/
theorem foldlM_established {Q : α → σ → Prop} {step : σ → α → Except ε σ} {items : List α} {s s' : σ}
    (hstep : ∀ item ∈ items, ∀ {s s' : σ}, step s item = .ok s' → Q item s')
    (hkeep : ∀ item other, ∀ {s s' : σ}, Q item s → step s other = .ok s' → Q item s')
    (h : items.foldlM step s = .ok s') : ∀ item ∈ items, Q item s' := by
  induction items generalizing s with
  | nil => exact List.forall_mem_nil _
  | cons item items ih =>
    rw [List.forall_mem_cons] at hstep ⊢
    rw [List.foldlM_cons] at h
    obtain ⟨next, hnext, h⟩ := bind_eq_ok h
    exact ⟨foldlM_invariant (fun other _ => hkeep item other) (hstep.1 hnext) h, ih hstep.2 h⟩

/-- What each failing step tells of its failure is told of the failure of a run. -/
theorem foldlM_failure {Q : ε → Prop} {step : σ → α → Except ε σ} {items : List α} {s : σ} {e : ε}
    (hstep : ∀ item ∈ items, ∀ {s : σ} {e : ε}, step s item = .error e → Q e)
    (h : items.foldlM step s = .error e) : Q e := by
  induction items generalizing s with
  | nil => cases h
  | cons item items ih =>
    rw [List.forall_mem_cons] at hstep
    rw [List.foldlM_cons] at h
    rcases bind_eq_error h with h | ⟨next, -, h⟩
    · exact hstep.1 h
    · exact ih hstep.2 h

/-- Two runs over the same items end in related states, if they begin in such and every step leads from such to
such. -/
theorem foldlM_related {τ : Type} {R : σ → τ → Prop} {step : σ → α → Except ε σ}
    {other : τ → α → Except ε τ} {items : List α} {s s' : σ} {t t' : τ}
    (hstep : ∀ item, ∀ {s s' : σ} {t t' : τ}, R s t → step s item = .ok s' → other t item = .ok t' → R s' t')
    (hst : R s t) (h : items.foldlM step s = .ok s') (h' : items.foldlM other t = .ok t') : R s' t' := by
  induction items generalizing s t with
  | nil =>
    cases h
    cases h'
    exact hst
  | cons item items ih =>
    rw [List.foldlM_cons] at h h'
    obtain ⟨next, hnext, h⟩ := bind_eq_ok h
    obtain ⟨next', hnext', h'⟩ := bind_eq_ok h'
    exact ih (hstep item hst hnext hnext') h h'

end DependencyQuery.Steps
