import Mathlib.Data.List.Basic

/-!
Loops that may fail, as folds in `Except`, and statements about two runs.

A rule about a loop speaks of a run that returned: what is known of every step
that returned is then known of the whole list.
-/

universe u v w

namespace Fallible

variable {ε : Type u} {σ α β γ : Type v} {step : σ → α → Except ε σ}

theorem bind_ok {x : Except ε σ} {f : σ → Except ε α} {a : α} (h : (x >>= f) = .ok a) :
    ∃ s, x = .ok s ∧ f s = .ok a := by
  cases x with
  | error e => exact nomatch h
  | ok s => exact ⟨s, rfl, h⟩

theorem foldlM_cons_ok {x : α} {xs : List α} {s s' : σ}
    (h : (x :: xs).foldlM step s = .ok s') :
    ∃ mid, step s x = .ok mid ∧ xs.foldlM step mid = .ok s' := by
  rw [List.foldlM_cons] at h
  exact bind_ok h

/-- A loop invariant, about the items that are done and the state. -/
theorem foldlM_induct {motive : List α → σ → Prop} {s : σ} (start : motive [] s)
    (keeps : ∀ done s x s', motive done s → step s x = .ok s' → motive (done ++ [x]) s')
    {xs : List α} {s' : σ} (h : xs.foldlM step s = .ok s') : motive xs s' := by
  suffices run : ∀ xs done s, motive done s → xs.foldlM step s = .ok s' → motive (done ++ xs) s' by
    simpa using run xs [] s start h
  intro xs
  induction xs with
  | nil =>
      intro done s so h
      cases h
      simpa using so
  | cons x xs ih =>
      intro done s so h
      obtain ⟨mid, first, rest⟩ := foldlM_cons_ok h
      simpa using ih (done ++ [x]) mid (keeps done s x mid so first) rest

/-- What each step appends to a view of the state, the loop appends in order. -/
theorem foldlM_collects (view : σ → List β) {items : α → List β}
    (appends : ∀ s x s', step s x = .ok s' → view s' = view s ++ items x)
    {xs : List α} {s s' : σ} (h : xs.foldlM step s = .ok s') :
    view s' = view s ++ xs.flatMap items := by
  refine foldlM_induct (motive := fun done next => view next = view s ++ done.flatMap items)
    (by simp) (fun done mid x next so stepped => ?_) h
  rw [appends mid x next stepped, so, List.flatMap_append, List.append_assoc]
  simp

/-- What every step that returns requires of its item holds of all items. -/
theorem foldlM_requires {p : α → Prop} (requires : ∀ s x s', step s x = .ok s' → p x)
    {xs : List α} {s s' : σ} (h : xs.foldlM step s = .ok s') : ∀ x ∈ xs, p x := by
  refine foldlM_induct (motive := fun done _ => ∀ x ∈ done, p x) (by simp)
    (fun done mid x next so stepped y mem => ?_) h
  rcases List.mem_append.mp mem with before | last
  · exact so y before
  · rw [List.mem_singleton.mp last]
    exact requires mid x next stepped

/-- A loop returns when every step does, whatever the state. -/
theorem foldlM_returns (step : σ → α → Except ε σ) {xs : List α}
    (returns : ∀ s, ∀ x ∈ xs, ∃ s', step s x = .ok s') (s : σ) :
    ∃ s', xs.foldlM step s = .ok s' := by
  induction xs generalizing s with
  | nil => exact ⟨s, rfl⟩
  | cons x xs ih =>
      obtain ⟨mid, first⟩ := returns s x List.mem_cons_self
      obtain ⟨last, rest⟩ := ih (fun s y mem => returns s y (List.mem_cons_of_mem x mem)) mid
      refine ⟨last, ?_⟩
      rw [List.foldlM_cons, first]
      exact rest

section TwoRuns

variable {ω α β γ δ : Type*}

/-- Runs on inputs that agree show the same, whatever each of them draws. -/
def Noninterferent (agree : α → α → Prop) (run : ω → α → Except ε β) (view : β → γ) : Prop :=
  ∀ draw draw' a b x y, agree a b → run draw a = .ok x → run draw' b = .ok y → view x = view y

/-- A view that is told from the part of the input on which the runs agree. -/
theorem noninterferent_of_factor {agree : α → α → Prop} {run : ω → α → Except ε β} {view : β → γ}
    (part : α → δ) (told : δ → γ) (same : ∀ a b, agree a b → part a = part b)
    (factors : ∀ draw a x, run draw a = .ok x → view x = told (part a)) :
    Noninterferent agree run view := by
  intro draw draw' a b x y agreed ran ran'
  rw [factors draw a x ran, factors draw' b y ran', same a b agreed]

end TwoRuns

end Fallible
