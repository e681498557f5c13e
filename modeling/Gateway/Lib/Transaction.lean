import Mathlib.Init

/-!
All-or-nothing transactions over a state.

A body runs on the state and may throw after writing; the store then commits
or rolls back. The store has three outcomes of its own: it can fail at any
point up to the commit, which undoes everything, and it can commit and lose
the acknowledgement, in which case the caller sees a fault although the writes
are durable.
-/

universe u v w

inductive Commit where
  | committed
  | aborted
  | unacknowledged
deriving DecidableEq, Repr

namespace Transaction

variable {σ : Type u} {ε : Type v} {β : Type w}

/-- `fault` is what the caller sees when the store fails or does not
acknowledge. A body that throws is rolled back whatever the store does. -/
def atomically (fault : ε) (commit : Commit) (work : σ → Except ε β × σ) (s : σ) :
    Except ε β × σ :=
  match commit, work s with
  | .aborted, _ => (.error fault, s)
  | _, (.error e, _) => (.error e, s)
  | .committed, (.ok b, s') => (.ok b, s')
  | .unacknowledged, (.ok _, s') => (.error fault, s')

variable {fault : ε} {commit : Commit} {work : σ → Except ε β × σ} {s : σ}

/-- A transaction throws and leaves the state alone, or commits a body that
returned, whether or not its caller is told. -/
theorem atomically_cases (fault : ε) (commit : Commit) (work : σ → Except ε β × σ) (s : σ) :
    ((atomically fault commit work s).2 = s ∧
        ∃ e, (atomically fault commit work s).1 = .error e) ∨
      ∃ b, work s = (.ok b, (atomically fault commit work s).2) ∧
        ((atomically fault commit work s).1 = .ok b ∨
          (atomically fault commit work s).1 = .error fault) := by
  simp only [atomically]
  split
  · exact .inl ⟨rfl, fault, rfl⟩
  · exact .inl ⟨rfl, _, rfl⟩
  · next b s' returned => exact .inr ⟨b, returned, .inl rfl⟩
  · next b s' returned => exact .inr ⟨b, returned, .inr rfl⟩

/-- A body that throws, or a store that fails before the commit, undoes every
write. -/
theorem atomically_error {e : ε} (acknowledged : commit ≠ .unacknowledged)
    (h : (atomically fault commit work s).1 = .error e) :
    (atomically fault commit work s).2 = s := by
  unfold atomically at h ⊢
  split at h
  · rfl
  · rfl
  · contradiction
  · exact absurd rfl acknowledged

theorem atomically_of_ok {b : β} {s' : σ} (returned : work s = (.ok b, s')) :
    atomically fault .committed work s = (.ok b, s') := by
  simp only [atomically, returned]

theorem atomically_of_error {e : ε} {s' : σ} (thrown : work s = (.error e, s')) :
    atomically fault .committed work s = (.error e, s) := by
  simp only [atomically, thrown]

end Transaction
