import Mathlib.Algebra.Order.Field.Basic
import Mathlib.Tactic.Linarith
import Mathlib.Tactic.Ring

/-!
Token buckets over any ordered field.

A bucket refills with the time that has passed since it was last used, up to its
capacity, and a call is allowed when the bucket covers its cost. A call that
reads an earlier clock than the last one refills nothing but moves the clock of
the bucket back, so what a run can refill is the total rise of the clock.
-/

universe u

namespace TokenBucket

variable {K : Type u} [Field K] [LinearOrder K]

structure Terms (K : Type u) where
  capacity : K
  rate : K
  cost : K

structure Bucket (K : Type u) where
  tokens : K
  ts : K

/-- What a call finds in the bucket; a bucket that is new is full. -/
def refilled (terms : Terms K) (now : K) : Option (Bucket K) → K
  | none => terms.capacity
  | some b => min terms.capacity (b.tokens + terms.rate * max 0 (now - b.ts))

def take (terms : Terms K) (now : K) (bucket : Option (Bucket K)) : Bool × Bucket K :=
  if terms.cost ≤ refilled terms now bucket then
    (true, ⟨refilled terms now bucket - terms.cost, now⟩)
  else (false, ⟨refilled terms now bucket, now⟩)

/-- The bucket after calls at these times, and how many were allowed. -/
def run (terms : Terms K) : Option (Bucket K) → List K → Nat × Option (Bucket K)
  | bucket, [] => (0, bucket)
  | bucket, now :: times =>
      let (allowed, next) := take terms now bucket
      let (later, last) := run terms (some next) times
      ((if allowed then 1 else 0) + later, last)

/-- How far a clock rises in total, from a reading on. -/
def rise : Option K → List K → K
  | _, [] => 0
  | none, now :: times => rise (some now) times
  | some last, now :: times => max 0 (now - last) + rise (some now) times

structure Within (terms : Terms K) (b : Bucket K) : Prop where
  nonneg : 0 ≤ b.tokens
  le_capacity : b.tokens ≤ terms.capacity

section Step

variable {terms : Terms K} {bucket : Option (Bucket K)}

/-- The tokens a bucket holds for the next call, before the clock moves. -/
def held (terms : Terms K) (bucket : Option (Bucket K)) : K :=
  bucket.elim terms.capacity Bucket.tokens

theorem take_of_le {now : K} (covered : terms.cost ≤ refilled terms now bucket) :
    take terms now bucket = (true, ⟨refilled terms now bucket - terms.cost, now⟩) :=
  if_pos covered

theorem take_of_lt {now : K} (short : refilled terms now bucket < terms.cost) :
    take terms now bucket = (false, ⟨refilled terms now bucket, now⟩) :=
  if_neg (not_le.mpr short)

theorem take_ts (now : K) : (take terms now bucket).2.ts = now := by
  rcases le_or_gt terms.cost (refilled terms now bucket) with covered | short
  · rw [take_of_le covered]
  · rw [take_of_lt short]

/-- One call: what is allowed is paid for by what was held or has been refilled. -/
theorem take_pays (terms : Terms K) (bucket : Option (Bucket K)) (now : K) :
    (if (take terms now bucket).1 then terms.cost else 0) + (take terms now bucket).2.tokens ≤
      held terms bucket + terms.rate * rise (bucket.map Bucket.ts) [now] := by
  have found : refilled terms now bucket ≤
      held terms bucket + terms.rate * rise (bucket.map Bucket.ts) [now] := by
    cases bucket with
    | none => simp [refilled, held, rise]
    | some b =>
        simp only [held, rise, Option.map_some, Option.elim_some, add_zero]
        exact min_le_right _ _
  rcases le_or_gt terms.cost (refilled terms now bucket) with covered | short
  · rw [take_of_le covered]
    simpa using found
  · rw [take_of_lt short]
    simpa using found

section Bounds

variable [IsStrictOrderedRing K]

theorem refilled_within (capacity : 0 ≤ terms.capacity) (rate : 0 ≤ terms.rate)
    (within : ∀ b ∈ bucket, Within terms b) (now : K) :
    0 ≤ refilled terms now bucket ∧ refilled terms now bucket ≤ terms.capacity := by
  cases bucket with
  | none => exact ⟨capacity, le_refl _⟩
  | some b =>
      obtain ⟨nonneg, -⟩ := within b rfl
      have gain := mul_nonneg rate (le_max_left 0 (now - b.ts))
      exact ⟨le_min capacity (by linarith), min_le_left _ _⟩

theorem take_within (capacity : 0 ≤ terms.capacity) (rate : 0 ≤ terms.rate)
    (cost : 0 ≤ terms.cost) (within : ∀ b ∈ bucket, Within terms b) (now : K) :
    Within terms (take terms now bucket).2 := by
  obtain ⟨nonneg, le⟩ := refilled_within capacity rate within now
  rcases le_or_gt terms.cost (refilled terms now bucket) with covered | short
  · rw [take_of_le covered]
    exact ⟨sub_nonneg.mpr covered, by linarith⟩
  · rw [take_of_lt short]
    exact ⟨nonneg, le⟩

end Bounds

end Step

section Run

variable {terms : Terms K} {bucket : Option (Bucket K)}

theorem rise_cons (last : Option K) (now : K) (times : List K) :
    rise last (now :: times) = rise last [now] + rise (some now) times := by
  cases last <;> simp [rise]

variable [IsStrictOrderedRing K]

theorem run_within (capacity : 0 ≤ terms.capacity) (rate : 0 ≤ terms.rate)
    (cost : 0 ≤ terms.cost) (within : ∀ b ∈ bucket, Within terms b) (times : List K) :
    ∀ b ∈ (run terms bucket times).2, Within terms b := by
  induction times generalizing bucket with
  | nil => exact within
  | cons now times ih =>
      exact ih fun b mem => Option.some.inj mem ▸ take_within capacity rate cost within now

/-- A whole run: the calls that are allowed cost no more than the capacity and the
rise of the clock, in whatever order the clock is read. -/
theorem run_pays (terms : Terms K) (bucket : Option (Bucket K)) (times : List K) :
    (run terms bucket times).1 * terms.cost + held terms (run terms bucket times).2 ≤
      held terms bucket + terms.rate * rise (bucket.map Bucket.ts) times := by
  induction times generalizing bucket with
  | nil => simp [run, rise]
  | cons now times ih =>
      have step := take_pays terms bucket now
      have rest := ih (some (take terms now bucket).2)
      rw [Option.map_some, take_ts] at rest
      rw [rise_cons]
      have split : ((run terms bucket (now :: times)).1 : K) * terms.cost =
          (if (take terms now bucket).1 then terms.cost else 0) +
            (run terms (some (take terms now bucket).2) times).1 * terms.cost := by
        simp only [run]
        cases (take terms now bucket).1 <;> simp [add_mul]
      have last : (run terms bucket (now :: times)).2 =
          (run terms (some (take terms now bucket).2) times).2 := rfl
      have tokens : held terms (some (take terms now bucket).2) =
          (take terms now bucket).2.tokens := rfl
      rw [split, last, mul_add]
      rw [tokens] at rest
      linarith

/-- A clock that never goes back rises by no more than the span it is read in. -/
theorem rise_le_of_sorted {last t₁ : K} {times : List K} (bounded : ∀ t ∈ times, t ≤ t₁)
    (first : last ≤ t₁) (sorted : List.IsChain (· ≤ ·) (last :: times)) :
    rise (some last) times ≤ t₁ - last := by
  induction times generalizing last with
  | nil => simpa [rise] using first
  | cons now times ih =>
      obtain ⟨head, rest⟩ := List.forall_mem_cons.mp bounded
      obtain ⟨forward, sorted⟩ := List.isChain_cons_cons.mp sorted
      have later := ih rest head sorted
      rw [rise, max_eq_right (sub_nonneg.mpr forward)]
      linarith

/-- A bucket is a genuine ceiling while the clock does not go back. -/
theorem run_ceiling (capacity : 0 ≤ terms.capacity) (rate : 0 ≤ terms.rate)
    (cost : 0 ≤ terms.cost) {t₀ t₁ : K} {times : List K}
    (span : ∀ t ∈ times, t₀ ≤ t ∧ t ≤ t₁) (ordered : t₀ ≤ t₁)
    (sorted : List.IsChain (· ≤ ·) times) :
    (run terms none times).1 * terms.cost ≤ terms.capacity + terms.rate * (t₁ - t₀) := by
  have risen : rise none times ≤ t₁ - t₀ := by
    cases times with
    | nil => simpa [rise] using ordered
    | cons now times =>
        obtain ⟨⟨from_start, to_end⟩, rest⟩ := List.forall_mem_cons.mp span
        have := rise_le_of_sorted (fun t mem => (rest t mem).2) to_end sorted
        rw [rise]
        linarith
  have pays := run_pays terms none times
  have left : 0 ≤ held terms (run terms none times).2 := by
    cases last : (run terms none times).2 with
    | none => exact capacity
    | some b =>
        exact (run_within capacity rate cost (by simp) times b last).nonneg
  have gain := mul_le_mul_of_nonneg_left risen rate
  simp only [Option.map_none] at pays
  have start : held terms none = terms.capacity := rfl
  rw [start] at pays
  linarith

end Run

end TokenBucket
