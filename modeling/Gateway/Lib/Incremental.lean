import Mathlib.Data.List.Basic

/-!
Reading items off a buffer that grows.

A reader takes the first complete item of a buffer, if there is one. It must not
change its mind when more input arrives; then reading a text in pieces takes the
same items as reading it whole, wherever it is cut.
-/

universe u v w x

structure IncrementalReader (α : Type u) (β : Type v) where
  next : List α → Option (β × List α)
  shortens : ∀ {s item rest}, next s = some (item, rest) → rest.length < s.length
  stable : ∀ {s item rest} (t), next s = some (item, rest) → next (s ++ t) = some (item, rest ++ t)

namespace IncrementalReader

variable {α : Type u} {β : Type v} (R : IncrementalReader α β)

/-- All the complete items of a buffer, and what is left of it. -/
def read (s : List α) : List β × List α :=
  match _h : R.next s with
  | none => ([], s)
  | some (item, rest) => (item :: (read rest).1, (read rest).2)
termination_by s.length
decreasing_by all_goals exact R.shortens _h

/-- No item of the buffer is complete. -/
def Settled (s : List α) : Prop := R.next s = none

theorem read_settled {s : List α} (h : R.Settled s) : R.read s = ([], s) := by
  rw [read]
  split
  · rfl
  · next found => exact absurd (h.symm.trans found) (by simp)

theorem read_cons {s rest : List α} {item : β} (h : R.next s = some (item, rest)) :
    R.read s = (item :: (R.read rest).1, (R.read rest).2) := by
  rw [read]
  split
  · next none_left => exact absurd (h.symm.trans none_left) (by simp)
  · next found =>
      cases h.symm.trans found
      rfl

/-- Induction over the items of a buffer. -/
theorem read_induction {motive : List α → Prop} (settled : ∀ s, R.Settled s → motive s)
    (item : ∀ s b rest, R.next s = some (b, rest) → motive rest → motive s) (s : List α) :
    motive s := by
  induction length : s.length using Nat.strongRecOn generalizing s with
  | ind n ih =>
      cases found : R.next s with
      | none => exact settled s found
      | some p =>
          obtain ⟨b, rest⟩ := p
          exact item s b rest found (ih rest.length (length ▸ R.shortens found) rest rfl)

theorem settled_rest (s : List α) : R.Settled (R.read s).2 := by
  induction s using R.read_induction with
  | settled s h => rwa [R.read_settled h]
  | item s b rest h ih => rwa [R.read_cons h]

/-- A text that is cut is read like the whole: what is left of the first part
stands before the second. -/
theorem read_append (s t : List α) :
    R.read (s ++ t) =
      ((R.read s).1 ++ (R.read ((R.read s).2 ++ t)).1, (R.read ((R.read s).2 ++ t)).2) := by
  induction s using R.read_induction with
  | settled s h => simp only [R.read_settled h, List.nil_append]
  | item s b rest h ih => simp only [R.read_cons (R.stable t h), R.read_cons h, ih, List.cons_append]

/-- The items handled one after the other; the first error ends it. -/
def handleAll {β : Type v} {σ : Type w} {ε ω : Type x} (handle : β → σ → Except ε (List ω) × σ) :
    List β → σ → Except ε (List ω) × σ
  | [], s => (.ok [], s)
  | item :: items, s =>
      match handle item s with
      | (.error e, s) => (.error e, s)
      | (.ok out, s) => ((handleAll handle items s).1.map (out ++ ·), (handleAll handle items s).2)

section HandleAll

variable {β : Type v} {σ : Type w} {ε ω : Type x} {handle : β → σ → Except ε (List ω) × σ}

theorem handleAll_cons_ok {item : β} {items : List β} {s s' t : σ} {out later : List ω}
    (first : handle item s = (.ok out, s')) (rest : handleAll handle items s' = (.ok later, t)) :
    handleAll handle (item :: items) s = (.ok (out ++ later), t) := by
  simp only [handleAll, first, rest]
  rfl

theorem of_handleAll_cons {item : β} {items : List β} {s t : σ} {all : List ω}
    (h : handleAll handle (item :: items) s = (.ok all, t)) :
    ∃ out s' later, handle item s = (.ok out, s') ∧
      handleAll handle items s' = (.ok later, t) ∧ all = out ++ later := by
  rw [handleAll] at h
  split at h
  · exact nomatch h
  · next out s' first =>
      rcases run : handleAll handle items s' with ⟨_ | later, t'⟩
      · rw [run] at h
        exact nomatch h
      · rw [run] at h
        cases h
        exact ⟨out, s', later, first, run, rfl⟩

/-- What is handled without an error is handled without one up to any point. -/
theorem of_handleAll_append {items rest : List β} {s t : σ} {all : List ω}
    (h : handleAll handle (items ++ rest) s = (.ok all, t)) :
    ∃ out s' later, handleAll handle items s = (.ok out, s') ∧
      handleAll handle rest s' = (.ok later, t) ∧ all = out ++ later := by
  induction items generalizing s all with
  | nil => exact ⟨[], s, all, rfl, h, rfl⟩
  | cons item items ih =>
      obtain ⟨out, s', later, first, run, rfl⟩ := of_handleAll_cons h
      obtain ⟨middle, s'', last, before, after, rfl⟩ := ih run
      exact ⟨out ++ middle, s'', last, handleAll_cons_ok first before, after,
        (List.append_assoc ..).symm⟩

end HandleAll

end IncrementalReader
