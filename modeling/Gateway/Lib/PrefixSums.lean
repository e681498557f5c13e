import Mathlib.Algebra.BigOperators.Group.List.Basic
import Mathlib.Algebra.Order.Group.Defs
import Mathlib.Order.Interval.Set.Defs

/-!
A list of positive weights cuts an interval into consecutive half-open pieces,
one for each element: every point lies in exactly one of them.
-/

namespace Gateway.PrefixSums

section Pieces

variable {α R : Type} [AddCommGroup R] (weight : α → R)

/-- The weight of what comes before a position. -/
def prefixSum (list : List α) (i : Nat) : R := ((list.take i).map weight).sum

def total (list : List α) : R := (list.map weight).sum

@[simp]
theorem prefixSum_zero (list : List α) : prefixSum weight list 0 = 0 := rfl

@[simp]
theorem prefixSum_cons_succ (a : α) (rest : List α) (i : Nat) :
    prefixSum weight (a :: rest) (i + 1) = weight a + prefixSum weight rest i := by
  rw [prefixSum, List.take_succ_cons, List.map_cons, List.sum_cons, prefixSum]

theorem prefixSum_of_length_le {list : List α} {i : Nat} (h : list.length ≤ i) :
    prefixSum weight list i = total weight list := by
  rw [prefixSum, List.take_of_length_le h, total]

theorem prefixSum_succ {list : List α} {i : Nat} {a : α} (at_i : list[i]? = some a) :
    prefixSum weight list (i + 1) = prefixSum weight list i + weight a := by
  induction list generalizing i with
  | nil => simp at at_i
  | cons b rest ih =>
      cases i with
      | zero =>
          rw [List.getElem?_cons_zero, Option.some.injEq] at at_i
          rw [prefixSum_cons_succ, prefixSum_zero, prefixSum_zero, at_i, add_comm]
      | succ i =>
          rw [List.getElem?_cons_succ] at at_i
          rw [prefixSum_cons_succ, prefixSum_cons_succ, ih at_i, add_assoc]

variable [LinearOrder R] [IsOrderedAddMonoid R]

/-- The piece of the element at a position. -/
def piece (list : List α) (i : Nat) : Set R :=
  Set.Ico (prefixSum weight list i) (prefixSum weight list (i + 1))

theorem mem_piece_cons_succ {a : α} {rest : List α} {i : Nat} {point : R} :
    point ∈ piece weight (a :: rest) (i + 1) ↔ point - weight a ∈ piece weight rest i := by
  rw [piece, piece, prefixSum_cons_succ, prefixSum_cons_succ, Set.mem_Ico, Set.mem_Ico,
    le_sub_iff_add_le, sub_lt_iff_lt_add, add_comm (weight a), add_comm (weight a)]

variable {weight} (positive : ∀ a, 0 < weight a)

include positive

theorem prefixSum_nonneg (list : List α) (i : Nat) : 0 ≤ prefixSum weight list i := by
  induction list generalizing i with
  | nil => simp [prefixSum]
  | cons a rest ih =>
      cases i with
      | zero => exact le_refl 0
      | succ i =>
          rw [prefixSum_cons_succ]
          exact add_nonneg (positive a).le (ih i)

theorem prefixSum_mono (list : List α) {i j : Nat} (h : i ≤ j) :
    prefixSum weight list i ≤ prefixSum weight list j := by
  induction list generalizing i j with
  | nil => simp [prefixSum]
  | cons a rest ih =>
      cases i with
      | zero => exact prefixSum_nonneg positive _ _
      | succ i =>
          cases j with
          | zero => exact absurd h (Nat.not_succ_le_zero i)
          | succ j =>
              rw [prefixSum_cons_succ, prefixSum_cons_succ]
              exact add_le_add_right (ih (Nat.le_of_succ_le_succ h)) (weight a)

theorem prefixSum_le_total (list : List α) (i : Nat) :
    prefixSum weight list i ≤ total weight list := by
  rw [← prefixSum_of_length_le weight (Nat.le_add_right list.length i)]
  exact prefixSum_mono positive list (Nat.le_add_left i list.length)

/-- No point lies in two pieces. -/
theorem piece_unique {list : List α} {i j : Nat} {point : R}
    (here : point ∈ piece weight list i) (there : point ∈ piece weight list j) : i = j := by
  have apart : ∀ {i j : Nat}, point ∈ piece weight list i → point ∈ piece weight list j →
      ¬i < j := by
    intro i j here there less
    have order := prefixSum_mono positive list (Nat.succ_le_of_lt less)
    exact absurd (here.2.trans_le (order.trans there.1)) (lt_irrefl point)
  exact Nat.le_antisymm (Nat.not_lt.mp (apart there here)) (Nat.not_lt.mp (apart here there))

omit positive

/-- Every point below the total lies in a piece. -/
theorem exists_piece {list : List α} {point : R} (low : 0 ≤ point)
    (high : point < total weight list) : ∃ i, i < list.length ∧ point ∈ piece weight list i := by
  induction list generalizing point with
  | nil => exact absurd (low.trans_lt high) (lt_irrefl 0)
  | cons a rest ih =>
      by_cases first : point < weight a
      · refine ⟨0, Nat.succ_pos _, ?_⟩
        rw [piece, prefixSum_cons_succ, prefixSum_zero, prefixSum_zero, add_zero]
        exact ⟨low, first⟩
      · have later : point - weight a < total weight rest := by
          rw [total, List.map_cons, List.sum_cons] at high
          exact sub_lt_iff_lt_add'.mpr high
        obtain ⟨i, within, mem⟩ := ih (sub_nonneg.mpr (not_lt.mp first)) later
        exact ⟨i + 1, Nat.succ_lt_succ within, (mem_piece_cons_succ weight).mpr mem⟩

end Pieces

end Gateway.PrefixSums
