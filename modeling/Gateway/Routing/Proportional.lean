import Gateway.Lib.PrefixSums
import Gateway.Routing.Election
import Mathlib.Algebra.Field.Rat
import Mathlib.Algebra.Order.Field.Basic
import Mathlib.Data.Rat.Floor
import Mathlib.Order.Interval.Set.Basic

/-!
An election in exact proportion to the weights.

The shares of a tier cut the interval from zero to their total into one piece for
each candidate, and the one whose piece the draw falls into is elected. A piece of
the unit interval is as long as the share of its candidate in the total.
-/

namespace Gateway

open PrefixSums

/-- The options as a caller gives them. -/
structure ElectionInput where
  attempt : Option ℚ := none
  affinityChannelId : Option String := none
  random : ℚ

/-- The index that an attempt stands for before it is clamped to the last tier. -/
def attemptIndex (attempt : Option ℚ) : Nat := (max 0 ⌊attempt.getD 0⌋).toNat

/-- The options as `electFrom` reads them; an empty id is no preference. -/
def ElectionInput.options (input : ElectionInput) : ElectionOptions where
  attempt := attemptIndex input.attempt
  affinityChannelId := input.affinityChannelId.filter fun id => id ≠ ""
  random := input.random

section Shares

theorem share_pos (candidate : Candidate) : 0 < share candidate :=
  add_pos_of_nonneg_of_pos (le_max_left 0 _) (by rw [weightFloor]; norm_num)

theorem total_share_pos {tier : List Candidate} (nonempty : tier ≠ []) : 0 < total share tier := by
  cases tier with
  | nil => exact absurd rfl nonempty
  | cons candidate rest =>
      have first := prefixSum_le_total share_pos (candidate :: rest) 1
      rw [prefixSum_cons_succ, prefixSum_zero, add_zero] at first
      exact (share_pos candidate).trans_le first

/-- The scan stops at the candidate whose piece the cursor lies in. -/
theorem pickAt_of_piece {tier : List Candidate} {cursor : ℚ} {i : Nat} {candidate : Candidate}
    (at_i : tier[i]? = some candidate) (mem : cursor ∈ piece share tier i) :
    pickAt cursor tier = some candidate := by
  induction tier generalizing cursor i with
  | nil => simp at at_i
  | cons first rest ih =>
      rw [pickAt]
      cases i with
      | zero =>
          have below : cursor < share first := by
            have high := mem.2
            rw [prefixSum_cons_succ, prefixSum_zero, add_zero] at high
            exact high
          rw [if_pos (sub_neg.mpr below)]
          exact at_i
      | succ i =>
          have later := (mem_piece_cons_succ share).mp mem
          have passed := (prefixSum_nonneg share_pos rest i).trans later.1
          rw [if_neg (not_lt.mpr passed)]
          exact ih at_i later

theorem weightedPick_of_piece {tier : List Candidate} {random : ℚ} {i : Nat}
    {candidate : Candidate} (at_i : tier[i]? = some candidate)
    (mem : random * total share tier ∈ piece share tier i) :
    weightedPick tier random = some candidate := by
  rw [weightedPick.eq_def]
  split
  · simp at at_i
  · cases i with
    | zero => exact at_i
    | succ i => simp at at_i
  · rw [total] at mem
    rw [pickAt_of_piece at_i mem, Option.some_or]

/-- A draw falls into exactly one piece, and the candidate of that piece is picked. -/
theorem exists_weightedPick_piece {tier : List Candidate} (nonempty : tier ≠ []) {random : ℚ}
    (low : 0 ≤ random) (high : random < 1) :
    ∃ i candidate, tier[i]? = some candidate ∧ weightedPick tier random = some candidate ∧
      random * total share tier ∈ piece share tier i ∧
      ∀ j, random * total share tier ∈ piece share tier j → j = i := by
  have positive := total_share_pos nonempty
  obtain ⟨i, within, mem⟩ := exists_piece
    (mul_nonneg low positive.le) (mul_lt_of_lt_one_left positive high)
  have at_i := List.getElem?_eq_getElem within
  exact ⟨i, tier[i], at_i, weightedPick_of_piece at_i mem, mem,
    fun j there => piece_unique share_pos there mem⟩

/-- Where the candidate of a position is picked, as a part of the unit interval. -/
def drawInterval (tier : List Candidate) (i : Nat) : Set ℚ :=
  Set.Ico (prefixSum share tier i / total share tier)
    (prefixSum share tier (i + 1) / total share tier)

theorem mem_drawInterval {tier : List Candidate} (nonempty : tier ≠ []) {random : ℚ} {i : Nat} :
    random ∈ drawInterval tier i ↔ random * total share tier ∈ piece share tier i := by
  have positive := total_share_pos nonempty
  rw [drawInterval, piece, Set.mem_Ico, Set.mem_Ico, div_le_iff₀ positive, lt_div_iff₀ positive]

theorem drawInterval_within {tier : List Candidate} (nonempty : tier ≠ []) (i : Nat) :
    0 ≤ prefixSum share tier i / total share tier ∧
      prefixSum share tier (i + 1) / total share tier ≤ 1 := by
  have positive := total_share_pos nonempty
  refine ⟨div_nonneg (prefixSum_nonneg share_pos tier i) positive.le, ?_⟩
  rw [div_le_one positive]
  exact prefixSum_le_total share_pos tier (i + 1)

theorem drawInterval_length {tier : List Candidate} {i : Nat} {candidate : Candidate}
    (at_i : tier[i]? = some candidate) :
    prefixSum share tier (i + 1) / total share tier - prefixSum share tier i / total share tier =
      share candidate / total share tier := by
  rw [← sub_div, prefixSum_succ share at_i, add_sub_cancel_left]

end Shares

theorem electFrom_none_iff (candidates : List Candidate) (options : ElectionOptions) :
    electFrom candidates options = none ↔ candidates = [] := by
  constructor
  · intro refused
    by_contra nonempty
    obtain ⟨c, elected⟩ := exists_electFrom nonempty options
    rw [refused] at elected
    exact absurd elected (by simp)
  · intro h
    subst h
    rfl

end Gateway
