import Mathlib.Data.List.Pairwise

/-!
Lists that are put together from pieces, and what of them comes out in order.

`arranged rank n xs` has the items of the ranks below `n`, rank by rank, and keeps
the order within a rank. It is the list again exactly when the ranks never fall.
-/

universe u v

namespace Arrangement

variable {α : Type u} {β : Type v}

section Pieces

variable {F G : α → List β} {xs : List α}

theorem length_flatMap_le (shorter : ∀ x ∈ xs, (G x).length ≤ (F x).length) :
    (xs.flatMap G).length ≤ (xs.flatMap F).length := by
  induction xs with
  | nil => exact Nat.le_refl 0
  | cons x xs ih =>
      have head := shorter x List.mem_cons_self
      have tail := ih fun y mem => shorter y (List.mem_cons_of_mem x mem)
      rw [List.flatMap_cons, List.flatMap_cons, List.length_append, List.length_append]
      omega

theorem flatMap_eq_iff (shorter : ∀ x ∈ xs, (G x).length ≤ (F x).length) :
    xs.flatMap F = xs.flatMap G ↔ ∀ x ∈ xs, F x = G x := by
  induction xs with
  | nil => simp
  | cons x xs ih =>
      have rest := fun y mem => shorter y (List.mem_cons_of_mem x mem)
      have head := shorter x List.mem_cons_self
      have tail := length_flatMap_le rest
      rw [List.forall_mem_cons, ← ih rest, List.flatMap_cons, List.flatMap_cons]
      constructor
      · intro same
        have lengths := congrArg List.length same
        rw [List.length_append, List.length_append] at lengths
        exact List.append_inj same (by omega)
      · rintro ⟨first, others⟩
        rw [first, others]

/-- Pieces that can only lose items lose none in all exactly if each one loses none. -/
theorem flatMap_sublist_iff (shorter : ∀ x ∈ xs, (G x).length ≤ (F x).length) :
    (xs.flatMap F).Sublist (xs.flatMap G) ↔ ∀ x ∈ xs, F x = G x := by
  rw [← flatMap_eq_iff shorter]
  exact ⟨fun kept => kept.eq_of_length_le (length_flatMap_le shorter),
    fun same => same ▸ List.Sublist.refl _⟩

end Pieces

section Ranks

variable (rank : α → Nat)

/-- The items of each rank below `n`, rank by rank. -/
def arranged (n : Nat) (xs : List α) : List α :=
  (List.range n).flatMap fun k => xs.filter fun x => rank x = k

theorem arranged_succ (n : Nat) (xs : List α) :
    arranged rank (n + 1) xs = arranged rank n xs ++ xs.filter fun x => rank x = n := by
  simp [arranged, List.range_succ, List.flatMap_append]

theorem mem_arranged {n : Nat} {xs : List α} {x : α} :
    x ∈ arranged rank n xs ↔ x ∈ xs ∧ rank x < n := by
  simp only [arranged, List.mem_flatMap, List.mem_range, List.mem_filter, decide_eq_true_eq]
  constructor
  · rintro ⟨k, below, mem, rfl⟩
    exact ⟨mem, below⟩
  · rintro ⟨mem, below⟩
    exact ⟨rank x, below, mem, rfl⟩

theorem arranged_pairwise (n : Nat) (xs : List α) :
    (arranged rank n xs).Pairwise fun x y => rank x ≤ rank y := by
  induction n with
  | zero => exact List.Pairwise.nil
  | succ n ih =>
      rw [arranged_succ, List.pairwise_append]
      refine ⟨ih, ?_, fun x mem y last => ?_⟩
      · refine List.pairwise_iff_forall_sublist.mpr fun {x y} both => ?_
        have of (z : α) (mem : z ∈ [x, y]) : rank z = n := by
          simpa using (List.mem_filter.mp (both.subset mem)).2
        exact Nat.le_of_eq ((of x (by simp)).trans (of y (by simp)).symm)
      · have below := ((mem_arranged rank).mp mem).2
        have here : rank y = n := by simpa using (List.mem_filter.mp last).2
        omega

theorem length_filter_succ (n : Nat) (xs : List α) :
    (xs.filter fun x => rank x < n).length + (xs.filter fun x => rank x = n).length =
      (xs.filter fun x => rank x < n + 1).length := by
  induction xs with
  | nil => rfl
  | cons x xs ih =>
      rcases Nat.lt_trichotomy (rank x) n with low | here | high
      · have next : rank x < n + 1 := by omega
        have other : rank x ≠ n := by omega
        simp only [List.filter_cons, low, next, other, decide_true, decide_false, if_true,
          Bool.false_eq_true, if_false, List.length_cons]
        omega
      · simp only [List.filter_cons, here, Nat.lt_irrefl, Nat.lt_succ_self, decide_true,
          decide_false, if_true, Bool.false_eq_true, if_false, List.length_cons]
        omega
      · have low : ¬rank x < n := by omega
        have next : ¬rank x < n + 1 := by omega
        have other : rank x ≠ n := by omega
        simpa only [List.filter_cons, low, next, other, decide_false, Bool.false_eq_true, if_false]
          using ih

theorem length_arranged (n : Nat) (xs : List α) :
    (arranged rank n xs).length = (xs.filter fun x => rank x < n).length := by
  induction n with
  | zero =>
      have none_below : (xs.filter fun x => rank x < 0) = [] := by
        rw [List.filter_eq_nil_iff]
        simp
      rw [none_below]
      rfl
  | succ n ih => rw [arranged_succ, List.length_append, ih, length_filter_succ]

variable {rank} {xs : List α}

/-- Where ranks never fall, the lower ones are a prefix. -/
theorem filter_split (rises : xs.Pairwise fun x y => rank x ≤ rank y) (n : Nat) :
    xs.filter (fun x => rank x < n) ++ xs.filter (fun x => n ≤ rank x) = xs := by
  induction xs with
  | nil => rfl
  | cons x xs ih =>
      obtain ⟨above, rises⟩ := List.pairwise_cons.mp rises
      by_cases low : rank x < n
      · rw [List.filter_cons_of_pos (by simpa using low),
          List.filter_cons_of_neg (by simpa using low), List.cons_append, ih rises]
      · have none_low : (x :: xs).filter (fun x => rank x < n) = [] := by
          rw [List.filter_eq_nil_iff]
          intro y mem
          have : rank x ≤ rank y := by
            cases List.mem_cons.mp mem with
            | inl same => exact same ▸ Nat.le_refl _
            | inr later => exact above y later
          simpa using by omega
        have all_high : (x :: xs).filter (fun x => n ≤ rank x) = x :: xs := by
          rw [List.filter_eq_self]
          intro y mem
          have : rank x ≤ rank y := by
            cases List.mem_cons.mp mem with
            | inl same => exact same ▸ Nat.le_refl _
            | inr later => exact above y later
          simpa using by omega
        rw [none_low, all_high, List.nil_append]

theorem arranged_eq_filter (rises : xs.Pairwise fun x y => rank x ≤ rank y) (n : Nat) :
    arranged rank n xs = xs.filter fun x => rank x < n := by
  induction n with
  | zero => simp [arranged]
  | succ n ih =>
      have split := filter_split (rises.filter fun x => rank x < n + 1) n
      rw [List.filter_filter, List.filter_filter] at split
      rw [arranged_succ, ih, ← split]
      congr 1 <;> refine List.filter_congr fun x _ => ?_
      · by_cases low : rank x < n <;> simp [low]
        omega
      · by_cases here : rank x = n <;> simp [here]
        omega

theorem arranged_eq (rises : xs.Pairwise fun x y => rank x ≤ rank y) {n : Nat}
    (below : ∀ x ∈ xs, rank x < n) : arranged rank n xs = xs := by
  rw [arranged_eq_filter rises, List.filter_eq_self]
  simpa using below

/-- Arranged and copied, a list is itself exactly if it was arranged and every
item is its own copy. -/
theorem eq_map_arranged_iff {copy : α → α} (keeps : ∀ x, rank (copy x) = rank x) {n : Nat} :
    xs = (arranged rank n xs).map copy ↔
      (∀ x ∈ xs, rank x < n ∧ copy x = x) ∧ xs.Pairwise fun x y => rank x ≤ rank y := by
  constructor
  · intro same
    have rises : xs.Pairwise fun x y => rank x ≤ rank y := by
      rw [same, List.pairwise_map]
      simpa [keeps] using arranged_pairwise rank n xs
    have below : ∀ x ∈ xs, rank x < n := by
      intro x mem
      rw [same] at mem
      obtain ⟨y, of, rfl⟩ := List.mem_map.mp mem
      rw [keeps]
      exact ((mem_arranged rank).mp of).2
    rw [arranged_eq rises below] at same
    have fixed : xs.map copy = xs.map id := by rw [List.map_id, ← same]
    exact ⟨fun x mem => ⟨below x mem, List.map_eq_map_iff.mp fixed x mem⟩, rises⟩
  · rintro ⟨each, rises⟩
    rw [arranged_eq rises fun x mem => (each x mem).1]
    have fixed : xs.map copy = xs.map id := List.map_congr_left fun x mem => (each x mem).2
    rw [fixed, List.map_id]

end Ranks

end Arrangement
