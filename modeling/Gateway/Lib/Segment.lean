import Mathlib.Data.List.Sort
import Mathlib.Data.Int.Basic
import Mathlib.Data.List.Nodup

/-!
A list laid out on consecutive integer positions.

Growing at either end keeps every position, and what lies between two positions
is what `take` and `drop` leave of the list.
-/

universe u

namespace Segment

variable {α : Type u}

def place (head : Int) : List α → List (Int × α)
  | [] => []
  | x :: xs => (head, x) :: place (head + 1) xs

@[simp]
theorem length_place (head : Int) (xs : List α) : (place head xs).length = xs.length := by
  induction xs generalizing head with
  | nil => rfl
  | cons x xs ih => simp [place, ih]

@[simp]
theorem map_snd_place (head : Int) (xs : List α) : (place head xs).map Prod.snd = xs := by
  induction xs generalizing head with
  | nil => rfl
  | cons x xs ih => simp [place, ih]

theorem place_append (head : Int) (xs ys : List α) :
    place head (xs ++ ys) = place head xs ++ place (head + xs.length) ys := by
  induction xs generalizing head with
  | nil => simp [place]
  | cons x xs ih =>
      have shift : head + 1 + (xs.length : Int) = head + (x :: xs).length := by
        rw [List.length_cons]
        push_cast
        omega
      rw [List.cons_append, place, place, ih, shift, List.cons_append]

/-- Every position is one of the segment. -/
theorem mem_place {head : Int} {xs : List α} {p : Int × α} (mem : p ∈ place head xs) :
    head ≤ p.1 ∧ p.1 < head + xs.length := by
  induction xs generalizing head with
  | nil => cases mem
  | cons x xs ih =>
      rw [List.length_cons]
      rcases List.mem_cons.mp mem with rfl | later
      · push_cast
        omega
      · have := ih later
        push_cast
        omega

theorem positions_place (head : Int) (xs : List α) :
    (place head xs).map Prod.fst = (List.range xs.length).map fun i : Nat => head + i := by
  induction xs generalizing head with
  | nil => rfl
  | cons x xs ih =>
      rw [place, List.map_cons, ih, List.length_cons, List.range_succ_eq_map, List.map_cons,
        List.map_map]
      congr 1
      · simp
      · refine List.map_congr_left fun i _ => ?_
        simp only [Function.comp_apply]
        push_cast
        omega

theorem sorted_place (head : Int) (xs : List α) :
    (place head xs).Pairwise fun p q => p.1 < q.1 := by
  induction xs generalizing head with
  | nil => exact .nil
  | cons x xs ih =>
      refine .cons (fun q mem => ?_) (ih (head + 1))
      have := mem_place mem
      show head < q.1
      omega

theorem place_injective {head : Int} {xs : List α} {p q : Int × α} (left : p ∈ place head xs)
    (right : q ∈ place head xs) (same : p.1 = q.1) : p = q := by
  have distinct : ((place head xs).map Prod.fst).Nodup := by
    rw [List.Nodup, List.pairwise_map]
    exact (sorted_place head xs).imp fun lt => Int.ne_of_lt lt
  exact List.inj_on_of_nodup_map distinct left right same

theorem filter_lt_place (head : Int) (xs : List α) (n : Nat) :
    (place head xs).filter (fun p => decide (p.1 < head + n)) = place head (xs.take n) := by
  induction xs generalizing head n with
  | nil => simp [place]
  | cons x xs ih =>
      cases n with
      | zero =>
          refine List.filter_eq_nil_iff.mpr fun p mem => ?_
          have := mem_place mem
          simp only [decide_eq_true_eq]
          push_cast
          omega
      | succ n =>
          have shift : head + ((n + 1 : Nat) : Int) = head + 1 + n := by
            push_cast
            omega
          have first : head < head + 1 + n := by omega
          rw [shift, place, List.filter_cons, if_pos (decide_eq_true first), ih,
            List.take_succ_cons, place]

theorem filter_ge_place (head : Int) (xs : List α) (n : Nat) :
    (place head xs).filter (fun p => decide (head + n ≤ p.1)) =
      place (head + n) (xs.drop n) := by
  induction xs generalizing head n with
  | nil => simp [place]
  | cons x xs ih =>
      cases n with
      | zero =>
          have start : head + ((0 : Nat) : Int) = head := Int.add_zero head
          rw [List.drop_zero, start]
          refine List.filter_eq_self.mpr fun p mem => ?_
          exact decide_eq_true (mem_place mem).1
      | succ n =>
          have shift : head + ((n + 1 : Nat) : Int) = head + 1 + n := by
            push_cast
            omega
          have first : ¬ head + 1 + (n : Int) ≤ head := by omega
          rw [shift, place, List.filter_cons_of_neg (by simpa using first), ih,
            List.drop_succ_cons]

/-- What lies between two positions. -/
theorem filter_between_place (head : Int) (xs : List α) (m n : Nat) :
    (place head xs).filter (fun p => decide (head + m ≤ p.1 ∧ p.1 < head + n)) =
      place (head + m) ((xs.take n).drop m) := by
  have split (p : Int × α) : decide (head + m ≤ p.1 ∧ p.1 < head + n) =
      (decide (head + m ≤ p.1) && decide (p.1 < head + n)) := Bool.decide_and _ _
  rw [List.filter_congr fun p _ => split p, ← List.filter_filter, filter_lt_place, filter_ge_place]

/-- Rows found in any order come back in the order of the list. -/
theorem insertionSort_place {β : Type u} {f : Int × α → β} (position : β → Int)
    (reads : ∀ p, position (f p) = p.1) {found : List β} {head : Int} {xs : List α}
    (perm : found.Perm ((place head xs).map f)) :
    found.insertionSort (fun x y => position x ≤ position y) = (place head xs).map f := by
  have strict : ((place head xs).map f).Pairwise fun x y => position x < position y := by
    rw [List.pairwise_map]
    exact (sorted_place head xs).imp fun lt => by rwa [reads, reads]
  have total : Std.Total fun x y : β => position x ≤ position y :=
    ⟨fun x y => Int.le_total (position x) (position y)⟩
  have trans : IsTrans β fun x y => position x ≤ position y :=
    ⟨fun x y z => Int.le_trans⟩
  have sorted := List.pairwise_insertionSort (fun x y : β => position x ≤ position y) found
  have perm' := (List.perm_insertionSort (fun x y : β => position x ≤ position y) found).trans perm
  refine List.Perm.eq_of_pairwise (fun x y left right le ge => ?_) sorted
    (strict.imp fun lt => Int.le_of_lt lt) perm'
  obtain ⟨p, mem, rfl⟩ := List.mem_map.mp (perm'.mem_iff.mp left)
  obtain ⟨q, mem', rfl⟩ := List.mem_map.mp right
  rw [reads, reads] at le ge
  rw [place_injective mem mem' (by omega)]

end Segment
