import Mathlib.Data.List.Basic
import Mathlib.Order.Lattice

/-!
Leases that expire, under a ceiling.

A holder gives its lease back at most once, and what it gives back may not reach
the table; then the lease stays in the table until it expires. So a lease counts
as long as it is listed and has not expired, whatever its holder has done.
-/

universe u v

namespace Leases

/-- Where a lease stands: with its holder, given back in vain, or given back. -/
inductive Standing where
  | out
  | lost
  | returned
deriving DecidableEq

structure Lease (ω : Type u) (T : Type v) where
  owner : ω
  expiresAt : T
  standing : Standing
deriving DecidableEq

variable {ω : Type u} {T : Type v}

def Lease.released (l : Lease ω T) : Bool := l.standing != .out

def Lease.listed (l : Lease ω T) : Bool := l.standing != .returned

def Lease.row (l : Lease ω T) : T × ω := (l.expiresAt, l.owner)

/-- A second release does nothing. -/
def Standing.release (delivered : Bool) : Standing → Standing
  | .out => if delivered then .returned else .lost
  | s => s

def Lease.release (delivered : Bool) (l : Lease ω T) : Lease ω T :=
  { l with standing := l.standing.release delivered }

def giveBack (delivered : Bool) (i : Nat) (leases : List (Lease ω T)) : List (Lease ω T) :=
  leases.modify i (Lease.release delivered)

theorem owners_giveBack (delivered : Bool) (i : Nat) (leases : List (Lease ω T)) :
    (giveBack delivered i leases).map Lease.owner = leases.map Lease.owner := by
  induction leases generalizing i with
  | nil => cases i <;> rfl
  | cons x xs ih =>
      cases i with
      | zero => rfl
      | succ i => exact congrArg (x.owner :: ·) (ih i)

theorem expiresAt_giveBack (delivered : Bool) (i : Nat) (leases : List (Lease ω T)) :
    (giveBack delivered i leases).map Lease.expiresAt = leases.map Lease.expiresAt := by
  induction leases generalizing i with
  | nil => cases i <;> rfl
  | cons x xs ih =>
      cases i with
      | zero => rfl
      | succ i => exact congrArg (x.expiresAt :: ·) (ih i)

section Counting

variable [LinearOrder T]

def Lease.counts (now : T) (l : Lease ω T) : Bool := l.listed && decide (now < l.expiresAt)

/-- The leases of the table that have not expired. -/
def rows (now : T) (leases : List (Lease ω T)) : List (T × ω) :=
  (leases.filter (Lease.counts now)).map Lease.row

/-- The leases that are neither released nor expired. -/
def inFlight (now : T) (leases : List (Lease ω T)) : List (Lease ω T) :=
  leases.filter fun l => !l.released && decide (now < l.expiresAt)

theorem inFlight_length_le (now : T) (leases : List (Lease ω T)) :
    (inFlight now leases).length ≤ (rows now leases).length := by
  rw [rows, List.length_map]
  refine (List.monotone_filter_right leases fun l open' => ?_).length_le
  simp only [Lease.released, Lease.counts, Lease.listed, Bool.and_eq_true] at open' ⊢
  refine ⟨?_, open'.2⟩
  cases standing : l.standing with
  | out => rfl
  | lost => rfl
  | returned => simp [standing] at open'

/-- Time only takes rows away. -/
theorem rows_later {now later : T} (le : now ≤ later) (leases : List (Lease ω T)) :
    rows later leases = (rows now leases).filter fun row => decide (later < row.1) := by
  rw [rows, rows, List.filter_map, List.filter_filter]
  congr 1
  refine List.filter_congr fun l _ => ?_
  by_cases h : later < l.expiresAt
  · simp [Lease.counts, Lease.row, h, le.trans_lt h]
  · simp [Lease.counts, Lease.row, h]

theorem rows_append (now : T) (leases more : List (Lease ω T)) :
    rows now (leases ++ more) = rows now leases ++ rows now more := by
  simp [rows]

theorem mem_of_row {now : T} {leases : List (Lease ω T)} {row : T × ω}
    (mem : row ∈ rows now leases) : ∃ l ∈ leases, l.row = row := by
  obtain ⟨l, counted, eq⟩ := List.mem_map.mp mem
  exact ⟨l, List.mem_of_mem_filter counted, eq⟩

section GiveBack

variable {leases : List (Lease ω T)} {i : Nat} {l : Lease ω T}

/-- A release that is the first one and arrives takes its own row away. -/
theorem rows_giveBack [DecidableEq ω] (now : T) (found : leases[i]? = some l)
    (out : l.standing = .out) (distinct : (leases.map Lease.owner).Nodup) :
    rows now (giveBack true i leases) =
      (rows now leases).filter fun row => decide (row.2 ≠ l.owner) := by
  induction leases generalizing i with
  | nil => cases found
  | cons x xs ih =>
      obtain ⟨fresh, distinct⟩ := List.nodup_cons.mp distinct
      cases i with
      | zero =>
          obtain rfl : x = l := Option.some.inj found
          have others : (rows now xs).filter (fun row => decide (row.2 ≠ x.owner)) =
              rows now xs := by
            refine List.filter_eq_self.mpr fun row mem => ?_
            obtain ⟨y, member, rfl⟩ := mem_of_row mem
            refine decide_eq_true fun same => fresh ?_
            exact same ▸ List.mem_map_of_mem member
          have gone : (x.release true).counts now = false := by
            simp [Lease.counts, Lease.listed, Lease.release, out, Standing.release]
          have left : rows now (giveBack true 0 (x :: xs)) = rows now xs := by
            simp [giveBack, rows, gone]
          rw [left, show x :: xs = [x] ++ xs from rfl, rows_append, List.filter_append, others]
          cases counted : x.counts now <;> simp [rows, counted, Lease.row]
      | succ i =>
          have other : x.owner ≠ l.owner := fun same =>
            fresh (same ▸ List.mem_map_of_mem (List.mem_of_getElem? found))
          have rest := ih found distinct
          have split : giveBack true (i + 1) (x :: xs) = [x] ++ giveBack true i xs := rfl
          rw [split, show x :: xs = [x] ++ xs from rfl, rows_append, rows_append,
            List.filter_append, rest]
          cases counted : x.counts now <;> simp [rows, counted, Lease.row, other]

/-- Any other release leaves the rows as they are. -/
theorem rows_giveBack_lost (now : T) (found : leases[i]? = some l) {delivered : Bool}
    (vain : delivered = false ∨ l.standing ≠ .out) :
    rows now (giveBack delivered i leases) = rows now leases := by
  induction leases generalizing i with
  | nil => cases found
  | cons x xs ih =>
      cases i with
      | zero =>
          obtain rfl : x = l := Option.some.inj found
          have same : (x.release delivered).listed = x.listed := by
            cases standing : x.standing with
            | out =>
                obtain rfl := vain.resolve_right fun other => other standing
                simp [Lease.listed, Lease.release, standing, Standing.release]
                rfl
            | lost => simp [Lease.listed, Lease.release, standing, Standing.release]
            | returned => simp [Lease.listed, Lease.release, standing, Standing.release]
          have counts : (x.release delivered).counts now = x.counts now := by
            rw [Lease.counts, same]
            rfl
          have split : giveBack delivered 0 (x :: xs) = [x.release delivered] ++ xs := rfl
          rw [split, show x :: xs = [x] ++ xs from rfl, rows_append, rows_append]
          have row : (x.release delivered).row = x.row := rfl
          cases counted : x.counts now <;> simp [rows, counted, counts, row]
      | succ i =>
          have split : giveBack delivered (i + 1) (x :: xs) = [x] ++ giveBack delivered i xs := rfl
          rw [split, rows_append, ih found, ← rows_append]
          rfl

end GiveBack

end Counting

end Leases
