import Mathlib.Algebra.Order.Group.Basic
import Mathlib.Data.List.Basic

/-!
A sliding window over admissions.

An attempt is admitted where fewer than `limit` earlier admissions are still
within the window before it. The bound that this gives is not only one on the
spans that end at an attempt: no set of times that is narrower than the window
holds more than `limit` admissions.
-/

namespace SlidingWindow

universe u

variable {T : Type u} [AddCommGroup T] [LinearOrder T]

/-- The admissions within the window before a time. -/
def recent (window now : T) (admitted : List T) : List T :=
  admitted.filter fun t => now - window < t

/-- The admissions after one more attempt. -/
def attempt (limit : Int) (window : T) (admitted : List T) (now : T) : List T :=
  if limit ≤ (recent window now admitted).length then admitted else admitted ++ [now]

/-- Any two times of the set are less than a window apart. -/
def Narrow (window : T) (p : T → Bool) : Prop :=
  ∀ a b, p a = true → p b = true → b - window < a

def Bounded (limit : Int) (window : T) (admitted : List T) : Prop :=
  ∀ p, Narrow window p → ((admitted.filter p).length : Int) ≤ limit

theorem bounded_nil {limit : Int} (nonneg : 0 ≤ limit) (window : T) : Bounded limit window [] :=
  fun _ _ => nonneg

theorem length_filter_le_recent {window now : T} {p : T → Bool} (narrow : Narrow window p)
    (held : p now = true) (admitted : List T) :
    (admitted.filter p).length ≤ (recent window now admitted).length := by
  refine (List.monotone_filter_right admitted fun t here => ?_).length_le
  exact decide_eq_true (narrow t now here held)

theorem Bounded.attempt {limit : Int} {window : T} {admitted : List T}
    (bounded : Bounded limit window admitted) (now : T) :
    Bounded limit window (attempt limit window admitted now) := by
  intro p narrow
  rw [SlidingWindow.attempt]
  split
  · exact bounded p narrow
  · next room =>
      rw [List.filter_append, List.length_append]
      by_cases held : p now = true
      · have fewer := length_filter_le_recent narrow held admitted
        rw [List.filter_cons_of_pos held, List.filter_nil, List.length_singleton]
        omega
      · rw [List.filter_cons_of_neg held, List.filter_nil, List.length_nil, Nat.add_zero]
        exact bounded p narrow

theorem recent_append (window now : T) (admitted more : List T) :
    recent window now (admitted ++ more) = recent window now admitted ++ recent window now more :=
  List.filter_append ..

section Spans

variable [IsOrderedAddMonoid T]

/-- Later on only what was recent can still be. -/
theorem recent_later (window : T) {now later : T} (le : now ≤ later) (admitted : List T) :
    recent window later admitted =
      (recent window now admitted).filter fun t => later - window < t := by
  rw [recent, recent, List.filter_filter]
  refine List.filter_congr fun t _ => ?_
  by_cases still : later - window < t
  · simp [still, (sub_le_sub_right le window).trans_lt still]
  · simp [still]

theorem narrow_Ico (window start : T) :
    Narrow window fun t => start ≤ t ∧ t < start + window := by
  intro a b here there
  obtain ⟨first, -⟩ := of_decide_eq_true here
  obtain ⟨-, last⟩ := of_decide_eq_true there
  exact (sub_lt_iff_lt_add.mpr last).trans_le first

theorem narrow_Ioc (window start : T) :
    Narrow window fun t => start < t ∧ t ≤ start + window := by
  intro a b here there
  obtain ⟨first, -⟩ := of_decide_eq_true here
  obtain ⟨-, last⟩ := of_decide_eq_true there
  exact (sub_le_iff_le_add.mpr last).trans_lt first

end Spans

end SlidingWindow
