import Gateway.RateLimit.FixedWindow

/-!
What windows of one length admit in any stretch of time of that length.

A window that opens in the stretch outlasts it, so at most two windows are open in it, and
each admits its limit.
-/

namespace Gateway.RateLimit

open Redis CountedWindow

/-- An attempt: a cost of one against a limit that does not change. -/
def attemptCall (clock : Int) (limit : Nat) : WindowCall := ⟨clock, limit, 1⟩

/-- `n` attempts were admitted in the stretch of `seconds` from `t` on, the last of them in the
window. -/
structure SpentIn (seconds t : Int) (limit : Nat) (w : CountedWindow) (last : Int) (n : Nat) :
    Prop where
  ones : ∀ cost ∈ w.costs, cost = 1
  full : w.costs.length ≤ limit
  past : w.began ≤ last
  early : w.began < t → n ≤ w.costs.length
  late : t ≤ w.began → w.began < t + seconds * 1000 → n ≤ limit + w.costs.length

structure Spent (seconds t : Int) (limit : Nat) (window : Option CountedWindow) (last : Int)
    (n : Nat) : Prop where
  within : ∀ w, window = some w → SpentIn seconds t limit w last n
  unopened : window = none → n = 0
  before : last < t → n = 0
  bounded : n ≤ 2 * limit

namespace Spent

variable {seconds t last clock : Int} {limit n : Nat} {window : Option CountedWindow}

theorem fresh (seconds t : Int) (limit : Nat) (last : Int) : Spent seconds t limit none last 0 where
  within _ opened := by cases opened
  unopened _ := rfl
  before _ := rfl
  bounded := Nat.zero_le _

/-- Time passes. -/
theorem later (spent : Spent seconds t limit window last n) (le : last ≤ clock) :
    Spent seconds t limit window clock n :=
  { spent with
    within := fun w opened =>
      { spent.within w opened with past := (spent.within w opened).past.trans le }
    before := fun ahead => spent.before (lt_of_le_of_lt le ahead) }

/-- Fewer of them were seen to be admitted. -/
theorem fewer {m : Nat} (spent : Spent seconds t limit window last n) (le : m ≤ n) :
    Spent seconds t limit window last m where
  within w opened :=
    { spent.within w opened with
      early := fun began => le.trans ((spent.within w opened).early began)
      late := fun began within => le.trans ((spent.within w opened).late began within) }
  unopened absent := Nat.eq_zero_of_le_zero (spent.unopened absent ▸ le)
  before ahead := Nat.eq_zero_of_le_zero (spent.before ahead ▸ le)
  bounded := le.trans spent.bounded

theorem sum_ones {costs : List Int} (ones : ∀ cost ∈ costs, cost = 1) :
    costs.sum = costs.length := by
  induction costs with
  | nil => rfl
  | cons cost costs ih =>
      obtain ⟨first, rest⟩ := List.forall_mem_cons.mp ones
      rw [List.sum_cons, first, ih rest, List.length_cons]
      omega

/-- One more attempt in the window that is open. -/
theorem admit_open {w : CountedWindow} (spent : Spent seconds t limit (some w) last n)
    (le : last ≤ clock) (room : w.costs.length < limit) :
    Spent seconds t limit (some (count clock 1 (some w))) clock
      (n + if t ≤ clock ∧ clock < t + seconds * 1000 then 1 else 0) := by
  have here := spent.within w rfl
  have past := here.past
  have early := here.early
  have late := here.late
  have before := spent.before
  have bounded := spent.bounded
  have costs : (count clock 1 (some w)).costs.length = w.costs.length + 1 := List.length_append
  refine ⟨fun w' same => ?_, (fun absent => by cases absent), fun ahead => ?_, ?_⟩
  · cases same
    refine ⟨fun cost mem => ?_, by omega, past.trans le, fun began => ?_, fun began within => ?_⟩
    · cases List.mem_append.mp mem with
      | inl old => exact here.ones cost old
      | inr new => exact List.mem_singleton.mp new
    · have le := early began
      split <;> omega
    · have le := late began within
      split <;> omega
  · rw [before (by omega), if_neg (by omega)]
  · by_cases began : w.began < t
    · have le := early began
      split <;> omega
    · split
      · have le := late (not_lt.mp began) (by omega)
        omega
      · omega

/-- The first attempt in a window: the one before it, if there was one, has ended. -/
theorem admit_new (spent : Spent seconds t limit window last n) (le : last ≤ clock)
    (ended : ∀ w, window = some w → w.began + seconds * 1000 ≤ clock) (on : 0 < limit) :
    Spent seconds t limit (some (count clock 1 none)) clock
      (n + if t ≤ clock ∧ clock < t + seconds * 1000 then 1 else 0) := by
  have before := spent.before
  have bounded := spent.bounded
  have first : clock < t + seconds * 1000 → n ≤ limit := by
    intro within
    cases window with
    | none =>
        rw [spent.unopened rfl]
        exact Nat.zero_le _
    | some w =>
        have here := spent.within w rfl
        have gone := ended w rfl
        exact (here.early (by omega)).trans here.full
  refine ⟨fun w' same => ?_, (fun absent => by cases absent), fun ahead => ?_, ?_⟩
  · cases same
    refine ⟨fun cost mem => List.mem_singleton.mp mem, on, le_refl clock, fun began => ?_,
      fun began within => ?_⟩
    · change clock < t at began
      rw [before (by omega), if_neg (by omega)]
      exact Nat.zero_le _
    · change clock < t + seconds * 1000 at within
      change _ ≤ limit + 1
      have le := first within
      split <;> omega
  · rw [before (by omega), if_neg (by omega)]
  · split
    · next inside =>
        have le := first inside.2
        omega
    · omega

theorem sum_current (spent : Spent seconds t limit window last n) {w : CountedWindow}
    (here : current seconds clock window = some w) :
    counted (current seconds clock window) = w.costs.length := by
  rw [here]
  exact sum_ones (spent.within w (Option.filter_eq_some_iff.mp here).1).ones

/-- What an attempt leaves. -/
theorem step {key : String} {sys : WindowSystem} (spent : Spent seconds t limit sys.window last n)
    (counts : RateLimit.Counts seconds (sys.store key) sys.window) (le : last ≤ clock) (on : 0 < limit)
    (lasts : 0 < seconds) :
    RateLimit.Counts seconds ((windowStep key seconds sys (attemptCall clock limit)).1.store key)
        (windowStep key seconds sys (attemptCall clock limit)).1.window ∧
      Spent seconds t limit (windowStep key seconds sys (attemptCall clock limit)).1.window clock
        (n + if (windowStep key seconds sys (attemptCall clock limit)).2.head? = some 1 ∧
          t ≤ clock ∧ clock < t + seconds * 1000 then 1 else 0) := by
  have positive : (attemptCall clock limit).Positive := ⟨Int.natCast_pos.mpr on, Int.one_pos⟩
  obtain ⟨reply, next⟩ := window_step counts positive
  change _ = some (if counted (current seconds clock sys.window) + 1 ≤ (limit : Int) then (1 : ℚ)
    else 0) at reply
  refine ⟨next, ?_⟩
  have window : (windowStep key seconds sys (attemptCall clock limit)).1.window =
      current seconds clock (if (windowStep key seconds sys (attemptCall clock limit)).2.head? =
        some 1 then some (count clock 1 (current seconds clock sys.window))
        else current seconds clock sys.window) := rfl
  by_cases within : counted (current seconds clock sys.window) + 1 ≤ (limit : Int)
  · have granted : (windowStep key seconds sys (attemptCall clock limit)).2.head? = some 1 :=
      reply.trans (congrArg some (if_pos within))
    simp only [window, granted, if_true, true_and]
    cases here : current seconds clock sys.window with
    | none =>
        have opens : current seconds clock (some (count clock 1 none)) =
            some (count clock 1 none) :=
          Option.filter_some_pos (decide_eq_true (by change clock < clock + seconds * 1000; omega))
        rw [opens]
        refine spent.admit_new le (fun w opened => ?_) on
        by_contra still
        have kept : current seconds clock (some w) = some w :=
          Option.filter_some_pos (decide_eq_true (not_le.mp still))
        rw [opened, kept] at here
        cases here
    | some w =>
        obtain ⟨opened, still⟩ := Option.filter_eq_some_iff.mp here
        have room := sum_current spent here
        have open_still : current seconds clock (some (count clock 1 (some w))) =
            some (count clock 1 (some w)) := Option.filter_some_pos still
        rw [open_still]
        rw [opened] at spent
        exact spent.admit_open le (by omega)
  · have refused : (windowStep key seconds sys (attemptCall clock limit)).2.head? ≠ some 1 := by
      rw [reply, if_neg within]
      simp
    rw [window, if_neg refused, if_neg fun granted => refused granted.1, current_current]
    cases here : current seconds clock sys.window with
    | none =>
        rw [here] at within
        exact absurd (show (0 : Int) + 1 ≤ limit by omega) within
    | some w =>
        rw [← (Option.filter_eq_some_iff.mp here).1]
        exact spent.later le

end Spent

/-- A window under one key is nothing to another. -/
theorem fixedWindow_other {key other : String} (apart : key ≠ other) (clock limit window cost : Int)
    (s : Store) : (fixedWindow (command clock) other limit window cost s).2 key = s key := by
  have kept (op : Op) (s : Store) : (command clock (.on other op) s).2 key = s key :=
    Function.update_of_ne apart _ _
  rw [fixedWindow]
  split
  · rfl
  · dsimp only
    split
    · dsimp only
      exact (kept _ _).trans (kept _ _)
    · dsimp only
      refine (kept _ _).trans ?_
      split
      · exact (kept _ _).trans ((kept _ _).trans (kept _ _))
      · dsimp only
        exact (kept _ _).trans (kept _ _)

end Gateway.RateLimit
