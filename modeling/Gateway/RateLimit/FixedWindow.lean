import Gateway.Lib.Machine
import Gateway.RateLimit.Concurrency

/-!
Tokens per window: a counter that expires.

The call that creates the counter gives it its expiry, and every later call of
the window leaves the expiry alone. So the window ends its length after the first
cost in it, whatever limits its callers pass.
-/

namespace Gateway.RateLimit

open Redis

/-- The costs admitted since a window began. -/
structure CountedWindow where
  began : Int
  costs : List Int
deriving DecidableEq

namespace CountedWindow

/-- The window that is open at a time, if any is. -/
def current (seconds clock : Int) (window : Option CountedWindow) : Option CountedWindow :=
  window.filter fun w => decide (clock < w.began + seconds * 1000)

def counted (window : Option CountedWindow) : Int := window.elim 0 fun w => w.costs.sum

/-- One more cost in the window that is open, or in the one that it opens. -/
def count (clock cost : Int) (window : Option CountedWindow) : CountedWindow :=
  window.elim ⟨clock, [cost]⟩ fun w => { w with costs := w.costs ++ [cost] }

end CountedWindow

structure WindowCall where
  clock : Int
  limit : Int
  cost : Int

/-- The store, and the window that is open after the last call, as far as the replies tell. -/
structure WindowSystem where
  store : Store
  window : Option CountedWindow

open CountedWindow in
def windowStep (key : String) (seconds : Int) (sys : WindowSystem) (call : WindowCall) :
    WindowSystem × List ℚ :=
  let (result, s) :=
    fixedWindow (command call.clock) key call.limit seconds call.cost sys.store
  let here := current seconds call.clock sys.window
  (⟨s, current seconds call.clock
    (if result.head? = some 1 then some (count call.clock call.cost here) else here)⟩, result)

section Callers

def tpmLimitExceeded (limit windowSec : Int) : GatewayError :=
  .ofStatus .tpmLimitExceeded 429 s!"token rate limit exceeded ({limit} tokens per {windowSec}s)"
    none

/-- The charge before a request, with the estimate. -/
def preCharge (clock limit : Int) (estimatedTokens : ℚ) : Option WindowCall :=
  if limit ≤ 0 then none else some ⟨clock, limit, max 1 ⌈estimatedTokens⌉⟩

/-- The charge after a request, with what the estimate fell short of. -/
def extraCharge (clock limit : Int) (extraTokens : ℚ) : Option WindowCall :=
  if limit ≤ 0 ∨ extraTokens ≤ 0 then none else some ⟨clock, maxSafeInteger, ⌈extraTokens⌉⟩

def enforceTokenBudget (degraded : Bool) (clock : Int) (key : String) (limit windowSec : Int)
    (estimatedTokens : ℚ) (s : Store) : Except GatewayError Unit × Store :=
  match preCharge clock limit estimatedTokens with
  | none => (.ok (), s)
  | some call =>
      if degraded then (.error limiterUnavailable, s)
      else
        let (result, s) := fixedWindow (command clock) key call.limit windowSec call.cost s
        if result.head? = some 1 then (.ok (), s)
        else (.error (tpmLimitExceeded limit windowSec), s)

def chargeTokenBudget (degraded : Bool) (clock : Int) (key : String) (limit windowSec : Int)
    (extraTokens : ℚ) (s : Store) : Store :=
  match extraCharge clock limit extraTokens with
  | none => s
  | some call =>
      if degraded then s
      else (fixedWindow (command clock) key call.limit windowSec call.cost s).2

/-- What a window is charged with: a positive limit and a positive cost. -/
def WindowCall.Positive (call : WindowCall) : Prop := 0 < call.limit ∧ 0 < call.cost

theorem preCharge_positive {clock limit : Int} {estimatedTokens : ℚ} {call : WindowCall}
    (charged : preCharge clock limit estimatedTokens = some call) : call.Positive := by
  rw [preCharge] at charged
  split at charged
  · cases charged
  · next on =>
      obtain rfl := Option.some.inj charged
      exact ⟨not_le.mp on, lt_max_of_lt_left one_pos⟩

theorem extraCharge_positive {clock limit : Int} {extraTokens : ℚ} {call : WindowCall}
    (charged : extraCharge clock limit extraTokens = some call) : call.Positive := by
  rw [extraCharge] at charged
  split at charged
  · cases charged
  · next on =>
      obtain rfl := Option.some.inj charged
      have more : 0 < extraTokens := not_le.mp fun le => on (.inr le)
      have safe : (0 : Int) < maxSafeInteger := by decide
      exact ⟨safe, Int.ceil_pos.mpr more⟩

end Callers

section Counter

open CountedWindow

/-- The counter of a window: the sum of its costs, until the window ends. -/
def counterOf (seconds : Int) (w : CountedWindow) : Entry :=
  ⟨.scalar (.number (.finite (w.costs.sum : Int))), some (w.began + seconds * 1000)⟩

/-- The key holds the counter of the window that is open, in which something was counted. -/
structure Counts (seconds : Int) (entry : Option Entry) (window : Option CountedWindow) :
    Prop where
  entry : entry = window.map (counterOf seconds)
  counted : ∀ w ∈ window, 0 < w.costs.sum

variable {seconds clock : Int} {window : Option CountedWindow}

theorem live_counterOf (seconds clock : Int) (window : Option CountedWindow) :
    live clock (window.map (counterOf seconds)) =
      (current seconds clock window).map (counterOf seconds) := by
  rw [live, Option.filter_map]
  rfl

@[simp]
theorem current_current (seconds clock : Int) (window : Option CountedWindow) :
    current seconds clock (current seconds clock window) = current seconds clock window := by
  rw [current, current, Option.filter_filter]
  simp only [Bool.and_self]

theorem get_counter (seconds clock : Int) (window : Option CountedWindow) :
    (Op.run clock (window.map (counterOf seconds)) .get).1.toRat = (counted window : ℚ) := by
  cases window with
  | none => rfl
  | some w => rfl

theorem incrBy_counter (seconds clock cost : Int) (window : Option CountedWindow) :
    Op.run clock (window.map (counterOf seconds)) (.incrBy cost) =
      (.number (.finite ((counted window + cost : Int) : ℚ)),
        some ⟨.scalar (.number (.finite ((counted window + cost : Int) : ℚ))),
          window.map fun w => w.began + seconds * 1000⟩) := by
  cases window with
  | none => simp [Op.run, str, JsNumber.add, JsNumber.ofInt, counted]
  | some w =>
      simp [Op.run, str, counterOf, Datum.toNumber, JsNumber.add, JsNumber.ofInt, counted]

theorem ttl_keeps (clock : Int) (entry : Option Entry) :
    (Op.run clock entry .ttl).2 = entry := by
  cases entry with
  | none => rfl
  | some e => rfl

theorem counted_count (clock cost : Int) (window : Option CountedWindow) :
    (count clock cost window).costs.sum = counted window + cost := by
  cases window with
  | none => exact (Int.add_zero cost).trans (Int.zero_add cost).symm
  | some w => exact List.sum_append.trans (congrArg (w.costs.sum + ·) (Int.add_zero cost))

theorem counterOf_count (seconds clock cost : Int) (window : Option CountedWindow) :
    counterOf seconds (count clock cost window) =
      ⟨.scalar (.number (.finite ((counted window + cost : Int) : ℚ))),
        some (window.elim clock CountedWindow.began + seconds * 1000)⟩ := by
  rw [counterOf, counted_count]
  cases window with
  | none => rfl
  | some w => rfl

/-- The script on the counter of the window that is open: only the call that opens a window sets
an expiry. -/
theorem fixedWindow_spec {key : String} {s : Store} {limit cost : Int} {here : Option CountedWindow}
    (found : live clock (s key) = here.map (counterOf seconds))
    (opened : ∀ w ∈ here, 0 < w.costs.sum) (on : 0 < limit) :
    ∃ ttl, fixedWindow (command clock) key limit seconds cost s =
      if counted here + cost ≤ limit then
        ([1, ((counted here + cost : Int) : ℚ), ttl], Function.update s key
          ((current seconds clock (some (count clock cost here))).map (counterOf seconds)))
      else ([0, (counted here : ℚ), ttl],
        Function.update s key (here.map (counterOf seconds))) := by
  have alive : live clock (here.map (counterOf seconds)) = here.map (counterOf seconds) := by
    rw [← found, live_live]
  have get (entry : Option Entry) : (Op.run clock entry .get).2 = entry := rfl
  simp only [fixedWindow, if_neg (not_le.mpr on), command_on, found, Function.update_self,
    Function.update_idem, get, alive, ttl_keeps]
  rw [get_counter]
  by_cases within : counted here + cost ≤ limit
  · have room : ¬ (limit : ℚ) < counted here + cost := by
      rw [not_lt, ← Int.cast_add]
      exact Int.cast_le.mpr within
    simp only [if_pos within, if_neg room, incrBy_counter]
    refine ⟨_, Prod.ext rfl ?_⟩
    rw [← live_counterOf, Option.map_some, counterOf_count]
    have updated : (Reply.number (.finite ((counted here + cost : Int) : ℚ))).toRat = cost ↔
        counted here = 0 := by
      rw [Reply.toRat, JsNumber.toRat, Int.cast_inj]
      omega
    cases here with
    | none =>
        simp only [if_pos (updated.mpr rfl), Function.update_self, Function.update_idem]
        rfl
    | some w =>
        have charged : counted (some w) ≠ 0 := (opened w rfl).ne'
        simp only [if_neg (mt updated.mp charged), Function.update_self, Function.update_idem]
        rfl
  · have beyond : (limit : ℚ) < counted here + cost := by
      rw [← Int.cast_add]
      exact Int.cast_lt.mpr (not_le.mp within)
    simp only [if_neg within, if_pos beyond]
    exact ⟨_, rfl⟩

/-- A call within the limit is counted, and any other one changes nothing. -/
theorem window_step {key : String} {sys : WindowSystem} {call : WindowCall}
    (h : Counts seconds (sys.store key) sys.window) (positive : call.Positive) :
    ((windowStep key seconds sys call).2.head? =
        some (if counted (current seconds call.clock sys.window) + call.cost ≤ call.limit then 1
          else 0)) ∧
      Counts seconds ((windowStep key seconds sys call).1.store key)
        (windowStep key seconds sys call).1.window := by
  have found : live call.clock (sys.store key) =
      (current seconds call.clock sys.window).map (counterOf seconds) := by
    rw [h.entry, live_counterOf]
  have opened : ∀ w ∈ current seconds call.clock sys.window, 0 < w.costs.sum := fun w mem =>
    h.counted w (Option.filter_eq_some_iff.mp mem).1
  obtain ⟨ttl, spec⟩ := @fixedWindow_spec seconds call.clock key sys.store call.limit call.cost _
    found opened positive.1
  simp only [windowStep, spec]
  by_cases within : counted (current seconds call.clock sys.window) + call.cost ≤ call.limit
  · simp only [if_pos within, List.head?_cons, Function.update_self, if_true]
    refine ⟨trivial, rfl, fun w mem => ?_⟩
    obtain rfl := Option.some.inj (Option.filter_eq_some_iff.mp mem).1
    have before : 0 ≤ counted (current seconds call.clock sys.window) := by
      cases here : current seconds call.clock sys.window with
      | none => exact le_refl 0
      | some w => exact (opened w here).le
    rw [counted_count]
    exact add_pos_of_nonneg_of_pos before positive.2
  · simp only [if_neg within, List.head?_cons, Function.update_self]
    refine ⟨trivial, ?_⟩
    rw [if_neg (by simp), current_current]
    exact ⟨rfl, opened⟩

theorem window_run {key : String} {sys : WindowSystem}
    (h : Counts seconds (sys.store key) sys.window) {calls : List WindowCall}
    (positive : ∀ call ∈ calls, call.Positive) :
    ∀ e ∈ Machine.trace (windowStep key seconds) sys calls,
      (e.reply.head? = some
        (if counted (current seconds e.action.clock e.before.window) + e.action.cost ≤
            e.action.limit then 1 else 0)) ∧
        e.after.store key = e.after.window.map (counterOf seconds) := by
  induction calls generalizing sys with
  | nil =>
      intro e mem
      cases mem
  | cons call calls ih =>
      obtain ⟨reply, next⟩ := window_step h (positive call List.mem_cons_self)
      intro e mem
      cases mem with
      | head => exact ⟨reply, next.entry⟩
      | tail _ mem => exact ih next (fun c later => positive c (List.mem_cons_of_mem _ later)) e mem

end Counter

open CountedWindow in
/-- Every call is decided by the costs of the window that is open, and its counter is their sum,
with an expiry one length of the window after it began. -/
theorem fixed_window (key : String) (seconds : Int) {s : Store} (fresh : s key = none)
    {calls : List WindowCall} (positive : ∀ call ∈ calls, 0 < call.limit ∧ 0 < call.cost) :
    ∀ e ∈ Machine.trace (windowStep key seconds) ⟨s, none⟩ calls,
      (e.reply.head? = some
        (if counted (current seconds e.action.clock e.before.window) + e.action.cost ≤
            e.action.limit then 1 else 0)) ∧
      e.after.store key = e.after.window.map fun w =>
        ⟨.scalar (.number (.finite (w.costs.sum : Int))), some (w.began + seconds * 1000)⟩ :=
  window_run ⟨fresh, fun _ mem => by cases mem⟩ positive

/-- A charge beyond the budget of a window, a call that it turns away, and the next window. -/
theorem fixed_window_charged :
    Store.empty "k" = none ∧
      ∀ e ∈ Machine.trace (windowStep "k" 60) ⟨Store.empty, none⟩
        [⟨0, 100, 70⟩, ⟨1000, maxSafeInteger, 50⟩, ⟨2000, 100, 1⟩, ⟨60000, 100, 1⟩],
        e.after.store "k" = e.after.window.map fun w =>
          ⟨.scalar (.number (.finite (w.costs.sum : Int))), some (w.began + 60 * 1000)⟩ :=
  ⟨rfl, fun e mem => (fixed_window "k" 60 rfl (by decide) e mem).2⟩

end Gateway.RateLimit
