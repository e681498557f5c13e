import Gateway.Redis.Scripts
import Gateway.Routing.Health
import Gateway.Db.Types
import Gateway.Lib.Machine

/-!
The circuit breaker of a channel, over any interleaving of the calls that record
its outcomes.

A call runs the health script and, when enough failures are counted, disables
the channel in the database. The two stores fail apart, and either may lose its
answer after it has done its work.
-/

namespace Gateway

open Redis (Entry Store live)

structure BreakerSettings where
  threshold : Int
  cooldownSec : Int
  autoDisableFails : Int

def BreakerSettings.disableLimit (settings : BreakerSettings) : Nat :=
  autoDisableAfter settings.autoDisableFails.toNat settings.threshold.toNat

/-- How a request to a store ends: it may never arrive, and its answer may be lost. -/
inductive Delivery where
  | refused
  | lost
  | answered
deriving DecidableEq, Repr

/-- One outcome on its way to the health script. `clock` is read by the caller,
`now` is the clock that the store expires its keys by. -/
structure Outcome where
  ok : Bool
  clock : Nat
  now : Int
  delivery : Delivery
deriving DecidableEq, Repr

/-- What is known of a channel's health; `disabling` are the calls between their
two stores, with what the script has answered them. -/
structure ChannelHealth where
  store : Store
  status : EntityStatus
  autoDisabled : Bool
  failCount : Nat
  disabling : List (Bool × Nat)

inductive HealthAction where
  | record (outcome : Outcome)
  | disable (i : Nat) (delivery : Delivery)
  /-- what anyone else writes to the channel -/
  | operate (status : EntityStatus) (autoDisabled : Bool) (failCount : Nat)

/-- `raw` is what was read of the breaker, `none` when that failed. -/
def isChannelOpen (raw : Option Redis.Reply) (clock : Nat) : Bool :=
  raw.any fun reply => decide ((clock : ℚ) < reply.toRat)

def readOpenUntil (key : String) (now : Int) (store : Store) : Redis.Reply :=
  (Redis.command now (.on key (.hget "openUntil")) store).1

/-- What `recordChannelOutcome` reads of the answer of the script. -/
def scriptAnswer (result : List ℚ) : Bool × Nat :=
  (decide (result[0]?.getD 0 = 1), ⌊result[1]?.getD 0⌋₊)

/-- The update of `autoDisableChannel`, which is guarded on the status. -/
def disableChannel (fails : Nat) (s : ChannelHealth) : Bool × ChannelHealth :=
  if s.status = .enabled then
    (true, { s with status := .disabled, autoDisabled := true, failCount := fails })
  else (false, s)

section Calls

variable (settings : BreakerSettings) (key : String)

def runHealth (outcome : Outcome) (store : Store) : (Bool × Nat) × Store :=
  let (result, store) := Redis.health (Redis.command outcome.now) key (if outcome.ok then 1 else 0)
    settings.threshold settings.cooldownSec outcome.clock store
  (scriptAnswer result, store)

/-- Whether the answer of the script asks for the channel to be disabled. -/
def asksToDisable (ok : Bool) (script : Bool × Nat) : Bool :=
  !ok && decide (0 < settings.disableLimit ∧ settings.disableLimit ≤ script.2)

/-- One step of a call to `recordChannelOutcome`, or of somebody else. The reply is
what the call returns when it ends. -/
def healthStep (s : ChannelHealth) : HealthAction → ChannelHealth × Option ChannelOutcome
  | .record outcome =>
      let (script, store) := runHealth settings key outcome s.store
      match outcome.delivery with
      | .refused => (s, some (recordChannelOutcome settings.disableLimit ⟨none, none⟩ outcome.ok))
      | .lost =>
          ({ s with store },
            some (recordChannelOutcome settings.disableLimit ⟨none, none⟩ outcome.ok))
      | .answered =>
          if asksToDisable settings outcome.ok script then
            ({ s with store, disabling := s.disabling ++ [script] }, none)
          else
            ({ s with store },
              some (recordChannelOutcome settings.disableLimit ⟨some script, none⟩ outcome.ok))
  | .disable i delivery =>
      match s.disabling[i]? with
      | none => (s, none)
      | some script =>
          let (updated, after) := disableChannel script.2 s
          let waiting := s.disabling.eraseIdx i
          let answer disable :=
            some (recordChannelOutcome settings.disableLimit ⟨some script, disable⟩ false)
          match delivery with
          | .refused => ({ s with disabling := waiting }, answer none)
          | .lost => ({ after with disabling := waiting }, answer none)
          | .answered => ({ after with disabling := waiting }, answer (some updated))
  | .operate status autoDisabled failCount => ({ s with status, autoDisabled, failCount }, none)

end Calls

section Script

/-- The hash under the key of a channel: the failures, and until when it is open. -/
def breakerHash (fails : Nat) (openUntil : Option Int) : Redis.Value :=
  .hash (("fails", .number (.ofInt fails)) ::
    openUntil.toList.map fun t => ("openUntil", .number (.ofInt t)))

/-- A key that is missing reads as a channel without failures. -/
def HoldsBreaker (entry : Option Entry) (fails : Nat) (openUntil : Option Int) : Prop :=
  (entry = none ∧ fails = 0 ∧ openUntil = none) ∨
    ∃ expiresAt, entry = some ⟨breakerHash fails openUntil, expiresAt⟩

variable {key : String} {store : Store} {now : Int} {fails : Nat} {openUntil : Option Int}

theorem run_reset {entry : Option Entry} (held : HoldsBreaker (live now entry) fails openUntil) :
    ∃ reply expiresAt, Redis.Op.run now (live now entry)
        (.hset [("fails", .number (.ofInt 0)), ("openUntil", .number (.ofInt 0))]) =
          (reply, some ⟨breakerHash 0 (some 0), expiresAt⟩) ∧
      live now (some ⟨breakerHash 0 (some 0), expiresAt⟩) =
        some ⟨breakerHash 0 (some 0), expiresAt⟩ := by
  rcases held with ⟨missing, -, -⟩ | ⟨expiresAt, found⟩
  · rw [missing]
    exact ⟨_, none, rfl, rfl⟩
  · have fresh : live now (some ⟨breakerHash 0 (some 0), expiresAt⟩) =
        some ⟨breakerHash 0 (some 0), expiresAt⟩ := Redis.live_of_found found
    rw [found]
    cases openUntil with
    | none => exact ⟨_, expiresAt, rfl, fresh⟩
    | some _ => exact ⟨_, expiresAt, rfl, fresh⟩

theorem run_count {entry : Option Entry} (held : HoldsBreaker (live now entry) fails openUntil) :
    ∃ expiresAt, Redis.Op.run now (live now entry) (.hincrby "fails" 1) =
        (.number (.ofInt (fails + 1 : Nat)),
          some ⟨breakerHash (fails + 1) openUntil, expiresAt⟩) ∧
      live now (some ⟨breakerHash (fails + 1) openUntil, expiresAt⟩) =
        some ⟨breakerHash (fails + 1) openUntil, expiresAt⟩ := by
  rcases held with ⟨missing, rfl, rfl⟩ | ⟨expiresAt, found⟩
  · rw [missing]
    have sum : (JsNumber.finite 0).add (.ofInt 1) = .ofInt (0 + 1 : Nat) := by
      simp only [JsNumber.add, JsNumber.ofInt, Int.cast_one, zero_add, Nat.cast_one]
    refine ⟨none, ?_, rfl⟩
    rw [breakerHash, ← sum]
    rfl
  · have fresh : live now (some ⟨breakerHash (fails + 1) openUntil, expiresAt⟩) =
        some ⟨breakerHash (fails + 1) openUntil, expiresAt⟩ := Redis.live_of_found found
    have sum : (JsNumber.ofInt fails).add (.ofInt 1) = .ofInt (fails + 1 : Nat) := by
      simp only [JsNumber.add, JsNumber.ofInt, Int.cast_natCast, Int.cast_one, Nat.cast_add,
        Nat.cast_one, Int.cast_add]
    rw [found]
    refine ⟨expiresAt, ?_, fresh⟩
    rw [breakerHash, breakerHash, ← sum]
    cases openUntil <;> rfl

theorem run_open (now : Int) (fails : Nat) (openUntil expiresAt : Option Int) (t : Int) :
    ∃ reply, Redis.Op.run now (some ⟨breakerHash fails openUntil, expiresAt⟩)
        (.hset [("openUntil", .number (.ofInt t))]) =
      (reply, some ⟨breakerHash fails (some t), expiresAt⟩) := by
  cases openUntil with
  | none => exact ⟨_, rfl⟩
  | some _ => exact ⟨_, rfl⟩

theorem health_success (held : HoldsBreaker (live now (store key)) fails openUntil)
    (threshold cooldown clock : Int) :
    Redis.health (Redis.command now) key 1 threshold cooldown clock store =
      ([0, 0], Function.update store key
        (some ⟨breakerHash 0 (some 0), some (now + cooldown * 10 * 1000)⟩)) := by
  obtain ⟨reply, expiresAt, reset, fresh⟩ := run_reset held
  simp only [Redis.health, if_true, Redis.command_on, reset, Function.update_self,
    Function.update_idem, fresh]
  rfl

theorem health_failure (held : HoldsBreaker (live now (store key)) fails openUntil)
    (threshold cooldown clock : Int) :
    Redis.health (Redis.command now) key 0 threshold cooldown clock store =
      ([if threshold ≤ (fails + 1 : Nat) then 1 else 0, ((fails + 1 : Nat) : ℚ)],
        Function.update store key
          (some ⟨breakerHash (fails + 1)
              (if threshold ≤ (fails + 1 : Nat) then some (clock + cooldown * 1000) else openUntil),
            some (now + cooldown * 10 * 1000)⟩)) := by
  obtain ⟨expiresAt, counted, fresh⟩ := run_count held
  have count : (Redis.Reply.number (.ofInt (fails + 1 : Nat))).toRat = (fails + 1 : Nat) := by
    simp only [Redis.Reply.toRat, JsNumber.ofInt, JsNumber.toRat, Int.cast_natCast]
  have tripped : (threshold : ℚ) ≤ ((fails + 1 : Nat) : ℚ) ↔ threshold ≤ (fails + 1 : Nat) := by
    exact_mod_cast Iff.rfl
  simp only [Redis.health, if_neg (by decide : ¬(0 : Int) = 1), Redis.command_on, counted, count,
    tripped, Function.update_self, Function.update_idem, fresh]
  by_cases reached : threshold ≤ (fails + 1 : Nat)
  · obtain ⟨reply, opened⟩ := run_open now (fails + 1) openUntil expiresAt
      (clock + cooldown * 1000)
    have fresh' : live now (some ⟨breakerHash (fails + 1) (some (clock + cooldown * 1000)),
        expiresAt⟩) = some ⟨breakerHash (fails + 1) (some (clock + cooldown * 1000)), expiresAt⟩ :=
      Redis.live_of_found fresh
    simp only [if_pos reached, opened, Function.update_self, Function.update_idem, fresh']
    rfl
  · simp only [if_neg reached, fresh, Function.update_self, Function.update_idem]
    rfl

theorem runHealth_success (settings : BreakerSettings) {o : Outcome}
    (held : HoldsBreaker (live o.now (store key)) fails openUntil) (ok : o.ok = true) :
    runHealth settings key o store = ((false, 0), Function.update store key
      (some ⟨breakerHash 0 (some 0), some (o.now + settings.cooldownSec * 10 * 1000)⟩)) := by
  have answer : scriptAnswer [0, 0] = (false, 0) := by simp [scriptAnswer]
  rw [runHealth, ok, if_pos rfl, health_success held]
  exact Prod.ext answer rfl

theorem runHealth_failure (settings : BreakerSettings) {o : Outcome}
    (held : HoldsBreaker (live o.now (store key)) fails openUntil) (failed : o.ok = false) :
    runHealth settings key o store =
      ((decide (settings.threshold ≤ (fails + 1 : Nat)), fails + 1), Function.update store key
        (some ⟨breakerHash (fails + 1) (if settings.threshold ≤ (fails + 1 : Nat) then
            some (o.clock + settings.cooldownSec * 1000) else openUntil),
          some (o.now + settings.cooldownSec * 10 * 1000)⟩)) := by
  have answer : scriptAnswer [if settings.threshold ≤ (fails + 1 : Nat) then 1 else 0,
      ((fails + 1 : Nat) : ℚ)] = (decide (settings.threshold ≤ (fails + 1 : Nat)), fails + 1) := by
    refine Prod.ext ?_ (Nat.floor_natCast (fails + 1))
    by_cases reached : settings.threshold ≤ (fails + 1 : Nat)
    · simp only [scriptAnswer, if_pos reached, decide_eq_true reached]
      rfl
    · simp only [scriptAnswer, if_neg reached, decide_eq_false reached]
      rfl
  rw [runHealth, failed, if_neg (by decide), health_failure held]
  exact Prod.ext answer rfl

/-- What the hash says of a moment, to a caller whose key is alive. -/
theorem isChannelOpen_holds (held : HoldsBreaker (live now (store key)) fails openUntil)
    (clock : Nat) :
    isChannelOpen (some (readOpenUntil key now store)) clock =
      decide ((clock : Int) < openUntil.getD 0) := by
  have read : (readOpenUntil key now store).toRat = (openUntil.getD 0 : Int) := by
    rw [readOpenUntil, Redis.command_on]
    rcases held with ⟨missing, -, rfl⟩ | ⟨expiresAt, found⟩
    · rw [missing]
      rfl
    · rw [found]
      cases openUntil with
      | none => rfl
      | some t => rfl
  rw [isChannelOpen, Option.any_some, read]
  exact decide_eq_decide.mpr (by exact_mod_cast Iff.rfl)

end Script

section History

/-- How many failures there have been since the last success. -/
def failuresSince (history : List Outcome) : Nat :=
  (history.reverse.takeWhile fun o => !o.ok).length

/-- The outcomes that reach the script. -/
def recorded (actions : List HealthAction) : List Outcome :=
  actions.filterMap fun
    | .record o => if o.delivery = .refused then none else some o
    | _ => none

theorem failuresSince_success (history : List Outcome) {o : Outcome} (ok : o.ok = true) :
    failuresSince (history ++ [o]) = 0 := by
  simp [failuresSince, ok]

theorem failuresSince_failure (history : List Outcome) {o : Outcome} (failed : o.ok = false) :
    failuresSince (history ++ [o]) = failuresSince history + 1 := by
  simp [failuresSince, failed]

theorem recorded_append (actions more : List HealthAction) :
    recorded (actions ++ more) = recorded actions ++ recorded more :=
  List.filterMap_append

/-- What the store holds of a channel after a history: the breaker is set to close a
cooldown after the last failure exactly if the threshold is reached. -/
def Follows (settings : BreakerSettings) (entry : Option Entry) (history : List Outcome) : Prop :=
  (entry = none ∧ history = []) ∨
    ∃ last openUntil expiresAt, history.getLast? = some last ∧
      entry = some ⟨breakerHash (failuresSince history) openUntil, expiresAt⟩ ∧
      (settings.threshold ≤ failuresSince history →
        openUntil = some (last.clock + settings.cooldownSec * 1000)) ∧
      ((failuresSince history : Int) < settings.threshold → openUntil.getD 0 = 0)

variable {settings : BreakerSettings} {key : String} {history : List Outcome}

theorem Follows.holds {entry : Option Entry} (follows : Follows settings entry history) :
    ∃ openUntil, HoldsBreaker entry (failuresSince history) openUntil ∧
      ((failuresSince history : Int) < settings.threshold → openUntil.getD 0 = 0) := by
  rcases follows with ⟨rfl, rfl⟩ | ⟨last, openUntil, expiresAt, -, found, -, closed⟩
  · exact ⟨none, .inl ⟨rfl, rfl, rfl⟩, fun _ => rfl⟩
  · exact ⟨openUntil, .inr ⟨expiresAt, found⟩, closed⟩

/-- The script answers with the failures since the last success, and what it leaves
follows the longer history. -/
theorem runHealth_follows {store : Store} {o : Outcome} (positive : 1 ≤ settings.threshold)
    (alive : live o.now (store key) = store key)
    (follows : Follows settings (store key) history) :
    (runHealth settings key o store).1 =
        (decide (settings.threshold ≤ failuresSince (history ++ [o])),
          failuresSince (history ++ [o])) ∧
      Follows settings ((runHealth settings key o store).2 key) (history ++ [o]) := by
  obtain ⟨openUntil, held, closed⟩ := follows.holds
  rw [← alive] at held
  cases outcome : o.ok with
  | true =>
      have none_since := failuresSince_success history outcome
      have below : ¬settings.threshold ≤ ((0 : Nat) : Int) := by omega
      rw [runHealth_success settings held outcome, none_since]
      refine ⟨by rw [decide_eq_false below], .inr ⟨o, some 0,
        some (o.now + settings.cooldownSec * 10 * 1000), List.getLast?_concat, ?_, ?_,
        fun _ => rfl⟩⟩
      · rw [none_since]
        exact Function.update_self ..
      · intro reached
        rw [none_since] at reached
        exact absurd reached below
  | false =>
      have one_more := failuresSince_failure history outcome
      rw [runHealth_failure settings held outcome, one_more]
      refine ⟨rfl, .inr ⟨o, if settings.threshold ≤ (failuresSince history + 1 : Nat) then
          some (o.clock + settings.cooldownSec * 1000) else openUntil,
        some (o.now + settings.cooldownSec * 10 * 1000), List.getLast?_concat, ?_, ?_, ?_⟩⟩
      · rw [one_more]
        exact Function.update_self ..
      · intro reached
        rw [one_more] at reached
        exact if_pos reached
      · intro before
        rw [one_more] at before
        rw [if_neg (by omega)]
        exact closed (by omega)

/-- Below the threshold the breaker is closed to every reader, the key expired or not. -/
theorem Follows.closed {store : Store} (follows : Follows settings (store key) history)
    (below : (failuresSince history : Int) < settings.threshold) (now : Int) (clock : Nat) :
    isChannelOpen (some (readOpenUntil key now store)) clock = false := by
  have shut {fails : Nat} {openUntil : Option Int}
      (held : HoldsBreaker (live now (store key)) fails openUntil) (zero : openUntil.getD 0 = 0) :
      isChannelOpen (some (readOpenUntil key now store)) clock = false := by
    rw [isChannelOpen_holds held, zero]
    exact decide_eq_false (by omega)
  obtain ⟨openUntil, held, zero⟩ := follows.holds
  cases found : live now (store key) with
  | none => exact shut (.inl ⟨found, rfl, rfl⟩) rfl
  | some e =>
      have same : live now (store key) = store key :=
        found.trans (Option.filter_eq_some_iff.mp found).1.symm
      exact shut (same.symm ▸ held) (zero below)

theorem Follows.open_iff {store : Store} (positive : 1 ≤ settings.threshold)
    (follows : Follows settings (store key) history) {now : Int}
    (alive : live now (store key) = store key) (clock : Nat) :
    isChannelOpen (some (readOpenUntil key now store)) clock = true ↔
      settings.threshold ≤ failuresSince history ∧
        ∃ last ∈ history.getLast?, (clock : Int) < last.clock + settings.cooldownSec * 1000 := by
  by_cases below : (failuresSince history : Int) < settings.threshold
  · rw [follows.closed below now clock]
    exact ⟨(fun h => by cases h), (fun h => by omega)⟩
  · rcases follows with ⟨-, rfl⟩ | ⟨last, openUntil, expiresAt, final, found, opened, -⟩
    · exact absurd (show ((failuresSince [] : Nat) : Int) < settings.threshold from by
        simp only [failuresSince, List.reverse_nil, List.takeWhile_nil, List.length_nil]
        omega) below
    · have held : HoldsBreaker (live now (store key)) (failuresSince history) openUntil :=
        .inr ⟨expiresAt, alive.trans found⟩
      rw [isChannelOpen_holds held, opened (by omega), final]
      simp only [Option.getD_some, decide_eq_true_eq, Option.mem_some_iff, exists_eq_left']
      exact ⟨fun h => ⟨by omega, h⟩, And.right⟩

end History

section Runs

variable {settings : BreakerSettings} {key : String}

/-- The key has not expired when the script reads it. -/
def HealthAction.Unexpired (key : String) (s : ChannelHealth) : HealthAction → Prop
  | .record o => o.delivery ≠ .refused → live o.now (s.store key) = s.store key
  | _ => True

instance (key : String) (s : ChannelHealth) (a : HealthAction) : Decidable (a.Unexpired key s) :=
  match a with
  | .record o =>
      inferInstanceAs (Decidable (o.delivery ≠ .refused → live o.now (s.store key) = s.store key))
  | .disable .. | .operate .. => isTrue trivial

def NoExpiry (settings : BreakerSettings) (key : String) (s₀ : ChannelHealth)
    (actions : List HealthAction) : Prop :=
  ∀ e ∈ Machine.trace (healthStep settings key) s₀ actions, e.action.Unexpired key e.before

/-- What a call that disables the channel was answered: one of its run was a failure, the last of
so many in a row that both limits are reached. -/
def Earned (settings : BreakerSettings) (done : List HealthAction) (script : Bool × Nat) : Prop :=
  ∃ before o, before ++ [.record o] <+: done ∧ o.ok = false ∧
    script = (true, failuresSince (recorded (before ++ [.record o]))) ∧
    0 < settings.autoDisableFails ∧
    max settings.autoDisableFails settings.threshold ≤ script.2

theorem Earned.later {done : List HealthAction} {script : Bool × Nat}
    (earned : Earned settings done script) (a : HealthAction) :
    Earned settings (done ++ [a]) script := by
  obtain ⟨before, o, earlier, rest⟩ := earned
  exact ⟨before, o, earlier.trans (List.prefix_append done [a]), rest⟩

theorem asksToDisable_spec {ok : Bool} {script : Bool × Nat}
    (asked : asksToDisable settings ok script = true) :
    ok = false ∧ 0 < settings.autoDisableFails ∧
      max settings.autoDisableFails settings.threshold ≤ script.2 := by
  rw [asksToDisable, Bool.and_eq_true, Bool.not_eq_true', decide_eq_true_eq] at asked
  obtain ⟨failed, positive, reached⟩ := asked
  rw [BreakerSettings.disableLimit, autoDisableAfter] at positive reached
  by_cases off : settings.autoDisableFails.toNat = 0
  · rw [if_pos off] at positive
    exact absurd positive (Nat.lt_irrefl 0)
  · rw [if_neg off] at reached
    exact ⟨failed, by omega, by omega⟩

structure Tracked (settings : BreakerSettings) (key : String) (done : List HealthAction)
    (s : ChannelHealth) : Prop where
  follows : Follows settings (s.store key) (recorded done)
  earned : ∀ script ∈ s.disabling, Earned settings done script

theorem recorded_refused (done : List HealthAction) {o : Outcome}
    (refused : o.delivery = .refused) :
    recorded (done ++ [.record o]) = recorded done := by
  rw [recorded_append]
  simp [recorded, refused]

theorem recorded_arrived (done : List HealthAction) {o : Outcome}
    (arrived : o.delivery ≠ .refused) :
    recorded (done ++ [.record o]) = recorded done ++ [o] := by
  rw [recorded_append]
  simp [recorded, arrived]

theorem tracked_step {done : List HealthAction} {s : ChannelHealth} {a : HealthAction}
    (positive : 1 ≤ settings.threshold) (alive : a.Unexpired key s)
    (tracked : Tracked settings key done s) :
    Tracked settings key (done ++ [a]) (healthStep settings key s a).1 := by
  have kept : ∀ script ∈ s.disabling, Earned settings (done ++ [a]) script :=
    fun script mem => (tracked.earned script mem).later a
  cases a with
  | record o =>
      by_cases refused : o.delivery = .refused
      · have same : (healthStep settings key s (.record o)).1 = s := by
          simp only [healthStep, refused]
        rw [same]
        exact ⟨recorded_refused done refused ▸ tracked.follows, kept⟩
      have history := recorded_arrived done refused
      obtain ⟨answer, follows⟩ := runHealth_follows positive (alive refused) tracked.follows
      rw [← history] at answer follows
      cases delivery : o.delivery with
      | refused => exact absurd delivery refused
      | lost =>
          simp only [healthStep, delivery]
          exact ⟨follows, kept⟩
      | answered =>
          simp only [healthStep, delivery]
          by_cases asked : asksToDisable settings o.ok (runHealth settings key o s.store).1 = true
          · rw [if_pos asked]
            refine ⟨follows, fun script mem => ?_⟩
            rcases List.mem_append.mp mem with mem | mem
            · exact kept script mem
            · obtain rfl := List.mem_singleton.mp mem
              obtain ⟨failed, configured, reached⟩ := asksToDisable_spec asked
              refine ⟨done, o, List.prefix_refl _, failed, ?_, configured, reached⟩
              rw [answer] at reached ⊢
              exact Prod.ext (decide_eq_true (le_trans (le_max_right _ _) reached)) rfl
          · rw [if_neg asked]
            exact ⟨follows, kept⟩
  | disable i delivery =>
      have same : recorded (done ++ [.disable i delivery]) = recorded done := by
        rw [recorded_append]
        exact List.append_nil _
      rw [healthStep]
      cases found : s.disabling[i]? with
      | none => exact ⟨same ▸ tracked.follows, kept⟩
      | some script =>
          have fewer : ∀ script ∈ s.disabling.eraseIdx i,
              Earned settings (done ++ [.disable i delivery]) script :=
            fun script mem => kept script (List.mem_of_mem_eraseIdx mem)
          have store : (disableChannel script.2 s).2.store = s.store := by
            rw [disableChannel]
            split <;> rfl
          cases delivery with
          | refused => exact ⟨same ▸ tracked.follows, fewer⟩
          | lost => exact ⟨same.symm ▸ store.symm ▸ tracked.follows, fewer⟩
          | answered => exact ⟨same.symm ▸ store.symm ▸ tracked.follows, fewer⟩
  | operate status autoDisabled failCount =>
      have same : recorded (done ++ [.operate status autoDisabled failCount]) = recorded done := by
        rw [recorded_append]
        exact List.append_nil _
      exact ⟨same ▸ tracked.follows, kept⟩

theorem NoExpiry.at {s₀ : ChannelHealth} {actions done : List HealthAction} {a : HealthAction}
    (unexpired : NoExpiry settings key s₀ actions) (reached : done ++ [a] <+: actions) :
    a.Unexpired key (Machine.run (healthStep settings key) s₀ done) := by
  obtain ⟨rest, rfl⟩ := reached
  apply unexpired ⟨_, a, _, _⟩
  rw [List.append_assoc, Machine.trace_append]
  exact List.mem_append_right _ List.mem_cons_self

theorem tracked_run {s₀ : ChannelHealth} {actions : List HealthAction}
    (positive : 1 ≤ settings.threshold) (fresh : s₀.store key = none) (idle : s₀.disabling = [])
    (unexpired : NoExpiry settings key s₀ actions) (done : List HealthAction)
    (reached : done <+: actions) :
    Tracked settings key done (Machine.run (healthStep settings key) s₀ done) := by
  induction done using List.reverseRecOn with
  | nil =>
      refine ⟨.inl ⟨fresh, rfl⟩, fun script mem => ?_⟩
      rw [Machine.run_nil, idle] at mem
      cases mem
  | append_singleton done a ih =>
      have earlier := ih ((List.prefix_append done [a]).trans reached)
      rw [Machine.run_append]
      exact tracked_step positive (unexpired.at reached) earlier

/-- A call that returns that it has disabled the channel. -/
def Reports (e : Machine.Event ChannelHealth HealthAction (Option ChannelOutcome)) : Bool :=
  e.reply.any ChannelOutcome.autoDisabled

/-- An operator's write that leaves the channel enabled. -/
def HealthAction.enables : HealthAction → Bool
  | .operate status _ _ => decide (status = .enabled)
  | _ => false

def HealthAction.ofOperator : HealthAction → Bool
  | .operate .. => true
  | _ => false

/-- A step of a call that takes the channel out of service, or says so. -/
def Disables (settings : BreakerSettings) (key : String) (s : ChannelHealth) (a : HealthAction) :
    Prop :=
  a.ofOperator = false ∧ ((healthStep settings key s a).1.status ≠ s.status ∨
    (healthStep settings key s a).2.any ChannelOutcome.autoDisabled = true)

/-- A call returns what the script has answered it, and reports what the database has. -/
theorem recordChannelOutcome_counts (limit : Nat) (script : Bool × Nat) (disable : Option Bool)
    (ok : Bool) : ∃ reported,
      recordChannelOutcome limit ⟨some script, disable⟩ ok = ⟨script.1, script.2, reported⟩ ∧
      (reported = true → disable = some true) := by
  rw [recordChannelOutcome]
  dsimp only
  split
  · cases disable with
    | none => exact ⟨false, rfl, (fun h => by cases h)⟩
    | some b => exact ⟨b, rfl, fun h => congrArg some h⟩
  · exact ⟨false, rfl, (fun h => by cases h)⟩

variable (settings key) in
/-- Recording an outcome leaves the channel as it is. -/
theorem record_quiet (s : ChannelHealth) (o : Outcome) :
    (healthStep settings key s (.record o)).1.status = s.status ∧
      (healthStep settings key s (.record o)).2.any ChannelOutcome.autoDisabled = false := by
  rw [healthStep]
  cases o.delivery with
  | refused => exact ⟨rfl, rfl⟩
  | lost => exact ⟨rfl, rfl⟩
  | answered =>
      dsimp only
      split
      · exact ⟨rfl, rfl⟩
      · obtain ⟨reported, same, only⟩ := recordChannelOutcome_counts settings.disableLimit
          (runHealth settings key o s.store).1 none o.ok
        cases reported with
        | false => exact ⟨rfl, by rw [same]; rfl⟩
        | true => exact nomatch only rfl

theorem disableChannel_spec (fails : Nat) (s : ChannelHealth) :
    (s.status = .enabled ∧ (disableChannel fails s).1 = true ∧
        (disableChannel fails s).2.status = .disabled) ∨
      disableChannel fails s = (false, s) := by
  rw [disableChannel]
  by_cases enabled : s.status = .enabled
  · rw [if_pos enabled]
    exact .inl ⟨enabled, rfl, rfl⟩
  · rw [if_neg enabled]
    exact .inr rfl

variable (settings key) in
/-- The second half of a call: the channel is left alone and nothing is reported, or it
was enabled and is disabled. -/
theorem disable_step {s : ChannelHealth} {i : Nat} {script : Bool × Nat} (delivery : Delivery)
    (found : s.disabling[i]? = some script) :
    ∃ reported,
      (healthStep settings key s (.disable i delivery)).2 =
          some ⟨script.1, script.2, reported⟩ ∧
      (((healthStep settings key s (.disable i delivery)).1.status = s.status ∧
          reported = false) ∨
        (s.status = .enabled ∧
          (healthStep settings key s (.disable i delivery)).1.status = .disabled)) := by
  have unsaid {disable : Option Bool} (none_true : disable ≠ some true) :
      recordChannelOutcome settings.disableLimit ⟨some script, disable⟩ false =
        ⟨script.1, script.2, false⟩ := by
    obtain ⟨reported, same, only⟩ :=
      recordChannelOutcome_counts settings.disableLimit script disable false
    cases reported with
    | false => exact same
    | true => exact absurd (only rfl) none_true
  have update := disableChannel_spec script.2 s
  simp only [healthStep, found]
  cases delivery with
  | refused => exact ⟨false, congrArg some (unsaid (by decide)), .inl ⟨rfl, rfl⟩⟩
  | lost =>
      refine ⟨false, congrArg some (unsaid (by decide)), ?_⟩
      rcases update with ⟨enabled, -, disabled⟩ | same
      · exact .inr ⟨enabled, disabled⟩
      · exact .inl ⟨by rw [same], rfl⟩
  | answered =>
      rcases update with ⟨enabled, -, disabled⟩ | same
      · obtain ⟨reported, counts, -⟩ := recordChannelOutcome_counts settings.disableLimit script
          (some (disableChannel script.2 s).1) false
        exact ⟨reported, congrArg some counts, .inr ⟨enabled, disabled⟩⟩
      · have denied : some (false, s).1 ≠ some true := fun h => by cases h
        rw [same]
        exact ⟨false, congrArg some (unsaid denied), .inl ⟨rfl, rfl⟩⟩

/-- Only the second half of a call that is waiting disables a channel. -/
theorem disables_spec {s : ChannelHealth} {a : HealthAction}
    (disables : Disables settings key s a) :
    ∃ script ∈ s.disabling, ∃ reported,
      (healthStep settings key s a).2 = some ⟨script.1, script.2, reported⟩ ∧
      s.status = .enabled ∧ (healthStep settings key s a).1.status = .disabled := by
  obtain ⟨call, moved⟩ := disables
  cases a with
  | operate status autoDisabled failCount => cases call
  | record o =>
      obtain ⟨same, quiet⟩ := record_quiet settings key s o
      rcases moved with moved | moved
      · exact absurd same moved
      · rw [quiet] at moved
        cases moved
  | disable i delivery =>
      cases found : s.disabling[i]? with
      | none =>
          have idle : healthStep settings key s (.disable i delivery) = (s, none) := by
            simp only [healthStep, found]
          rw [idle] at moved
          rcases moved with moved | moved
          · exact absurd rfl moved
          · cases moved
      | some script =>
          obtain ⟨reported, answer, change⟩ := disable_step settings key delivery found
          refine ⟨script, List.mem_of_getElem? found, reported, answer, ?_⟩
          rcases change with ⟨same, rfl⟩ | change
          · rw [answer] at moved
            rcases moved with moved | moved
            · exact absurd same moved
            · cases moved
          · exact change

variable (settings key) in
/-- A report uses up that the channel is enabled, which only an operator makes it again. -/
theorem report_step (s : ChannelHealth) (a : HealthAction) :
    (if Reports ⟨s, a, (healthStep settings key s a).2, (healthStep settings key s a).1⟩ = true
        then 1 else 0) +
        (if (healthStep settings key s a).1.status = .enabled then 1 else 0) ≤
      (if s.status = .enabled then 1 else 0) + (if a.enables = true then 1 else 0) := by
  by_cases operated : a.ofOperator = true
  · cases a with
    | record o => cases operated
    | disable i delivery => cases operated
    | operate status autoDisabled failCount =>
        simp only [healthStep, Reports, HealthAction.enables, Option.any_none, Bool.false_eq_true,
          if_false, decide_eq_true_eq, Nat.zero_add]
        exact Nat.le_add_left _ _
  · by_cases disables : Disables settings key s a
    · obtain ⟨-, -, -, -, enabled, disabled⟩ := disables_spec disables
      rw [if_pos enabled, disabled, if_neg (by decide : ¬EntityStatus.disabled = .enabled)]
      split <;> omega
    · have call : a.ofOperator = false := Bool.eq_false_of_not_eq_true operated
      have quiet : ¬Reports ⟨s, a, (healthStep settings key s a).2,
          (healthStep settings key s a).1⟩ = true :=
        fun reports => disables ⟨call, .inr reports⟩
      have same : (healthStep settings key s a).1.status = s.status :=
        not_not.mp fun moved => disables ⟨call, .inl moved⟩
      rw [if_neg quiet, same]
      omega

/-- Between two writes of an operator that enable the channel, one call at most says that it has
disabled it. -/
theorem reports_le (s : ChannelHealth) (actions : List HealthAction) :
    (Machine.trace (healthStep settings key) s actions).countP Reports ≤
      (if s.status = .enabled then 1 else 0) + actions.countP HealthAction.enables := by
  induction actions generalizing s with
  | nil => exact Nat.zero_le _
  | cons a actions ih =>
      have step := report_step settings key s a
      have rest := ih (healthStep settings key s a).1
      rw [Machine.trace, List.countP_cons, List.countP_cons]
      omega

/-- What a run of outcomes makes of a channel whose key is new. -/
structure BreakerBehaves (settings : BreakerSettings) (key : String) (s₀ : ChannelHealth)
    (actions : List HealthAction) : Prop where
  /-- It is open for a cooldown from a failure on exactly if that is the last of enough. -/
  open_iff : ∀ (now : Int) (clock : Nat),
    live now ((Machine.run (healthStep settings key) s₀ actions).store key) =
        (Machine.run (healthStep settings key) s₀ actions).store key →
      (isChannelOpen (some (readOpenUntil key now
          (Machine.run (healthStep settings key) s₀ actions).store)) clock = true ↔
        settings.threshold ≤ failuresSince (recorded actions) ∧
          ∃ last ∈ (recorded actions).getLast?,
            (clock : Int) < last.clock + settings.cooldownSec * 1000)
  success_closes : ∀ done o, actions = done ++ [.record o] → o.ok = true → o.delivery ≠ .refused →
    ∀ now clock, isChannelOpen (some (readOpenUntil key now
      (Machine.run (healthStep settings key) s₀ actions).store)) clock = false
  /-- Failures that never are enough in a row never open it. -/
  stays_closed : (∀ history, history <+: recorded actions →
      (failuresSince history : Int) < settings.threshold) →
    ∀ done, done <+: actions → ∀ now clock, isChannelOpen (some (readOpenUntil key now
      (Machine.run (healthStep settings key) s₀ done).store)) clock = false
  /-- A call that takes the channel out of service has recorded a failure that reached both
  limits, and it answers that the breaker was tripped. -/
  disables_late : ∀ done a, done ++ [a] <+: actions →
    Disables settings key (Machine.run (healthStep settings key) s₀ done) a →
      ∃ before o fails reported, before ++ [.record o] <+: done ∧ o.ok = false ∧
        fails = failuresSince (recorded (before ++ [.record o])) ∧
        0 < settings.autoDisableFails ∧
        max settings.autoDisableFails settings.threshold ≤ (fails : Int) ∧
        (healthStep settings key (Machine.run (healthStep settings key) s₀ done) a).2 =
          some ⟨true, fails, reported⟩
  one_report : (Machine.trace (healthStep settings key) s₀ actions).countP Reports ≤
    (if s₀.status = .enabled then 1 else 0) + actions.countP HealthAction.enables

theorem breaker_behaves {s₀ : ChannelHealth} {actions : List HealthAction}
    (positive : 1 ≤ settings.threshold) (fresh : s₀.store key = none) (idle : s₀.disabling = [])
    (unexpired : NoExpiry settings key s₀ actions) :
    BreakerBehaves settings key s₀ actions := by
  have tracked := tracked_run positive fresh idle unexpired
  have whole := tracked actions (List.prefix_refl _)
  constructor
  · intro now clock alive
    exact whole.follows.open_iff positive alive clock
  · intro done o last ok arrived now clock
    have since : failuresSince (recorded actions) = 0 := by
      rw [last, recorded_arrived done arrived]
      exact failuresSince_success _ ok
    exact whole.follows.closed (by omega) now clock
  · intro below done reached now clock
    apply (tracked done reached).follows.closed
    obtain ⟨rest, rfl⟩ := reached
    exact below _ (recorded_append done rest ▸ List.prefix_append _ _)
  · intro done a reached disables
    have earlier := tracked done ((List.prefix_append done [a]).trans reached)
    obtain ⟨script, mem, reported, answer, -, -⟩ := disables_spec disables
    obtain ⟨before, o, recordedBefore, failed, rfl, configured, enough⟩ :=
      earlier.earned script mem
    exact ⟨before, o, _, reported, recordedBefore, failed, rfl, configured, enough, answer⟩
  · exact reports_le s₀ actions

theorem breaker_behaves_two_failures :
    BreakerBehaves ⟨2, 60, 1⟩ "chhealth:c1" ⟨Store.empty, .enabled, false, 0, []⟩
      [.record ⟨false, 1000, 1000, .answered⟩, .record ⟨false, 2000, 2000, .answered⟩,
        .disable 0 .answered] :=
  breaker_behaves (by decide) rfl rfl (by
    rw [NoExpiry]
    decide +kernel)

end Runs

end Gateway
