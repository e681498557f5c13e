import Gateway.Admin.Channels
import Gateway.Lib.Fallible
import Gateway.Redis.Keys
import Gateway.Routing.Breaker

/-!
A channel that an operator has enabled again.

The edit resets what the database keeps of the failures. The breaker lives in
the coordination store, which the edit does not touch, so a channel comes back
with the failures and the cooldown that it had.
-/

namespace Gateway

open Redis (Entry Store live)

/-- A whole call: its outcome, and how the update that disables the channel ends. -/
abbrev RecordCall := Outcome × Delivery

def callActions (call : RecordCall) : List HealthAction := [.record call.1, .disable 0 call.2]

/-- The state of calls that come one after the other. -/
def afterCalls (settings : BreakerSettings) (key : String) (s : ChannelHealth)
    (calls : List RecordCall) : ChannelHealth :=
  Machine.run (healthStep settings key) s (calls.flatMap callActions)

/-- What each of them says: whether the breaker was tripped, and the channel disabled. -/
def callFlags (settings : BreakerSettings) (key : String) (s : ChannelHealth)
    (calls : List RecordCall) : List (Bool × Bool) :=
  ((Machine.trace (healthStep settings key) s (calls.flatMap callActions)).filterMap
    Machine.Event.reply).map fun answer => (answer.tripped, answer.autoDisabled)

def channelFailCount (key : String) (now : Int) (store : Store) : ℚ :=
  (Redis.command now (.on key (.hget "fails")) store).1.toRat

def openChannels (read : String → Option Redis.Reply) (clock : Nat) (ids : List String) :
    List String :=
  ids.filter fun id => isChannelOpen (read id) clock

/-- What the two stores hold of a channel when no call is on its way. -/
def ChannelHealth.ofStored (store : Store) (channel : StoredChannel) : ChannelHealth :=
  ⟨store, channel.status, channel.autoDisabled, channel.failCount, []⟩

theorem ChannelHealth.eq_ofStored {s : ChannelHealth} {channel : StoredChannel}
    (same : (s.status, s.autoDisabled, s.failCount, s.disabling) =
      (channel.status, channel.autoDisabled, channel.failCount, [])) :
    s = .ofStored s.store channel := by
  cases s with
  | mk store status autoDisabled failCount disabling =>
      simp only [Prod.mk.injEq] at same
      obtain ⟨rfl, rfl, rfl, rfl⟩ := same
      rfl

/-- The key of a channel without a history. -/
def ChannelHealth.forgotten (key : String) (s : ChannelHealth) : ChannelHealth :=
  { s with store := Function.update s.store key none }

section OneCall

variable {settings : BreakerSettings} {key : String} {s : ChannelHealth} {fails : Nat}
  {openUntil : Option Int}

/-- An answered failure. -/
def Failure (call : RecordCall) : Prop :=
  call.1.ok = false ∧ call.1.delivery = .answered ∧ call.2 = .answered

/-- Whether a failure that brings the count to `fails` disables the channel. -/
def disablesAt (settings : BreakerSettings) (status : EntityStatus) (fails : Nat) : Bool :=
  decide (0 < settings.disableLimit ∧ settings.disableLimit ≤ fails) && decide (status = .enabled)

variable (settings key s) in
theorem callFlags_cons (call : RecordCall) (calls : List RecordCall) :
    callFlags settings key s (call :: calls) =
      callFlags settings key s [call] ++
        callFlags settings key (afterCalls settings key s [call]) calls := by
  simp only [callFlags, afterCalls, List.flatMap_cons, List.flatMap_nil, List.append_nil,
    Machine.trace_append, List.filterMap_append, List.map_append]

/-- The two steps of a failure, with what the script has answered and stored. -/
theorem failure_steps {o : Outcome} {script : Bool × Nat} {store : Store} (failed : o.ok = false)
    (answered : o.delivery = .answered) (idle : s.disabling = [])
    (ran : runHealth settings key o s.store = (script, store)) :
    callFlags settings key s [(o, .answered)] =
        [(script.1, disablesAt settings s.status script.2)] ∧
      (afterCalls settings key s [(o, .answered)]).disabling = [] ∧
      (afterCalls settings key s [(o, .answered)]).status =
        (if disablesAt settings s.status script.2 then .disabled else s.status) ∧
      (afterCalls settings key s [(o, .answered)]).store = store := by
  have actions : [(o, Delivery.answered)].flatMap callActions =
      [.record o, .disable 0 .answered] := rfl
  by_cases asked : 0 < settings.disableLimit ∧ settings.disableLimit ≤ script.2
  · have asks : asksToDisable settings o.ok script = true := by
      rw [asksToDisable, failed, decide_eq_true asked]
      rfl
    have first : healthStep settings key s (.record o) =
        ({ s with store, disabling := [script] }, none) := by
      simp only [healthStep, ran, answered, asks, idle, if_true, List.nil_append]
    have answer (updated : Bool) :
        recordChannelOutcome settings.disableLimit ⟨some script, some updated⟩ false =
          ⟨script.1, script.2, updated⟩ := by
      simp only [recordChannelOutcome, decide_eq_true asked, Bool.not_false, Bool.true_and, if_true,
        Option.getD_some]
    rw [callFlags, afterCalls, actions, Machine.trace, Machine.run_cons, first, disablesAt,
      decide_eq_true asked, Bool.true_and]
    by_cases enabled : s.status = .enabled
    · simp [Machine.trace, healthStep, disableChannel, enabled, answer]
    · simp [Machine.trace, healthStep, disableChannel, enabled, answer]
  · have asks : asksToDisable settings o.ok script = false := by
      rw [asksToDisable, failed, decide_eq_false asked]
      rfl
    have answer : recordChannelOutcome settings.disableLimit ⟨some script, none⟩ o.ok =
        ⟨script.1, script.2, false⟩ := by
      simp only [recordChannelOutcome, decide_eq_false asked, Bool.and_false, Bool.false_eq_true,
        if_false]
    have first : healthStep settings key s (.record o) =
        ({ s with store }, some ⟨script.1, script.2, false⟩) := by
      simp only [healthStep, ran, answered, asks, answer, Bool.false_eq_true, if_false]
    rw [callFlags, afterCalls, actions, Machine.trace, Machine.run_cons, first, disablesAt,
      decide_eq_false asked, Bool.false_and]
    simp [Machine.trace, healthStep, idle]

variable (settings) in
theorem failure_call {call : RecordCall} (failure : Failure call) (idle : s.disabling = [])
    (held : HoldsBreaker (live call.1.now (s.store key)) fails openUntil) :
    callFlags settings key s [call] =
        [(decide (settings.threshold ≤ (fails + 1 : Nat)),
          disablesAt settings s.status (fails + 1))] ∧
      (afterCalls settings key s [call]).disabling = [] ∧
      (afterCalls settings key s [call]).status =
        (if disablesAt settings s.status (fails + 1) then .disabled else s.status) ∧
      (afterCalls settings key s [call]).store = Function.update s.store key
        (some ⟨breakerHash (fails + 1) (if settings.threshold ≤ (fails + 1 : Nat) then
            some (call.1.clock + settings.cooldownSec * 1000) else openUntil),
          some (call.1.now + settings.cooldownSec * 10 * 1000)⟩) := by
  obtain ⟨o, d⟩ := call
  obtain ⟨failed, answered, disabled⟩ := failure
  obtain rfl : d = .answered := disabled
  exact failure_steps failed answered idle (runHealth_failure settings held failed)

end OneCall

section History

variable {settings : BreakerSettings} {key : String} {s : ChannelHealth}

/-- No call is on its way, and the key was last written at a moment that has passed. -/
def Settled (settings : BreakerSettings) (key : String) (now : Int) (s : ChannelHealth) : Prop :=
  s.disabling = [] ∧ (s.store key = none ∨ ∃ fails openUntil, ∃ written ≤ now,
    s.store key = some ⟨breakerHash fails openUntil,
      some (written + settings.cooldownSec * 10 * 1000)⟩)

theorem Settled.holds {now : Int} (settled : Settled settings key now s) (t : Int) :
    ∃ fails openUntil, HoldsBreaker (live t (s.store key)) fails openUntil := by
  rcases settled.2 with missing | ⟨fails, openUntil, written, -, found⟩
  · exact ⟨0, none, .inl ⟨by rw [missing]; rfl, rfl, rfl⟩⟩
  · cases alive : live t (s.store key) with
    | none => exact ⟨0, none, .inl ⟨rfl, rfl, rfl⟩⟩
    | some e =>
        have same := (Option.filter_eq_some_iff.mp alive).1
        exact ⟨fails, openUntil, .inr ⟨_, same.symm.trans found⟩⟩

/-- The second half of a call leaves the coordination store alone, and no call waiting. -/
theorem disable_settles (settings : BreakerSettings) (key : String) (s : ChannelHealth)
    (d : Delivery) (short : s.disabling.length ≤ 1) :
    (healthStep settings key s (.disable 0 d)).1.disabling = [] ∧
      (healthStep settings key s (.disable 0 d)).1.store = s.store := by
  cases waiting : s.disabling with
  | nil => simp only [healthStep, waiting, List.getElem?_nil, and_self]
  | cons script rest =>
      rw [waiting, List.length_cons] at short
      obtain rfl : rest = [] := List.length_eq_zero_iff.mp (by omega)
      have kept : (disableChannel script.2 s).2.store = s.store := by
        rw [disableChannel]
        split <;> rfl
      cases d with
      | refused => simp [healthStep, waiting]
      | lost => simp [healthStep, waiting, kept]
      | answered => simp [healthStep, waiting, kept]

theorem record_settles {now : Int} {o : Outcome} (past : o.now ≤ now)
    (settled : Settled settings key now s) :
    (healthStep settings key s (.record o)).1.disabling.length ≤ 1 ∧
      ((healthStep settings key s (.record o)).1.store key = none ∨
        ∃ fails openUntil, ∃ written ≤ now,
          (healthStep settings key s (.record o)).1.store key =
            some ⟨breakerHash fails openUntil,
              some (written + settings.cooldownSec * 10 * 1000)⟩) := by
  obtain ⟨fails, openUntil, held⟩ := settled.holds o.now
  have written : ∃ fails openUntil, (runHealth settings key o s.store).2 key =
      some ⟨breakerHash fails openUntil, some (o.now + settings.cooldownSec * 10 * 1000)⟩ := by
    cases outcome : o.ok with
    | true =>
        rw [runHealth_success settings held outcome]
        exact ⟨_, _, Function.update_self ..⟩
    | false =>
        rw [runHealth_failure settings held outcome]
        exact ⟨_, _, Function.update_self ..⟩
  obtain ⟨fails, openUntil, written⟩ := written
  have stored : ∃ fails openUntil, ∃ t ≤ now, (runHealth settings key o s.store).2 key =
      some ⟨breakerHash fails openUntil, some (t + settings.cooldownSec * 10 * 1000)⟩ :=
    ⟨fails, openUntil, o.now, past, written⟩
  have short (script : Bool × Nat) : (s.disabling ++ [script]).length ≤ 1 := by
    rw [settled.1]
    exact Nat.le_refl 1
  have none_waiting : s.disabling.length ≤ 1 := by
    rw [settled.1]
    exact Nat.zero_le 1
  rw [healthStep]
  cases o.delivery with
  | refused => exact ⟨none_waiting, settled.2⟩
  | lost => exact ⟨none_waiting, .inr stored⟩
  | answered =>
      dsimp only
      split
      · exact ⟨short _, .inr stored⟩
      · exact ⟨none_waiting, .inr stored⟩

theorem settled_call {now : Int} {call : RecordCall} (past : call.1.now ≤ now)
    (settled : Settled settings key now s) :
    Settled settings key now (afterCalls settings key s [call]) := by
  obtain ⟨short, stored⟩ := record_settles past settled
  obtain ⟨idle, same⟩ := disable_settles settings key _ call.2 short
  refine ⟨idle, ?_⟩
  have store : (afterCalls settings key s [call]).store =
    (healthStep settings key s (.record call.1)).1.store := same
  rw [store]
  exact stored

theorem settled_calls {now : Int} {calls : List RecordCall}
    (past : ∀ call ∈ calls, call.1.now ≤ now)
    (settled : Settled settings key now s) :
    Settled settings key now (afterCalls settings key s calls) := by
  induction calls generalizing s with
  | nil => exact settled
  | cons call calls ih =>
      have split : afterCalls settings key s (call :: calls) =
          afterCalls settings key (afterCalls settings key s [call]) calls := by
        rw [afterCalls, List.flatMap_cons, Machine.run_append]
        rfl
      rw [split]
      exact ih (fun c mem => past c (List.mem_cons_of_mem call mem))
        (settled_call (past call List.mem_cons_self) settled)

end History

section Further

variable {settings : BreakerSettings} {key : String} {s t : ChannelHealth} {now : Int}

/-- Failures after a moment. -/
def FailuresFrom (now : Int) (calls : List RecordCall) : Prop :=
  ∀ call ∈ calls, Failure call ∧ now ≤ call.1.now

/-- One failure is enough for whatever the settings let failures do. -/
def AtOnce (settings : BreakerSettings) (status : EntityStatus) : Prop :=
  settings.threshold ≤ 1 ∧ (settings.disableLimit ≤ 1 ∨ status ≠ .enabled)

/-- From a moment on, two states of a channel count the same failures, or any count is enough. -/
def CountAlike (settings : BreakerSettings) (key : String) (now : Int)
    (s t : ChannelHealth) : Prop :=
  s.disabling = [] ∧ t.disabling = [] ∧ s.status = t.status ∧
    ∀ at' ≥ now, ∃ m u n v, HoldsBreaker (live at' (s.store key)) m u ∧
      HoldsBreaker (live at' (t.store key)) n v ∧ (m = n ∨ AtOnce settings s.status)

theorem disablesAt_iff {status : EntityStatus} {fails : Nat} :
    disablesAt settings status fails = true ↔
      status = .enabled ∧ 0 < settings.disableLimit ∧ settings.disableLimit ≤ fails := by
  rw [disablesAt, Bool.and_eq_true, decide_eq_true_eq, decide_eq_true_eq, and_comm]

theorem disablesAt_once {status : EntityStatus} (once : AtOnce settings status) (m n : Nat) :
    disablesAt settings status (m + 1) = disablesAt settings status (n + 1) := by
  rw [disablesAt, disablesAt]
  rcases once.2 with low | disabled
  · congr 1
    exact decide_eq_decide.mpr (by omega)
  · simp [disabled]

theorem atOnce_after {status : EntityStatus} (once : AtOnce settings status) (b : Bool) :
    AtOnce settings (if b then .disabled else status) := by
  refine ⟨once.1, ?_⟩
  cases b with
  | true => exact .inr (by simp)
  | false => exact once.2

theorem countAlike_call {call : RecordCall} (failure : Failure call) (from' : now ≤ call.1.now)
    (alike : CountAlike settings key now s t) :
    callFlags settings key s [call] = callFlags settings key t [call] ∧
      CountAlike settings key now (afterCalls settings key s [call])
        (afterCalls settings key t [call]) := by
  obtain ⟨idle, idle', status, count⟩ := alike
  obtain ⟨m, u, n, v, held, held', same⟩ := count call.1.now from'
  obtain ⟨flags, after, left, store⟩ := failure_call settings failure idle held
  obtain ⟨flags', after', left', store'⟩ := failure_call settings failure idle' held'
  have disables : disablesAt settings s.status (m + 1) = disablesAt settings t.status (n + 1) := by
    rw [← status]
    rcases same with rfl | once
    · rfl
    · exact disablesAt_once once m n
  have trips : decide (settings.threshold ≤ (m + 1 : Nat)) =
      decide (settings.threshold ≤ (n + 1 : Nat)) := by
    rcases same with rfl | once
    · rfl
    · have low := once.1
      exact decide_eq_decide.mpr (by omega)
  refine ⟨by rw [flags, flags', disables, trips], after, after', ?_, fun at' _ => ?_⟩
  · rw [left, left', disables, status]
  · rw [store, store', Function.update_self, Function.update_self]
    rcases le_or_gt (call.1.now + settings.cooldownSec * 10 * 1000) at' with passed | later
    · exact ⟨0, none, 0, none, .inl ⟨Redis.live_of_le passed, rfl, rfl⟩,
        .inl ⟨Redis.live_of_le passed, rfl, rfl⟩, .inl rfl⟩
    · refine ⟨m + 1, _, n + 1, _, .inr ⟨_, Redis.live_of_lt later⟩,
        .inr ⟨_, Redis.live_of_lt later⟩, ?_⟩
      rcases same with rfl | once
      · exact .inl rfl
      · exact .inr (left ▸ atOnce_after once _)

theorem countAlike_flags {calls : List RecordCall} (further : FailuresFrom now calls)
    (alike : CountAlike settings key now s t) :
    callFlags settings key s calls = callFlags settings key t calls := by
  induction calls generalizing s t with
  | nil => rfl
  | cons call calls ih =>
      obtain ⟨failure, from'⟩ := further call List.mem_cons_self
      obtain ⟨same, next⟩ := countAlike_call failure from' alike
      rw [callFlags_cons settings key s, callFlags_cons settings key t, same,
        ih (fun c mem => further c (List.mem_cons_of_mem call mem)) next]

/-- The n-th failure of one moment trips the breaker if the count reaches the threshold, and one of
the first n disables the channel if it reaches the other limit. -/
theorem failures_at_once {fails : Nat} {openUntil : Option Int} {call : RecordCall}
    (failure : Failure call) (cooling : 0 < settings.cooldownSec) (idle : s.disabling = [])
    (held : HoldsBreaker (live call.1.now (s.store key)) fails openUntil) (n : Nat) :
    ((callFlags settings key s (List.replicate n call)).any Prod.fst = true ↔
        0 < n ∧ settings.threshold ≤ (fails + n : Nat)) ∧
      ((callFlags settings key s (List.replicate n call)).any Prod.snd = true ↔
        0 < n ∧ s.status = .enabled ∧ 0 < settings.disableLimit ∧
          settings.disableLimit ≤ fails + n) := by
  induction n generalizing s fails openUntil with
  | zero => simp [callFlags, Machine.trace]
  | succ n ih =>
      obtain ⟨flags, after, left, store⟩ := failure_call settings failure idle held
      have held' : HoldsBreaker (live call.1.now ((afterCalls settings key s [call]).store key))
          (fails + 1) (if settings.threshold ≤ (fails + 1 : Nat) then
            some (call.1.clock + settings.cooldownSec * 1000) else openUntil) := by
        rw [store, Function.update_self]
        exact .inr ⟨_, Redis.live_of_lt (by omega)⟩
      obtain ⟨trips, disables⟩ := ih after held'
      rw [List.replicate_succ, callFlags_cons settings key s, flags]
      simp only [List.singleton_append, List.any_cons, Bool.or_eq_true, trips, disables, left,
        decide_eq_true_eq]
      refine ⟨by omega, ?_⟩
      by_cases now' : disablesAt settings s.status (fails + 1) = true
      · obtain ⟨enabled, positive, reached⟩ := disablesAt_iff.mp now'
        exact ⟨fun _ => ⟨by omega, enabled, positive, by omega⟩, fun _ => .inl now'⟩
      · rw [if_neg now']
        rw [disablesAt_iff] at now' ⊢
        refine ⟨fun h => ?_, fun h => .inr ?_⟩
        · obtain h | ⟨-, enabled, positive, reached⟩ := h
          · exact absurd h now'
          · exact ⟨by omega, enabled, positive, by omega⟩
        · obtain ⟨-, enabled, positive, reached⟩ := h
          have later : ¬settings.disableLimit ≤ fails + 1 := fun h => now' ⟨enabled, positive, h⟩
          exact ⟨by omega, enabled, positive, by omega⟩

end Further

section Edit

variable {limits : JsonLimits} {t : Int} {id : String} {patch : Record}
  {channels channels' : Collection StoredChannel} {channel channel' : StoredChannel}

/-- Whether a patch leaves the channel in service. -/
def leavesEnabled (channel : StoredChannel) (patch : Record) : Bool :=
  match patch.field "status" with
  | none | some .null => channel.isEnabled
  | some (.str "enabled") => true
  | some _ => false

/-- The patches that bring a channel back. -/
def Reenables (patch : Record) : Prop :=
  patch.field "status" = some (.str "enabled") ∨ patch.field "autoDisabled" = some (.bool false)

theorem updateChannel_spec (found : channels.find id = some channel)
    (edited : updateChannel limits t id patch channels = .ok channels') :
    ∃ update, channelUpdate limits t channel patch = .ok update ∧
      channels'.find id = some (update.toUpdate.apply channel) := by
  rw [updateChannel, found] at edited
  dsimp only at edited
  cases checked : channelUpdate limits t channel patch with
  | error e =>
      rw [checked] at edited
      cases edited
  | ok update =>
      rw [checked] at edited
      cases edited
      refine ⟨update, rfl, ?_⟩
      rw [Collection.updateOne_of_match (fun _ => true) update.toUpdate found rfl,
        Collection.find_modify_some found, if_pos rfl]

/-- What an edit makes of the status and of the failures that the database keeps. -/
theorem channelUpdate_spec {update : ChannelUpdate}
    (checked : channelUpdate limits t channel patch = .ok update) :
    patched patch "status" (asStatus · channel.status) = .ok update.status ∧
      update.reenabled = (match patch.field "autoDisabled" with
        | some (.bool false) => true
        | _ => decide (update.status = some .enabled)) := by
  rw [channelUpdate] at checked
  obtain ⟨name, -, checked⟩ := Fallible.bind_ok checked
  obtain ⟨baseUrl, -, checked⟩ := Fallible.bind_ok checked
  obtain ⟨status, enabled, checked⟩ := Fallible.bind_ok checked
  obtain ⟨priority, -, checked⟩ := Fallible.bind_ok checked
  obtain ⟨weight, -, checked⟩ := Fallible.bind_ok checked
  obtain ⟨groups, -, checked⟩ := Fallible.bind_ok checked
  obtain ⟨models, -, checked⟩ := Fallible.bind_ok checked
  obtain ⟨modelMapping, -, checked⟩ := Fallible.bind_ok checked
  obtain ⟨headers, -, checked⟩ := Fallible.bind_ok checked
  obtain ⟨config, -, checked⟩ := Fallible.bind_ok checked
  obtain ⟨rpmLimit, -, checked⟩ := Fallible.bind_ok checked
  cases checked
  exact ⟨enabled, rfl⟩

theorem asStatus_enabled {value : Json} {result : EntityStatus}
    (named : patch.field "status" = some value)
    (read : asStatus (some value) channel.status = .ok result) :
    result = .enabled ↔ leavesEnabled channel patch = true := by
  rw [leavesEnabled, named]
  unfold asStatus at read
  cases value with
  | null =>
      cases read
      simp [ChannelDoc.isEnabled]
  | str text =>
      by_cases enabled : text = "enabled"
      · subst enabled
        cases read
        simp
      · by_cases disabled : text = "disabled"
        · subst disabled
          cases read
          simp
        · by_cases deleted : text = "deleted"
          · subst deleted
            cases read
            simp
          · simp [enabled, disabled, deleted, rejected] at read
  | bool _ | num _ | arr _ | obj _ => cases read

theorem edited_enabled_iff {update : ChannelUpdate}
    (checked : channelUpdate limits t channel patch = .ok update) :
    (update.toUpdate.apply channel).status = .enabled ↔ leavesEnabled channel patch = true := by
  obtain ⟨status, -⟩ := channelUpdate_spec checked
  have kept : (update.toUpdate.apply channel).status = update.status.getD channel.status := rfl
  rw [kept]
  cases named : patch.field "status" with
  | none =>
      rw [patched, named] at status
      rw [← Except.ok.inj status, leavesEnabled, named]
      simp [ChannelDoc.isEnabled]
  | some value =>
      rw [patched, named] at status
      dsimp only at status
      cases read : asStatus (some value) channel.status with
      | error e =>
          rw [read] at status
          cases status
      | ok result =>
          rw [read] at status
          rw [← Except.ok.inj status]
          exact asStatus_enabled named read

/-- The half of the failures that the database keeps is reset. -/
theorem edited_counters {update : ChannelUpdate}
    (checked : channelUpdate limits t channel patch = .ok update) (asked : Reenables patch) :
    (update.toUpdate.apply channel).autoDisabled = false ∧
      (update.toUpdate.apply channel).failCount = 0 := by
  obtain ⟨status, reenabled⟩ := channelUpdate_spec checked
  have reset : update.reenabled = true := by
    rw [reenabled]
    rcases asked with asked | asked
    · rw [patched, asked] at status
      rw [← Except.ok.inj status]
      cases patch.field "autoDisabled" with
      | none => rfl
      | some value =>
          cases value with
          | bool b => cases b <;> rfl
          | null | num _ | str _ | arr _ | obj _ => rfl
    · rw [asked]
  exact ⟨by simp [ChannelUpdate.toUpdate, reset], by simp [ChannelUpdate.toUpdate, reset]⟩

end Edit

section Reenabled

variable {settings : BreakerSettings} {key : String} {s : ChannelHealth}

/-- A key that expires forgets its failures, and keeps them until then. -/
theorem HoldsBreaker.later {entry : Option Entry} {now t : Int} {fails : Nat}
    {openUntil : Option Int} (held : HoldsBreaker (live now entry) fails openUntil)
    (later : now ≤ t) :
    ∃ m u, HoldsBreaker (live t entry) m u ∧ (m = 0 ∨ m = fails) := by
  rw [← Redis.live_later later]
  rcases held with ⟨missing, -, -⟩ | ⟨expiresAt, found⟩
  · rw [missing]
    exact ⟨0, none, .inl ⟨rfl, rfl, rfl⟩, .inl rfl⟩
  · rw [found]
    cases alive : live t (some ⟨breakerHash fails openUntil, expiresAt⟩) with
    | none => exact ⟨0, none, .inl ⟨rfl, rfl, rfl⟩, .inl rfl⟩
    | some e =>
        have same := (Option.filter_eq_some_iff.mp alive).1
        exact ⟨fails, openUntil, .inr ⟨expiresAt, same.symm⟩, .inr rfl⟩

theorem channelFailCount_holds {now : Int} {store : Store} {fails : Nat} {openUntil : Option Int}
    (held : HoldsBreaker (live now (store key)) fails openUntil) :
    channelFailCount key now store = fails := by
  rw [channelFailCount, Redis.command_on]
  rcases held with ⟨missing, rfl, -⟩ | ⟨expiresAt, found⟩
  · rw [missing]
    rfl
  · rw [found]
    rfl

/-- Further failures are taken as those of a channel without a history exactly if none are
counted, or one is enough. -/
theorem forgotten_alike_iff {now : Int} (settled : Settled settings key now s) :
    (∀ calls, FailuresFrom now calls →
        callFlags settings key s calls = callFlags settings key (s.forgotten key) calls) ↔
      channelFailCount key now s.store = 0 ∨ AtOnce settings s.status := by
  obtain ⟨fails, openUntil, held⟩ := settled.holds now
  have missing (t : Int) : HoldsBreaker (live t ((s.forgotten key).store key)) 0 none := by
    refine .inl ⟨?_, rfl, rfl⟩
    have gone : (s.forgotten key).store key = none := Function.update_self ..
    rw [gone]
    rfl
  rw [channelFailCount_holds held, Nat.cast_eq_zero]
  constructor
  · intro alike
    by_contra remembered
    rw [not_or] at remembered
    obtain ⟨counted, late⟩ := remembered
    have cooling : 0 < settings.cooldownSec := by
      rcases settled.2 with none_stored | ⟨m, u, written, past, found⟩
      · rcases held with ⟨-, zero, -⟩ | ⟨_, found⟩
        · exact absurd zero counted
        · rw [none_stored] at found
          cases found
      · rcases held with ⟨-, zero, -⟩ | ⟨expiresAt, alive⟩
        · exact absurd zero counted
        · rw [found] at alive
          by_contra cold
          rw [Redis.live_of_le (by omega)] at alive
          cases alive
    have failure : Failure (⟨false, 0, now, .answered⟩, .answered) := ⟨rfl, rfl, rfl⟩
    have same (n : Nat) := alike (List.replicate n (⟨false, 0, now, .answered⟩, .answered))
      fun call mem => by
        rw [List.eq_of_mem_replicate mem]
        exact ⟨failure, le_refl now⟩
    have idle : (s.forgotten key).disabling = [] := settled.1
    have old := failures_at_once failure cooling settled.1 held
    have new := failures_at_once failure cooling idle (missing now)
    have trips : settings.threshold ≤ 1 := by
      by_contra later
      have n := (old (settings.threshold - 1).toNat).1
      rw [same, (new _).1] at n
      omega
    have disables : settings.disableLimit ≤ 1 ∨ s.status ≠ .enabled := by
      by_contra later
      rw [not_or, not_not] at later
      have n := (old (settings.disableLimit - 1)).2
      rw [same, (new _).2] at n
      have status : (s.forgotten key).status = .enabled := later.2
      simp only [later.2, status, true_and] at n
      omega
    exact late ⟨trips, disables⟩
  · intro forgotten calls further
    refine countAlike_flags further ⟨settled.1, settled.1, rfl, fun t later => ?_⟩
    obtain ⟨m, u, held', same⟩ := held.later later
    refine ⟨m, u, 0, none, held', missing t, ?_⟩
    rcases forgotten with none_counted | once
    · exact .inl (by omega)
    · exact .inr once

theorem closed_iff_not_listed {key : String → String} {now : Int} {clock : Nat} {store : Store}
    (id : String) :
    (∀ ids, id ∉ openChannels (fun id => some (readOpenUntil (key id) now store)) clock ids) ↔
      isChannelOpen (some (readOpenUntil (key id) now store)) clock = false := by
  constructor
  · intro unlisted
    by_contra opened
    exact unlisted [id] (List.mem_filter.mpr ⟨List.mem_singleton_self id,
      Bool.eq_true_of_not_eq_false opened⟩)
  · intro closed ids mem
    rw [(List.mem_filter.mp mem).2] at closed
    cases closed

/-- After an edit that brings a channel back, its breaker is what a channel without a history would
have exactly if it is closed already and counts no failures, or one failure is enough anyway. The
counters of the database are reset in any case. -/
theorem reenabled_breaker_iff {settings : BreakerSettings} {id : String} {s₀ : ChannelHealth}
    {history : List RecordCall} {now : Int} {clock : Nat} {store : Store} {limits : JsonLimits}
    {t : Int} {patch : Record} {channels channels' : Collection StoredChannel}
    {channel channel' : StoredChannel}
    (fresh : s₀.store (channelHealthKey id) = none) (idle : s₀.disabling = [])
    (past : ∀ call ∈ history, call.1.now ≤ now)
    (reached : afterCalls settings (channelHealthKey id) s₀ history = .ofStored store channel)
    (found : channels.find id = some channel) (asked : Reenables patch)
    (edited : updateChannel limits t id patch channels = .ok channels')
    (found' : channels'.find id = some channel') :
    (channel'.autoDisabled = false ∧ channel'.failCount = 0) ∧
      (((∀ ids, id ∉ openChannels
            (fun id => some (readOpenUntil (channelHealthKey id) now store)) clock ids) ∧
          ∀ calls, FailuresFrom now calls →
            callFlags settings (channelHealthKey id) (.ofStored store channel') calls =
              callFlags settings (channelHealthKey id)
                ((ChannelHealth.ofStored store channel').forgotten (channelHealthKey id)) calls) ↔
        isChannelOpen (some (readOpenUntil (channelHealthKey id) now store)) clock = false ∧
          (channelFailCount (channelHealthKey id) now store = 0 ∨
            settings.threshold ≤ 1 ∧
              (settings.disableLimit ≤ 1 ∨ leavesEnabled channel patch = false))) := by
  obtain ⟨update, checked, stored⟩ := updateChannel_spec found edited
  obtain rfl := Option.some.inj (found'.symm.trans stored)
  refine ⟨edited_counters checked asked, ?_⟩
  have settled : Settled settings (channelHealthKey id) now (.ofStored store channel) :=
    reached ▸ settled_calls past ⟨idle, .inl fresh⟩
  have settled' : Settled settings (channelHealthKey id) now
      (.ofStored store (update.toUpdate.apply channel)) := ⟨rfl, settled.2⟩
  have serves : (ChannelHealth.ofStored store (update.toUpdate.apply channel)).status ≠ .enabled ↔
      leavesEnabled channel patch = false := by
    rw [Ne, ← Bool.not_eq_true, not_iff_not]
    exact edited_enabled_iff checked
  rw [closed_iff_not_listed, forgotten_alike_iff settled', AtOnce, serves]
  rfl

/-- A channel in service that no failure has touched. -/
def spareChannel : StoredChannel where
  id := "c1"
  status := .enabled
  priority := 0
  weight := 0
  groups := ["default"]
  models := ["gpt-4o"]
  name := "spare"
  baseUrl := "https://api.example.com"
  modelMapping := []
  headers := []
  testModel := none
  autoDisabled := false
  failCount := 0
  rpmLimit := none
  config := []
  updatedAt := 0

def enablePatch : Record := [("status", .str "enabled")]

theorem reenabled_breaker_one_failure :
    let settings : BreakerSettings := ⟨5, 60, 3⟩
    let key := channelHealthKey "c1"
    let store := (afterCalls settings key (.ofStored Store.empty spareChannel)
      [(⟨false, 1000, 1000, .answered⟩, .answered)]).store
    let channel := { spareChannel with updatedAt := 12000 }
    (channel.autoDisabled = false ∧ channel.failCount = 0) ∧
      (((∀ ids, "c1" ∉ openChannels
            (fun id => some (readOpenUntil (channelHealthKey id) 12000 store)) 12000 ids) ∧
          ∀ calls, FailuresFrom 12000 calls →
            callFlags settings key (.ofStored store channel) calls =
              callFlags settings key ((ChannelHealth.ofStored store channel).forgotten key) calls) ↔
        isChannelOpen (some (readOpenUntil key 12000 store)) 12000 = false ∧
          (channelFailCount key 12000 store = 0 ∨
            settings.threshold ≤ 1 ∧
              (settings.disableLimit ≤ 1 ∨ leavesEnabled spareChannel enablePatch = false))) :=
  @reenabled_breaker_iff ⟨5, 60, 3⟩ "c1" (.ofStored Store.empty spareChannel)
    [(⟨false, 1000, 1000, .answered⟩, .answered)] 12000 12000 _ ⟨64, 10000⟩ 12000 enablePatch
    ⟨[spareChannel], List.nodup_singleton _⟩ _ spareChannel _ rfl rfl (by decide)
    (ChannelHealth.eq_ofStored (by decide +kernel)) rfl (.inl rfl) rfl rfl

/-- With the shipped settings, five failures open the breaker and disable the channel; an operator
enables it seven seconds later. It is left out all the same, and the next failure disables it. -/
theorem breaker_outlives_reenabling :
    let settings : BreakerSettings := ⟨5, 60, 3⟩
    let key := channelHealthKey "c1"
    let failure (clock : Nat) : RecordCall := (⟨false, clock, clock, .answered⟩, .answered)
    let s := afterCalls settings key (.ofStored Store.empty spareChannel)
      [failure 1000, failure 2000, failure 3000, failure 4000, failure 5000]
    let channel := { spareChannel with
      status := s.status, autoDisabled := s.autoDisabled, failCount := s.failCount }
    let edited := (updateChannel ⟨64, 10000⟩ 12000 "c1" enablePatch
      ⟨[channel], List.nodup_singleton _⟩).map fun channels => channels.docs.map
        fun channel => (channel.id, channel.status, channel.autoDisabled, channel.failCount)
    s.status = .disabled ∧
      edited = .ok [("c1", .enabled, false, 0)] ∧
      openChannels (fun id => some (readOpenUntil (channelHealthKey id) 12000 s.store)) 12000
          ["c1"] =
        ["c1"] ∧
      callFlags settings key { s with status := .enabled, autoDisabled := false, failCount := 0 }
        [failure 70000] = [(true, true)] := by
  decide +kernel

end Reenabled

end Gateway
