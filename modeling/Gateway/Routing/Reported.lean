import Gateway.Routing.Bounded

/-!
Which error a relay reports when every attempt has failed.

The loop can end at an attempt, at a selection that refuses, or where it runs
out of time or of iterations. Only the first says what went wrong upstream; the
others do as long as the error in hand is that of an attempt.
-/

namespace Gateway

variable {α : Type*}

section Reached

variable (request : RetryRequest) (limit : Nat) (rounds : Nat → Round α)

/-- The events before an iteration that is reached, and its state. -/
def reachedAt : Nat → Option (List (RetryEvent α) × RetryState)
  | 0 => some ([], ⟨[], [], none⟩)
  | i + 1 =>
      match reachedAt i with
      | none => none
      | some (past, s) =>
          match iterate request limit i (rounds i) s with
          | (events, .next s') => some (past ++ events, s')
          | (_, .stop _) => none

variable {request limit rounds}

theorem reachedAt_succ {i : Nat} {past : List (RetryEvent α)} {s : RetryState}
    (reached : reachedAt request limit rounds (i + 1) = some (past, s)) :
    ∃ before s₀ events, reachedAt request limit rounds i = some (before, s₀) ∧
      iterate request limit i (rounds i) s₀ = (events, .next s) ∧ past = before ++ events := by
  rw [reachedAt] at reached
  cases earlier : reachedAt request limit rounds i with
  | none =>
      rw [earlier] at reached
      cases reached
  | some entry =>
      obtain ⟨before, s₀⟩ := entry
      rw [earlier] at reached
      dsimp only at reached
      cases stepped : iterate request limit i (rounds i) s₀ with
      | mk events step =>
          rw [stepped] at reached
          cases step with
          | stop result => cases reached
          | next s' =>
              cases reached
              exact ⟨before, s₀, events, rfl, stepped, rfl⟩

/-- The rest of a run from an iteration that is reached. -/
theorem retryLoop_reached {i : Nat} {past : List (RetryEvent α)} {s : RetryState}
    (reached : reachedAt request limit rounds i = some (past, s)) (fuel : Nat) :
    retryLoop request limit rounds (i + fuel) 0 ⟨[], [], none⟩ =
      (past ++ (retryLoop request limit rounds fuel i s).1,
        (retryLoop request limit rounds fuel i s).2) := by
  induction i generalizing past s fuel with
  | zero =>
      cases reached
      rw [Nat.zero_add, List.nil_append]
  | succ i ih =>
      obtain ⟨before, s₀, events, earlier, stepped, rfl⟩ := reachedAt_succ reached
      have whole := ih earlier (fuel + 1)
      rw [retryLoop, stepped] at whole
      rw [Nat.add_right_comm, Nat.add_assoc, whole, List.append_assoc]

variable (request limit rounds) in
/-- A run ends in one of its iterations, or after the last of them. -/
theorem run_ends (n : Nat) :
    (∃ i < n, ∃ past s events result, reachedAt request limit rounds i = some (past, s) ∧
      iterate request limit i (rounds i) s = (events, .stop result)) ∨
    ∃ past s, reachedAt request limit rounds n = some (past, s) := by
  induction n with
  | zero => exact .inr ⟨_, _, rfl⟩
  | succ n ih =>
      rcases ih with ⟨i, before, ended⟩ | ⟨past, s, reached⟩
      · exact .inl ⟨i, by omega, ended⟩
      · cases stepped : iterate request limit n (rounds n) s with
        | mk events step =>
            cases step with
            | stop result => exact .inl ⟨n, by omega, past, s, events, result, reached, stepped⟩
            | next s' =>
                refine .inr ⟨past ++ events, s', ?_⟩
                rw [reachedAt, reached]
                simp only [stepped]

theorem retryLoop_ended {i : Nat} {past events : List (RetryEvent α)} {s : RetryState}
    {result : Except Thrown (RelayOutcome α)}
    (reached : reachedAt request limit rounds i = some (past, s)) (within : i < limit)
    (ended : iterate request limit i (rounds i) s = (events, .stop result)) :
    retryLoop request limit rounds limit 0 ⟨[], [], none⟩ = (past ++ events, result) := by
  obtain ⟨fuel, rfl⟩ : ∃ fuel, limit = i + (fuel + 1) := ⟨limit - i - 1, by omega⟩
  rw [retryLoop_reached reached (fuel + 1), retryLoop, ended]

theorem retryLoop_exhausted {past : List (RetryEvent α)} {s : RetryState}
    (reached : reachedAt request limit rounds limit = some (past, s)) :
    retryLoop request limit rounds limit 0 ⟨[], [], none⟩ =
      (past, .error (.gateway (s.lastError.getD (gatewayErrorFrom .fault)))) := by
  have whole := retryLoop_reached reached 0
  rwa [Nat.add_zero, retryLoop, List.append_nil] at whole

end Reached

section Failures

/-- How a call failed. -/
def callFailure : AttemptContext × Except GatewayError α → Option GatewayError
  | (_, .error failure) => some failure
  | (_, .ok _) => none

def attemptFailures (events : List (RetryEvent α)) : List GatewayError :=
  (calls events).filterMap callFailure

theorem attemptFailures_append (events later : List (RetryEvent α)) :
    attemptFailures (events ++ later) = attemptFailures events ++ attemptFailures later := by
  rw [attemptFailures, calls_append, List.filterMap_append, attemptFailures, attemptFailures]

/-- The client hangs up before some iteration or during the wait after it. -/
def ClientAborted (limit : Nat) (rounds : Nat → Round α) : Prop :=
  ∃ i < limit, (rounds i).aborted = true ∨ (rounds i).sleepAborted = true

/-- An error that says how an attempt failed, or that the client is gone. -/
def Reported (limit : Nat) (rounds : Nat → Round α) (events : List (RetryEvent α))
    (thrown : Thrown) : Prop :=
  (∃ failure ∈ attemptFailures events, thrown = .gateway failure) ∨
    (ClientAborted limit rounds ∧ thrown = .gateway clientClosed)

/-- An iteration gets as far as the selection, which fails. -/
def SelectionRefused (request : RetryRequest) (i : Nat) (round : Round α) (s : RetryState)
    (thrown : Thrown) : Prop :=
  round.aborted = false ∧ (round.remainingAtStart = 0 → s.lastError = none) ∧
    selectChannel round.selection (selectionRequest request i s) = .error thrown

/-- There are no iterations left, or no time. -/
def RanOut (limit i : Nat) (rounds : Nat → Round α) : Prop :=
  i = limit ∨ (i < limit ∧ (rounds i).aborted = false ∧ (rounds i).remainingAtStart = 0)

/-- Once an attempt was made, no selection fails, and the run does not run out right after a channel
without a usable key; or what it meets there is by chance an error that says enough. -/
def NothingHidden (request : RetryRequest) (limit : Nat) (rounds : Nat → Round α) : Prop :=
  ∀ i ≤ limit, ∀ past s, reachedAt request limit rounds i = some (past, s) → calls past ≠ [] →
    (∀ thrown, i < limit → SelectionRefused request i (rounds i) s thrown →
      Reported limit rounds past thrown) ∧
    ∀ channelId error, past.getLast? = some (.keyUnavailable channelId error) →
      RanOut limit i rounds → Reported limit rounds past (.gateway error)

variable {request : RetryRequest} {limit i : Nat} {round : Round α} {rounds : Nat → Round α}
  {s : RetryState} {events past : List (RetryEvent α)}

/-- The ways an iteration can end the run. -/
inductive Ends (request : RetryRequest) (i : Nat) (round : Round α) (s : RetryState) :
    List (RetryEvent α) → Except Thrown (RelayOutcome α) → Prop
  | aborted (gone : round.aborted = true) :
      Ends request i round s [] (.error (.gateway clientClosed))
  | expired {error : GatewayError} (alive : round.aborted = false)
      (late : round.remainingAtStart = 0) (inHand : s.lastError = some error) :
      Ends request i round s [] (.error (.gateway error))
  | refused {thrown : Thrown} (refused : SelectionRefused request i round s thrown) :
      Ends request i round s [] (.error thrown)
  | answered {context : AttemptContext} {value : α} {after : List (RetryEvent α)}
      {result : Except Thrown (RelayOutcome α)} :
      Ends request i round s (.call context (.ok value) :: after) result
  | failed {context : AttemptContext} {failure : GatewayError} {after : List (RetryEvent α)} :
      Ends request i round s (.call context (.error failure) :: after) (.error (.gateway failure))
  | asleep {context : AttemptContext} {failure : GatewayError} {after : List (RetryEvent α)}
      (gone : round.sleepAborted = true) :
      Ends request i round s (.call context (.error failure) :: after)
        (.error (.gateway clientClosed))

theorem afterFailure_ends {context : AttemptContext} {failure : GatewayError}
    {result : Except Thrown (RelayOutcome α)}
    (stopped : afterFailure limit i round s context failure = (events, .stop result)) :
    Ends request i round s events result := by
  rw [afterFailure] at stopped
  dsimp only at stopped
  split at stopped
  · cases stopped
    exact .failed
  · split at stopped
    · cases stopped
      exact .failed
    · split at stopped
      · cases stopped
      · split at stopped
        · next gone =>
            cases stopped
            exact .asleep gone
        · cases stopped

theorem iterate_ends {result : Except Thrown (RelayOutcome α)}
    (stopped : iterate request limit i round s = (events, .stop result)) :
    Ends request i round s events result := by
  rw [iterate] at stopped
  cases gone : round.aborted with
  | true =>
      rw [gone, if_pos rfl] at stopped
      cases stopped
      exact .aborted gone
  | false =>
      rw [gone, if_neg (by decide)] at stopped
      cases inHand : (if round.remainingAtStart = 0 then s.lastError else none) with
      | some error =>
          rw [inHand] at stopped
          cases stopped
          by_cases late : round.remainingAtStart = 0
          · exact .expired gone late (by rwa [if_pos late] at inHand)
          · rw [if_neg late] at inHand
            cases inHand
      | none =>
          have inTime : round.remainingAtStart = 0 → s.lastError = none := fun late => by
            rwa [if_pos late] at inHand
          rw [inHand] at stopped
          dsimp only at stopped
          cases selected : selectChannel round.selection (selectionRequest request i s) with
          | error thrown =>
              rw [selected] at stopped
              cases stopped
              exact .refused ⟨gone, inTime, selected⟩
          | ok selection =>
              rw [selected] at stopped
              dsimp only at stopped
              split at stopped
              · cases stopped
              · split at stopped
                · cases stopped
                  exact .answered
                · exact afterFailure_ends stopped

/-- Where an error in hand comes from: a failed attempt, or a channel without a usable key. -/
inductive Continues (s' : RetryState) : List (RetryEvent α) → Prop
  | unkeyed {channelId : String} {error : GatewayError} (inHand : s'.lastError = some error) :
      Continues s' [.keyUnavailable channelId error]
  | failed {context : AttemptContext} {failure : GatewayError} {after : List (RetryEvent α)}
      (inHand : s'.lastError = some failure)
      (keyed : ∀ channelId error, .keyUnavailable channelId error ∉ after) :
      Continues s' (.call context (.error failure) :: after)

theorem afterFailure_continues {context : AttemptContext} {failure : GatewayError}
    {s' : RetryState}
    (continued : afterFailure limit i round s context failure = (events, .next s')) :
    Continues s' events := by
  rw [afterFailure] at continued
  dsimp only at continued
  split at continued
  · cases continued
  · split at continued
    · cases continued
    · split at continued
      · cases continued
        refine .failed rfl fun channelId error mem => ?_
        split at mem <;> simp at mem
      · split at continued
        · cases continued
        · cases continued
          refine .failed rfl fun channelId error mem => ?_
          split at mem <;> simp at mem

theorem iterate_continues {s' : RetryState}
    (continued : iterate request limit i round s = (events, .next s')) : Continues s' events := by
  rw [iterate] at continued
  split at continued
  · cases continued
  · split at continued
    · cases continued
    · split at continued
      · cases continued
      · split at continued
        · cases continued
          exact .unkeyed rfl
        · dsimp only at continued
          split at continued
          · cases continued
          · exact afterFailure_continues continued

/-- The error in hand is told from the events. -/
structure InHand (past : List (RetryEvent α)) (s : RetryState) : Prop where
  origin : ∀ error, s.lastError = some error →
    error ∈ attemptFailures past ∨
      ∃ channelId, past.getLast? = some (.keyUnavailable channelId error)
  unkeyed : ∀ channelId error, past.getLast? = some (.keyUnavailable channelId error) →
    s.lastError = some error
  start : s.lastError = none → past = []

theorem inHand_continues {past : List (RetryEvent α)} {s' : RetryState}
    (continues : Continues s' events) : InHand (past ++ events) s' := by
  cases continues with
  | unkeyed inHand =>
      refine ⟨fun error same => ?_, fun channelId error last => ?_, fun none => ?_⟩
      · rw [inHand] at same
        cases same
        exact .inr ⟨_, List.getLast?_concat⟩
      · rw [List.getLast?_concat] at last
        cases last
        exact inHand
      · rw [inHand] at none
        cases none
  | failed inHand keyed =>
      refine ⟨fun error same => ?_, fun channelId error last => ?_, fun none => ?_⟩
      · rw [inHand] at same
        cases same
        rw [attemptFailures_append]
        exact .inl (List.mem_append_right _ (List.mem_filterMap.mpr
          ⟨_, List.mem_cons_self, rfl⟩))
      · rw [List.getLast?_append_of_ne_nil _ (List.cons_ne_nil _ _)] at last
        have mem := List.mem_of_getLast? last
        cases mem with
        | tail _ mem => exact absurd mem (keyed channelId error)
      · rw [inHand] at none
        cases none

theorem inHand_reached {past : List (RetryEvent α)}
    (reached : reachedAt request limit rounds i = some (past, s)) : InHand past s := by
  cases i with
  | zero =>
      cases reached
      exact ⟨(fun _ h => by cases h), (fun _ _ h => by cases h), fun _ => rfl⟩
  | succ i =>
      obtain ⟨before, s₀, events, -, continued, rfl⟩ := reachedAt_succ reached
      exact inHand_continues (iterate_continues continued)

theorem expired_stops {error : GatewayError} (alive : round.aborted = false)
    (late : round.remainingAtStart = 0) (inHand : s.lastError = some error) :
    iterate request limit i round s = ([], .stop (.error (.gateway error))) := by
  rw [iterate, alive, if_neg (by decide), if_pos late, inHand]

theorem refused_stops {thrown : Thrown} (refused : SelectionRefused request i round s thrown) :
    iterate request limit i round s = ([], .stop (.error thrown)) := by
  obtain ⟨alive, inTime, selected⟩ := refused
  have none_in_hand : (if round.remainingAtStart = 0 then s.lastError else none) = none := by
    split
    · next late => exact inTime late
    · rfl
  rw [iterate, alive, if_neg (by decide), none_in_hand]
  simp only [selected]

end Failures

section Settled

/-- A run in which an attempt was made and none succeeded reports the failure of one of them, or that
the client is gone, exactly if nothing hides it. -/
theorem failure_reported_iff (retryTimes : Int) (request : RetryRequest) (rounds : Nat → Round α)
    (attempted : calls (withChannelRetry retryTimes request rounds).1 ≠ [])
    (failed : ∀ call ∈ calls (withChannelRetry retryTimes request rounds).1,
      ∃ failure, call.2 = .error failure) :
    (∃ thrown, (withChannelRetry retryTimes request rounds).2 = .error thrown ∧
        Reported (attemptLimit retryTimes request).toNat rounds
          (withChannelRetry retryTimes request rounds).1 thrown) ↔
      NothingHidden request (attemptLimit retryTimes request).toNat rounds := by
  rw [withChannelRetry] at attempted failed ⊢
  generalize (attemptLimit retryTimes request).toNat = limit at attempted failed ⊢
  constructor
  · rintro ⟨thrown, result, reported⟩ i within past s reached -
    refine ⟨fun refusal before refused => ?_, fun channelId error last ranOut => ?_⟩
    · rw [retryLoop_ended reached before (refused_stops refused), List.append_nil]
        at result reported
      cases result
      exact reported
    · have inHand := (inHand_reached reached).unkeyed channelId error last
      rcases ranOut with rfl | ⟨before, alive, late⟩
      · rw [retryLoop_exhausted reached, inHand] at result reported
        cases result
        exact reported
      · rw [retryLoop_ended reached before (expired_stops alive late inHand), List.append_nil]
          at result reported
        cases result
        exact reported
  · intro nothing
    -- An error in hand is that of an attempt, unless the last channel had no usable key.
    have in_hand {i : Nat} {past : List (RetryEvent α)} {s : RetryState} {error : GatewayError}
        (within : i ≤ limit) (reached : reachedAt request limit rounds i = some (past, s))
        (inHand : s.lastError = some error) (called : calls past ≠ [])
        (ranOut : RanOut limit i rounds) : Reported limit rounds past (.gateway error) := by
      rcases (inHand_reached reached).origin error inHand with mem | ⟨channelId, last⟩
      · exact .inl ⟨error, mem, rfl⟩
      · exact (nothing i within past s reached called).2 channelId error last ranOut
    rcases run_ends request limit rounds limit with
      ⟨i, before, past, s, events, result, reached, stopped⟩ | ⟨past, s, reached⟩
    · rw [retryLoop_ended reached before stopped] at attempted failed ⊢
      dsimp only at attempted failed ⊢
      cases iterate_ends stopped with
      | aborted gone => exact ⟨_, rfl, .inr ⟨⟨i, before, .inl gone⟩, rfl⟩⟩
      | expired alive late inHand =>
          rw [List.append_nil] at attempted ⊢
          exact ⟨_, rfl, in_hand (Nat.le_of_lt before) reached inHand attempted
            (.inr ⟨before, alive, late⟩)⟩
      | refused refused =>
          rw [List.append_nil] at attempted ⊢
          exact ⟨_, rfl,
            (nothing i (Nat.le_of_lt before) past s reached attempted).1 _ before refused⟩
      | answered =>
          obtain ⟨failure, same⟩ := failed (_, .ok _) (by
            rw [calls_append]
            exact List.mem_append_right _ List.mem_cons_self)
          cases same
      | failed =>
          refine ⟨_, rfl, .inl ⟨_, ?_, rfl⟩⟩
          rw [attemptFailures_append]
          exact List.mem_append_right _ (List.mem_filterMap.mpr ⟨_, List.mem_cons_self, rfl⟩)
      | asleep gone => exact ⟨_, rfl, .inr ⟨⟨i, before, .inr gone⟩, rfl⟩⟩
    · rw [retryLoop_exhausted reached] at attempted failed ⊢
      dsimp only at attempted failed ⊢
      cases inHand : s.lastError with
      | none =>
          rw [(inHand_reached reached).start inHand] at attempted
          exact absurd rfl attempted
      | some error =>
          exact ⟨_, rfl, in_hand (Nat.le_refl _) reached inHand attempted (.inl rfl)⟩

def loneChannel : Collection ChannelDoc :=
  ⟨[⟨"a", .enabled, 0, 0, ["default"], ["gpt-4o"]⟩], by decide⟩

def loneKey : Collection ChannelKeyDoc :=
  ⟨[⟨"a0", "a", "", "", "", 1, "f0", .enabled, 0⟩], by decide⟩

/-- One channel, whose upstream answers 500 whenever it is asked. -/
def loneRounds : Nat → Round Unit := fun _ => steadyRound loneChannel loneKey

def loneRequest (maxAttempts : Int) : RetryRequest := ⟨"default", "gpt-4o", none, some maxAttempts⟩

theorem failure_reported_single :
    (∃ thrown, (withChannelRetry 2 (loneRequest 1) loneRounds).2 = .error thrown ∧
        Reported (attemptLimit 2 (loneRequest 1)).toNat loneRounds
          (withChannelRetry 2 (loneRequest 1) loneRounds).1 thrown) ↔
      NothingHidden (loneRequest 1) (attemptLimit 2 (loneRequest 1)).toNat loneRounds := by
  have called : calls (withChannelRetry 2 (loneRequest 1) loneRounds).1 =
      [(⟨0, ⟨"a", .enabled, 0, 0, ["default"], ["gpt-4o"]⟩, ⟨"gpt-4o", "gpt-4o"⟩,
        ⟨"a0", "", 0, "f0"⟩, 1000⟩, .error upstreamFailed)] := by decide +kernel
  refine failure_reported_iff 2 (loneRequest 1) loneRounds ?_ ?_
  · rw [called]
    exact List.cons_ne_nil _ _
  · rw [called]
    intro call mem
    rw [List.mem_singleton.mp mem]
    exact ⟨upstreamFailed, rfl⟩

/-- A second attempt is allowed but there is no second channel, and that is all the caller learns. -/
theorem upstream_failure_hidden :
    attemptFailures (withChannelRetry 2 (loneRequest 2) loneRounds).1 = [upstreamFailed] ∧
      (withChannelRetry 2 (loneRequest 2) loneRounds).2 =
        .error (.gateway (noChannelAvailable "gpt-4o" "default")) ∧
      ¬∃ thrown, (withChannelRetry 2 (loneRequest 2) loneRounds).2 = .error thrown ∧
        Reported (attemptLimit 2 (loneRequest 2)).toNat loneRounds
          (withChannelRetry 2 (loneRequest 2) loneRounds).1 thrown := by
  have failures : attemptFailures (withChannelRetry 2 (loneRequest 2) loneRounds).1 =
      [upstreamFailed] := by decide +kernel
  have result : (withChannelRetry 2 (loneRequest 2) loneRounds).2 =
      .error (.gateway (noChannelAvailable "gpt-4o" "default")) := by decide +kernel
  refine ⟨failures, result, ?_⟩
  rintro ⟨thrown, same, reported⟩
  rw [result] at same
  cases same
  rw [Reported, failures] at reported
  rcases reported with ⟨failure, mem, same⟩ | ⟨⟨i, -, gone⟩, -⟩
  · rw [List.mem_singleton.mp mem] at same
    exact absurd same (by decide)
  · have here : (loneRounds i).aborted = false ∧ (loneRounds i).sleepAborted = false := ⟨rfl, rfl⟩
    rw [here.1, here.2] at gone
    simp at gone

end Settled

end Gateway
